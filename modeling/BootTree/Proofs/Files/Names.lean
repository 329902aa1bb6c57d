/-
  Path texts that are put together from names.

  Such a text is cut into its names again (`ofText_textOf_of_isName`).  Its parents are the texts of
  fewer names, the longest first (`ancestors_textOf`), and the nearest of them is also the parent that
  is found by looking at the characters of the text (`parent?_textOf`).  It is a path for the file
  system as long as it is not too long (`checkText_textOf`).
-/
import BootTree.Files.Access
import BootTree.Proofs.Path

namespace BootTree.Trail

/-- A name of a file or a directory: one segment of a path that stands for itself, and not too
long. -/
structure IsName (s : String) : Prop where
  proper : IsProper s
  slash : '/' ∉ s.toList
  null : '\x00' ∉ s.toList
  short : s.utf8ByteSize ≤ nameLimit

instance (s : String) : Decidable (IsName s) :=
  decidable_of_iff ((s ≠ "" ∧ s ≠ "." ∧ s ≠ "..") ∧ '/' ∉ s.toList ∧ '\x00' ∉ s.toList ∧
      s.utf8ByteSize ≤ nameLimit)
    ⟨fun ⟨hproper, hslash, hnull, hshort⟩ => ⟨hproper, hslash, hnull, hshort⟩,
      fun h => ⟨h.proper, h.slash, h.null, h.short⟩⟩

theorem IsName.isPart {s : String} (h : IsName s) : Path.IsPart s := ⟨h.proper.1, h.slash⟩

/-! ## Parents -/

/-- The trails that have fewer of the segments, the longest first. -/
def above (rooted : Bool) : List String → List Trail
  | [] => []
  | _ :: before => ⟨rooted, before⟩ :: above rooted before

variable {rooted : Bool} {l m : List String} {name s : String}

theorem mem_above {a : Trail} :
    a ∈ above rooted l ↔ ∃ m, m <:+ l ∧ m ≠ l ∧ a = ⟨rooted, m⟩ := by
  induction l with
  | nil =>
    refine ⟨nofun, ?_⟩
    rintro ⟨m, hm, hne, -⟩
    exact absurd (List.suffix_nil.mp hm) hne
  | cons name l ih =>
    rw [above, List.mem_cons, ih]
    constructor
    · rintro (rfl | ⟨m, hm, -, rfl⟩)
      · exact ⟨l, List.suffix_cons name l, List.ne_cons_self, rfl⟩
      · refine ⟨m, hm.trans (List.suffix_cons name l), ?_, rfl⟩
        rintro rfl
        exact absurd hm.length_le (by simp)
    · rintro ⟨m, hm, hne, rfl⟩
      have hbelow : m <:+ l := (List.suffix_cons_iff.mp hm).resolve_left hne
      by_cases hml : m = l
      · exact .inl (by rw [hml])
      · exact .inr ⟨m, hbelow, hml, rfl⟩

theorem dropIdle_of_isProper_all (h : ∀ s ∈ l, IsProper s) : dropIdle rooted l = l := by
  cases l with
  | nil => rfl
  | cons name l => exact dropIdle_of_isProper (h name List.mem_cons_self) rooted l

/-- The parents of a trail of names are the trails with fewer of them. -/
theorem ancestorsFrom_of_isProper (h : ∀ s ∈ l, IsProper s) {fuel : Nat} (hfuel : l.length ≤ fuel) :
    ancestorsFrom fuel ⟨rooted, l⟩ = above rooted l := by
  induction l generalizing fuel with
  | nil => cases fuel <;> rfl
  | cons name l ih =>
    obtain ⟨hname, hl⟩ := List.forall_mem_cons.mp h
    cases fuel with
    | zero => cases hfuel
    | succ fuel =>
      -- no name is dropped, so the parent has just one less
      have hparent : (Trail.mk rooted (name :: l)).parent? = some ⟨rooted, l⟩ := by
        rw [parent?_eq rfl hname, dropIdle_of_isProper_all hl]
      rw [ancestorsFrom, hparent, above]
      exact congrArg _ (ih hl (Nat.le_of_succ_le_succ hfuel))

/-! ## Texts -/

section Names

variable (hl : ∀ s ∈ l, IsName s)

include hl

/-- The text of one more name: it stands behind a slash or at the front. -/
theorem textOf_cons (name : String) :
    textOf rooted (name :: l) = (Path.mk (textOf rooted l)).front ++ name := by
  have hhead : ∀ s rest, l = s :: rest → s ≠ "" ∧ '/' ∉ s.toList := by
    rintro s rest rfl
    have hs := hl s List.mem_cons_self
    exact ⟨hs.proper.1, hs.slash⟩
  rw [← append_textOf name hhead, append, Path.front, Path.endsInSlash]
  by_cases hfront : textOf rooted l = "" ∨ (textOf rooted l).toList.getLast? = some '/'
  · rw [if_pos (by simpa using hfront), if_pos (by simpa using hfront)]
  · rw [if_neg (by simpa using hfront), if_neg (by simpa using hfront)]

theorem ofText_textOf_of_isName (hne : l ≠ []) : ofText (textOf rooted l) = ⟨rooted, l⟩ := by
  refine ofText_textOf hne (fun s hs => (hl s hs).slash) fun _ hlast => ?_
  exact (hl "" (List.mem_of_getLast? hlast)).proper.1 rfl

theorem ancestors_textOf (hne : l ≠ []) :
    (ofText (textOf rooted l)).ancestors = above rooted l := by
  rw [ancestors, ofText_textOf_of_isName hl hne]
  exact ancestorsFrom_of_isProper (fun s hs => (hl s hs).proper) (Nat.le_refl _)

theorem null_not_mem_textOf : '\x00' ∉ (textOf rooted l).toList := by
  induction l with
  | nil => cases rooted <;> decide
  | cons name l ih =>
    obtain ⟨hname, hrest⟩ := List.forall_mem_cons.mp hl
    have hbefore := ih hrest
    rw [textOf_cons hrest, Path.front]
    split
    · simpa using ⟨hbefore, hname.null⟩
    · simpa using ⟨hbefore, hname.null⟩

/-- The text of fewer names is not longer. -/
theorem size_textOf_le (hm : m <:+ l) :
    (textOf rooted m).utf8ByteSize ≤ (textOf rooted l).utf8ByteSize := by
  induction l with
  | nil => exact Nat.le_of_eq (by rw [List.suffix_nil.mp hm])
  | cons name l ih =>
    obtain ⟨-, hrest⟩ := List.forall_mem_cons.mp hl
    rcases List.suffix_cons_iff.mp hm with rfl | hm
    · exact Nat.le_refl _
    · refine Nat.le_trans (ih hrest hm) ?_
      rw [textOf_cons hrest, Path.front]
      split
      · simp
      · simp only [String.utf8ByteSize_append]
        omega

theorem textOf_ne_empty (hne : l ≠ []) : textOf rooted l ≠ "" := by
  obtain ⟨name, l, rfl⟩ := List.exists_cons_of_ne_nil hne
  obtain ⟨hname, hrest⟩ := List.forall_mem_cons.mp hl
  rw [textOf_cons hrest]
  intro hempty
  have hlist := congrArg String.toList hempty
  simp [hname.proper.1] at hlist

theorem checkText_textOf (hne : l ≠ []) (hsize : (textOf rooted l).utf8ByteSize < pathLimit) :
    FileTree.checkText (textOf rooted l) = .ok () := by
  rw [FileTree.checkText, if_neg, if_neg (textOf_ne_empty hl hne), if_neg (Nat.not_le.mpr hsize)]
  simpa using null_not_mem_textOf hl

/-- The text of a path does not end in a slash, unless it is the root. -/
theorem endsInSlash_textOf (hne : l ≠ []) : (Path.mk (textOf rooted l)).endsInSlash = false := by
  obtain ⟨name, l, rfl⟩ := List.exists_cons_of_ne_nil hne
  obtain ⟨hname, hrest⟩ := List.forall_mem_cons.mp hl
  have hlist : name.toList ≠ [] := by simpa using hname.proper.1
  rw [Path.endsInSlash, textOf_cons hrest, String.toList_append, decide_eq_false_iff_not,
    List.getLast?_append_of_ne_nil _ hlist]
  exact fun hlast => hname.slash (List.mem_of_getLast? hlast)

/-- The parent that is found by text is the one without the last name. -/
theorem parent?_textOf (hname : IsName name) : (Path.mk (textOf rooted (name :: l))).parent? =
    if textOf rooted l = "" then none else some ⟨textOf rooted l⟩ := by
  rw [textOf_cons hl, Path.parent?_append hname.isPart]
  split
  · next hempty => exact Path.around_eq_none_iff.mpr hempty
  · next hne =>
    refine Path.around_eq_self hne ?_
    cases l with
    | nil =>
      cases rooted
      · exact absurd rfl hne
      · exact .inl rfl
    | cons last before => exact .inr (endsInSlash_textOf hl (List.cons_ne_nil _ _))

end Names

/-- A text is put together from its segments. -/
theorem text_ofText (s : String) : (ofText s).text = s := by
  have hjoin : ∀ cs, (joinText ((cut cs).map String.ofList)).toList = cs := by
    intro cs
    rw [toList_joinText, List.map_map, cut_eq_splitOn]
    simp [Function.comp_def, List.intercalate_splitOn]
  rw [← String.toList_inj]
  rcases ofText_cases s with ⟨rest, hs, htrail⟩ | ⟨-, htrail⟩
  · rw [htrail, text, textOf, List.reverse_reverse, hs]
    simp [hjoin]
  · rw [htrail, text, textOf, List.reverse_reverse, parts]
    simp [hjoin]

end BootTree.Trail

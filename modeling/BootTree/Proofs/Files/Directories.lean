/-
  Where directories can be made with their parents.

  1. **Places** — a path of names leads through the places of its first names (`site`).  Nothing more
     than a directory in front of the last name is needed to follow it (`entry_textOf`), and where no
     file is in the way the only other ending is that something is missing (`follow_of_clear`).

  2. **Making** — so a directory can be made where the one around it is there
     (`makeDirectory_of_directory`), it is refused as missing where that is missing too
     (`makeDirectory_of_missing`), and by recursion to the parents the whole way can be made, unless a
     file is in it (`exists_makeWithParents`).
-/
import BootTree.Proofs.Files.Names
import BootTree.Proofs.Files.Parents
import BootTree.Proofs.Files.Settle

namespace BootTree

/-! ## Places of names -/

namespace FileTree

open Trail (IsName textOf)

variable {t t' : FileTree} {rooted : Bool} {l m : List String} {name : String} {p q : Place}

/-- The place that a trail of names leads to. -/
def site (t : FileTree) (rooted : Bool) (names : List String) : Place :=
  names ++ if rooted then [] else t.base

theorem site_congr (h : t'.base = t.base) (rooted : Bool) (l : List String) :
    t'.site rooted l = t.site rooted l := by
  rw [site, site, h]

theorem walk_reverse (hl : ∀ s ∈ l, IsName s) (p : Place) : walk p l.reverse = l ++ p := by
  induction l with
  | nil => rfl
  | cons name l ih =>
    obtain ⟨hname, hl⟩ := List.forall_mem_cons.mp hl
    rw [List.reverse_cons, walk_append, ih hl, walk_isProper hname.proper, List.cons_append]

theorem place_textOf (hl : ∀ s ∈ l, IsName s) :
    t.place (textOf rooted l) = t.site rooted l := by
  by_cases hne : l = []
  · subst hne
    cases rooted
    · rfl
    · rfl
  · rw [place, Trail.ofText_textOf_of_isName hl hne, Trail.segments, walk_reverse hl]
    rfl

/-- No file is on the way of a trail of names, and none is at its end. -/
def Clear (t : FileTree) (rooted : Bool) (l : List String) : Prop :=
  ∀ m, m <:+ l → t.bytesAt (t.site rooted m) = none

theorem Clear.of_suffix (h : t.Clear rooted l) (hm : m <:+ l) : t.Clear rooted m :=
  fun k hk => h k (hk.trans hm)

theorem clear_congr (hadds : AddsDirectories t t') : t'.Clear rooted l ↔ t.Clear rooted l := by
  simp only [Clear, site_congr hadds.base, hadds.bytesAt]

theorem Clear.get?_cases (h : t.Clear rooted l) :
    t.get? (t.site rooted l) = none ∨ t.get? (t.site rooted l) = some .directory := by
  cases hget : t.get? (t.site rooted l) with
  | none => exact .inl rfl
  | some e =>
    cases e with
    | directory => exact .inr rfl
    | file content =>
      have hfile := h l (List.suffix_refl l)
      rw [bytesAt_eq_some.mpr hget] at hfile
      cases hfile

/-- There is no file on the way to a directory. -/
theorem clear_of_directory (h : t.get? (t.site rooted l) = some .directory) :
    t.Clear rooted l := by
  intro m hm
  have hdirectory : t.get? (t.site rooted m) = some .directory := by
    by_cases hml : m = l
    · rw [hml, h]
    · have hsites : t.site rooted m <:+ t.site rooted l := by
        obtain ⟨front, rfl⟩ := hm
        exact ⟨front, (List.append_assoc ..).symm⟩
      exact get?_of_suffix h hsites fun he => hml (List.append_cancel_right he)
  rw [bytesAt, hdirectory]

theorem follow_name (hp : t.get? p = some .directory) (hname : IsName name) :
    t.follow p [name] = .ok (name :: p) := by
  rw [follow, hp]
  dsimp only
  rw [if_neg (by simp [hname.proper.1, hname.proper.2.1]), if_neg hname.proper.2.2,
    if_neg (Nat.not_lt.mpr hname.short), follow]

/-- The names on the way to a directory can be followed. -/
theorem follow_of_directory (hl : ∀ s ∈ l, IsName s)
    (h : t.get? (t.site rooted l) = some .directory) :
    t.follow (t.site rooted []) l.reverse = .ok (t.site rooted l) := by
  induction l with
  | nil => rfl
  | cons name l ih =>
    obtain ⟨hname, hl⟩ := List.forall_mem_cons.mp hl
    have haround : t.get? (t.site rooted l) = some .directory := get?_around h
    rw [List.reverse_cons, follow_append, ih hl haround]
    exact follow_name haround hname

/-- Where no file is in the way, names can be followed, unless something is missing. -/
theorem follow_of_clear (hl : ∀ s ∈ l, IsName s) (hclear : t.Clear rooted l)
    (hnone : t.follow (t.site rooted []) l.reverse ≠ .error .notFound) :
    t.follow (t.site rooted []) l.reverse = .ok (t.site rooted l) := by
  induction l with
  | nil => rfl
  | cons name l ih =>
    obtain ⟨hname, hl⟩ := List.forall_mem_cons.mp hl
    have hbefore : t.Clear rooted l := hclear.of_suffix (List.suffix_cons name l)
    rw [List.reverse_cons, follow_append] at hnone ⊢
    have hfollow := ih hl hbefore fun h => hnone (by rw [h]; rfl)
    rw [hfollow] at hnone ⊢
    refine follow_name ?_ hname
    -- the names before lead to their place, which is missing or a directory
    rcases hbefore.get?_cases with hmissing | hdirectory
    · exact absurd (show t.follow _ [name] = _ by rw [follow, hmissing]) hnone
    · exact hdirectory

theorem checkName_of_isName (hname : IsName name) : checkName name = .ok () := by
  rw [checkName, if_neg (Nat.not_lt.mpr hname.short)]

section Target

variable (hl : ∀ s ∈ name :: l, IsName s)
  (hsize : (textOf rooted (name :: l)).utf8ByteSize < pathLimit)

include hl hsize

/-- A change at the end of a trail of names concerns the last name, once the names before it are
followed. -/
theorem target_textOf : t.target (textOf rooted (name :: l)) =
    t.follow (t.site rooted []) l.reverse >>= fun around =>
      match t.get? around with
      | none => .error .notFound
      | some (.file _) => .error .notDirectory
      | some .directory => .ok (.named around name false) := by
  obtain ⟨hname, -⟩ := List.forall_mem_cons.mp hl
  have hne : name :: l ≠ [] := List.cons_ne_nil name l
  rw [target, Trail.checkText_textOf hl hne hsize, Trail.ofText_textOf_of_isName hl hne]
  have hdots : ¬ (name = "." || name = "..") = true := by simp [hname.proper.2.1, hname.proper.2.2]
  have hslash : decide ((name :: l).head? = some "") = false := by simp [hname.proper.1]
  dsimp only [bind, Except.bind]
  rw [List.dropWhile_cons_of_neg (by simpa using hname.proper.1), hslash]
  simp only [if_neg hdots]
  rfl

theorem target_of_directory (h : t.get? (t.site rooted l) = some .directory) :
    t.target (textOf rooted (name :: l)) = .ok (.named (t.site rooted l) name false) := by
  obtain ⟨-, hrest⟩ := List.forall_mem_cons.mp hl
  rw [target_textOf hl hsize, follow_of_directory hrest h]
  dsimp only [bind, Except.bind]
  rw [h]

theorem writable_of_directory (h : t.get? (t.site rooted l) = some .directory)
    (hfree : t.get? (t.site rooted (name :: l)) ≠ some .directory) :
    t.Writable (textOf rooted (name :: l)) := by
  obtain ⟨hname, -⟩ := List.forall_mem_cons.mp hl
  exact ⟨_, name, target_of_directory hl hsize h, checkName_of_isName hname, hfree⟩

/-- A directory can be made in a directory, unless it or a file is there. -/
theorem makeDirectory_of_directory (h : t.get? (t.site rooted l) = some .directory)
    (hnone : t.get? (t.site rooted (name :: l)) = none) :
    ∃ t', t.makeDirectory (textOf rooted (name :: l)) = .ok t' := by
  obtain ⟨hname, -⟩ := List.forall_mem_cons.mp hl
  refine ⟨t.put name (t.site rooted l) .directory, ?_⟩
  refine bind_eq_ok.mpr ⟨_, target_of_directory hl hsize h, ?_⟩
  refine bind_eq_ok.mpr ⟨(), checkName_of_isName hname, ?_⟩
  rw [show t.get? (name :: t.site rooted l) = none from hnone]

/-- Where the directory around is missing, a directory is refused for this cause. -/
theorem makeDirectory_of_missing (hclear : t.Clear rooted l)
    (hmissing : t.get? (t.site rooted l) = none) :
    t.makeDirectory (textOf rooted (name :: l)) = .error .notFound := by
  obtain ⟨-, hrest⟩ := List.forall_mem_cons.mp hl
  refine bind_eq_error.mpr (.inl ?_)
  rw [target_textOf hl hsize]
  by_cases hfollow : t.follow (t.site rooted []) l.reverse = .error .notFound
  · rw [hfollow]
    rfl
  · rw [follow_of_clear hrest hclear hfollow]
    dsimp only [bind, Except.bind]
    rw [hmissing]

/-- A text of names leads to what stands at their place. -/
theorem entry_textOf {e : Entry} : t.entry (textOf rooted (name :: l)) = .ok e ↔
    t.get? (t.site rooted (name :: l)) = some e := by
  obtain ⟨hname, -⟩ := List.forall_mem_cons.mp hl
  rw [entry_eq_ok, place_textOf hl]
  refine ⟨And.right, fun h => ⟨?_, h⟩⟩
  have htarget := target_of_directory hl hsize (get?_around h)
  exact locate_of_target htarget (checkName_of_isName hname) nofun

theorem has_textOf :
    t.has (textOf rooted (name :: l)) = (t.get? (t.site rooted (name :: l))).isSome := by
  rw [has]
  cases hget : t.get? (t.site rooted (name :: l)) with
  | some e =>
    rw [(entry_textOf hl hsize).mpr hget]
    rfl
  | none =>
    cases hentry : t.entry (textOf rooted (name :: l)) with
    | error cause => rfl
    | ok e =>
      rw [(entry_textOf hl hsize).mp hentry] at hget
      cases hget

theorem isFile_textOf :
    t.isFile (textOf rooted (name :: l)) = (t.bytesAt (t.site rooted (name :: l))).isSome := by
  rw [Bool.eq_iff_iff, isFile_iff, Option.isSome_iff_exists]
  exact exists_congr fun content => (entry_textOf hl hsize).trans bytesAt_eq_some.symm

/-- No file is in the way if none of the parents is one. -/
theorem clear_iff_ancestors (hstart : t.get? (t.site rooted []) = some .directory) :
    t.Clear rooted l ↔
      ∀ a ∈ (Trail.ofText (textOf rooted (name :: l))).ancestors, t.isFile a.text = false := by
  have hparent : ∀ {s m}, s :: m <:+ name :: l → t.isFile (Trail.mk rooted (s :: m)).text =
      (t.bytesAt (t.site rooted (s :: m))).isSome := fun hm =>
    isFile_textOf (fun s hs => hl s (hm.subset hs))
      (Nat.lt_of_le_of_lt (Trail.size_textOf_le hl hm) hsize)
  rw [Trail.ancestors_textOf hl (List.cons_ne_nil name l)]
  constructor
  · intro hclear a ha
    obtain ⟨m, hm, hne, rfl⟩ := Trail.mem_above.mp ha
    have hfree := hclear m ((List.suffix_cons_iff.mp hm).resolve_left hne)
    cases m with
    | nil => cases rooted <;> rfl
    | cons s m =>
      rw [hparent hm, hfree]
      rfl
  · intro hway m hm
    have hlonger : m <:+ name :: l := hm.trans (List.suffix_cons name l)
    cases m with
    | nil => rw [bytesAt, hstart]
    | cons s m =>
      have hne : s :: m ≠ name :: l := by
        intro he
        have hlength := hm.length_le
        rw [he] at hlength
        exact Nat.not_succ_le_self _ hlength
      have hfree := hway _ (Trail.mem_above.mpr ⟨s :: m, hlonger, hne, rfl⟩)
      rwa [hparent hlonger, Option.isSome_eq_false_iff, Option.isNone_iff_eq_none] at hfree

end Target

/-- What can be followed is not too long. -/
theorem size_of_locate {text : String} (h : t.locate text = .ok q) :
    text.utf8ByteSize < pathLimit := by
  obtain ⟨u, hcheck, -⟩ := bind_eq_ok.mp h
  rw [checkText] at hcheck
  by_contra hlong
  rw [if_pos (Nat.not_lt.mp hlong)] at hcheck
  split at hcheck
  · cases hcheck
  · split at hcheck
    · cases hcheck
    · cases hcheck

/-- A file is written only where none is in the way. -/
theorem clear_of_write {content : ByteArray} (hl : ∀ s ∈ name :: l, IsName s)
    (h : t.write (textOf rooted (name :: l)) content = .ok t') : t.Clear rooted l := by
  obtain ⟨last, around, hnames, -⟩ := write_eq_ok h
  have hsite : name :: t.site rooted l = last :: around :=
    (place_textOf hl).symm.trans hnames.place
  refine clear_of_directory ?_
  rw [(List.cons.inj hsite).2, hnames.around]

theorem get?_of_isDirectory (hl : ∀ s ∈ l, IsName s)
    (h : t.isDirectory (textOf rooted l) = true) : t.get? (t.site rooted l) = some .directory := by
  rw [← place_textOf hl]
  exact (entry_eq_ok.mp (isDirectory_iff.mp h)).2

end FileTree

/-! ## Making the way -/

open FileTree
open Trail (IsName textOf above)

variable {t t' : FileTree} {rooted : Bool} {l : List String} {name text : String} {q : Place}

/-- A directory that is there, or can be made at once, needs no parents. -/
theorem exists_makeWithParents_of_settled (ancestors : List Trail)
    (h : t.isDirectory text = true ∨ ∃ t', t.makeDirectory text = .ok t') :
    ∃ t', makeWithParents text ancestors t = (.ok (), t') := by
  rcases h with hthere | ⟨t', hmake⟩
  · exact ⟨t, makeWithParents_of_isDirectory ancestors hthere⟩
  · refine ⟨t', ?_⟩
    cases ancestors with
    | nil => simp only [makeWithParents, hmake]
    | cons parent ancestors => simp only [makeWithParents, hmake]

/-- Once the parents are there, a directory that could not be made is tried again. -/
theorem makeWithParents_of_missing (parent : Trail) {ancestors : List Trail}
    (hmissing : t.makeDirectory text = .error .notFound) (hne : parent.text ≠ "")
    (hparents : makeWithParents parent.text ancestors t = (.ok (), t')) :
    makeWithParents text (parent :: ancestors) t = makeWithParents text [] t' := by
  simp only [makeWithParents, hmissing, if_neg hne, hparents]

theorem settled_of_directory (hl : ∀ s ∈ name :: l, IsName s)
    (hsize : (textOf rooted (name :: l)).utf8ByteSize < pathLimit)
    (h : t.get? (t.site rooted l) = some .directory) (hclear : t.Clear rooted (name :: l)) :
    t.isDirectory (textOf rooted (name :: l)) = true ∨
      ∃ t', t.makeDirectory (textOf rooted (name :: l)) = .ok t' := by
  rcases hclear.get?_cases with hnone | hdirectory
  · exact .inr (makeDirectory_of_directory hl hsize h hnone)
  · exact .inl (isDirectory_iff.mpr ((entry_textOf hl hsize).mpr hdirectory))

/-- Where no file is in the way, a directory can be made with its parents, however many of them are
missing. -/
theorem exists_makeWithParents (hl : ∀ s ∈ name :: l, IsName s)
    (hsize : (textOf rooted (name :: l)).utf8ByteSize < pathLimit)
    (hstart : t.get? (t.site rooted []) = some .directory) (hclear : t.Clear rooted (name :: l)) :
    ∃ t', makeWithParents (textOf rooted (name :: l)) (above rooted (name :: l)) t = (.ok (), t') := by
  -- by induction on the names in front of the last one
  induction l generalizing name with
  | nil => exact exists_makeWithParents_of_settled _ (settled_of_directory hl hsize hstart hclear)
  | cons before l ih =>
    have hbefore : t.Clear rooted (before :: l) := hclear.of_suffix (List.suffix_cons _ _)
    obtain ⟨-, hrest⟩ := List.forall_mem_cons.mp hl
    rcases hbefore.get?_cases with hmissing | hdirectory
    · -- the parents are made first, and then there is a directory for this one
      have hsize' := Nat.lt_of_le_of_lt (Trail.size_textOf_le hl (List.suffix_cons _ _)) hsize
      obtain ⟨t₁, hparents⟩ := ih hrest hsize' hbefore
      have hadds := makeWithParents_adds (textOf rooted (before :: l)) (above rooted (before :: l)) t
      rw [hparents] at hadds
      have hthere : t₁.get? (t₁.site rooted (before :: l)) = some .directory := by
        refine get?_of_isDirectory hrest ?_
        rcases makeWithParents_eq_ok hparents with ⟨t₀, hmake⟩ | hthere
        · exact isDirectory_of_makeDirectory hmake
        · exact hthere
      rw [above, makeWithParents_of_missing ⟨rooted, before :: l⟩
        (makeDirectory_of_missing hl hsize hbefore hmissing)
        (Trail.textOf_ne_empty hrest (List.cons_ne_nil before l)) hparents]
      exact exists_makeWithParents_of_settled _
        (settled_of_directory hl hsize hthere ((clear_congr hadds).mpr hclear))
    · exact exists_makeWithParents_of_settled _ (settled_of_directory hl hsize hdirectory hclear)

/-- The root is there, and the empty path is never made. -/
theorem names_ne_nil (hne : textOf rooted l ≠ "")
    (hmissing : ¬ t.isDirectory (textOf rooted l) = true) : l ≠ [] := by
  rintro rfl
  cases rooted
  · exact hne rfl
  · exact hmissing rfl

theorem get?_of_ensureDirectory {u : Unit} (hl : ∀ s ∈ l, IsName s)
    (hstart : t.get? (t.site rooted []) = some .directory)
    (h : ensureDirectory ⟨textOf rooted l⟩ t = (.ok u, t')) :
    t'.get? (t.site rooted l) = some .directory := by
  have hadds := ensureDirectory_adds ⟨textOf rooted l⟩ t
  rw [h] at hadds
  rw [← site_congr hadds.base]
  rcases isDirectory_of_ensureDirectory h with hempty | hthere
  · have hnil : l = [] := by
      by_contra hne
      exact Trail.textOf_ne_empty hl hne hempty
    rw [hnil, site_congr hadds.base]
    exact (Extends.of_addsDirectories hadds).keeps _ _ hstart
  · exact get?_of_isDirectory hl hthere

/-- Where no file is in the way, a directory is made unless it is there. -/
theorem exists_ensureDirectory (hl : ∀ s ∈ l, IsName s)
    (hsize : (textOf rooted l).utf8ByteSize < pathLimit)
    (hstart : t.get? (t.site rooted []) = some .directory) (hclear : t.Clear rooted l) :
    ∃ t', ensureDirectory ⟨textOf rooted l⟩ t = (.ok (), t') := by
  by_cases hthere : textOf rooted l = "" ∨ t.isDirectory (textOf rooted l) = true
  · exact ⟨t, ensureDirectory_of_isDirectory hthere⟩
  · obtain ⟨hne, hmissing⟩ := not_or.mp hthere
    have hnonempty := names_ne_nil hne hmissing
    obtain ⟨name, l, rfl⟩ := List.exists_cons_of_ne_nil hnonempty
    obtain ⟨t', hmake⟩ := exists_makeWithParents hl hsize hstart hclear
    refine ⟨t', ?_⟩
    rw [ensureDirectory, run_get_bind, if_neg hmissing, makeDirectories, if_neg hne,
      Trail.ancestors_textOf hl hnonempty]
    exact Change.mapError_eq_ok.mpr hmake

/-- Only directories on the way are made for a directory. -/
theorem site_of_ensureDirectory (hl : ∀ s ∈ l, IsName s) (hnone : t.get? q ≠ some .directory)
    (hmade : (ensureDirectory ⟨textOf rooted l⟩ t).2.get? q = some .directory) :
    ∃ m, m <:+ l ∧ q = t.site rooted m := by
  rw [ensureDirectory, run_get_bind] at hmade
  split at hmade
  · exact absurd hmade hnone
  · next hmissing =>
    rw [makeDirectories] at hmade
    split at hmade
    · exact absurd hmade hnone
    · next hne =>
      have hnonempty : l ≠ [] := names_ne_nil hne hmissing
      rw [Change.mapError_snd, Trail.ancestors_textOf hl hnonempty] at hmade
      rcases eq_place_of_makeWithParents hnone hmade with rfl | ⟨a, ha, rfl⟩
      · exact ⟨l, List.suffix_refl l, place_textOf hl⟩
      · obtain ⟨m, hm, -, rfl⟩ := Trail.mem_above.mp ha
        exact ⟨m, hm, place_textOf fun s hs => hl s (hm.subset hs)⟩

end BootTree

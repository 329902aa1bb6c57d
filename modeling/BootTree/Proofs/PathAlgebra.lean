/-
  Joining, parents and names of paths together.

  A path is a text, and every operation on it is one on the text.  A parent is a beginning of the
  text and not all of it (`exists_of_parent?`), so going from parent to parent comes to an end
  (`iterate_parent?`), and no operation brings in a backslash (`Made.backslash`).

  A name that is joined to a path is its last name, can be taken off again and be replaced by another
  one.  This holds of the paths that are around what is joined to them (`IsTidy`); a slash at the end
  of any other path would be lost on the way back.
-/
import BootTree.Proofs.Path
import BootTree.Registry.Record
import Mathlib.Logic.Function.Iterate

namespace BootTree

/-- A valid name stands for itself in a path. -/
theorem isPlain_of_isValidName {name : String} (h : isValidName name = true) :
    Path.IsPlain name := by
  simp only [isValidName, Bool.not_eq_true', Bool.or_eq_false_iff, List.isEmpty_eq_false_iff,
    List.contains_eq_mem, decide_eq_false_iff_not] at h
  obtain ⟨⟨⟨⟨⟨hempty, -⟩, hslash⟩, hbackslash⟩, hdot⟩, hdots⟩ := h
  exact ⟨⟨by simpa using hempty, hdot, hdots⟩, hslash, hbackslash⟩

namespace Path

variable {p q : Path} {s t : String}

/-! ## Parents -/

/-- A parent is what stands at the front of a text, and there is something behind it. -/
theorem exists_of_parent? (h : p.parent? = some q) :
    ∃ behind, behind ≠ "" ∧ p.text = q.text ++ behind := by
  have hsuffix : p.backward.dropWhile (fun c => decide (c ≠ '/')) <:+ p.text.toList.reverse :=
    (List.dropWhile_suffix _).trans (List.dropWhile_suffix _)
  obtain ⟨last, hlast⟩ := hsuffix
  rw [parent?] at h
  split at h
  · cases h
  · next c hone =>
    -- only a slash is left, and it is not the whole text: the root has no parent
    have hc : c = '/' := by
      have hhead := List.head?_dropWhile_not (fun c => decide (c ≠ '/')) p.backward
      rw [hone] at hhead
      simpa using hhead
    have htext : p.text.toList = '/' :: last.reverse := by
      rw [← List.reverse_inj, ← hlast, hone, hc]
      simp
    have hne : last ≠ [] := by
      rintro rfl
      have hroot : p.text = "/" := by rw [← String.toList_inj, htext]; rfl
      have hnone : p.backward = [] := by rw [backward, hroot]; decide
      rw [hnone] at hone
      cases hone
    cases h
    refine ⟨String.ofList last.reverse, by simpa using hne, ?_⟩
    rw [← String.toList_inj, htext]
    simp
  · next c before hmore hrest =>
    cases h
    refine ⟨String.ofList (c :: last.reverse), by simp, ?_⟩
    rw [← String.toList_inj, ← List.reverse_inj, ← hlast, hrest]
    simp

/-- A parent has a shorter text, by characters and by bytes. -/
theorem length_parent?_lt (h : p.parent? = some q) :
    q.text.length < p.text.length ∧ q.text.utf8ByteSize < p.text.utf8ByteSize := by
  obtain ⟨behind, hne, htext⟩ := exists_of_parent? h
  have hlength : behind.length ≠ 0 := by
    rw [← String.length_toList]
    simpa using hne
  have hsize : behind.utf8ByteSize ≠ 0 := by
    simpa using hne
  rw [htext, String.length_append, String.utf8ByteSize_append]
  omega

/-- Going from parent to parent comes to an end. -/
theorem iterate_parent? (n : Nat) (p : Path) (h : p.text.length < n) :
    (fun q? => Option.bind q? parent?)^[n] (some p) = none := by
  induction n generalizing p with
  | zero => omega
  | succ n ih =>
    rw [Function.iterate_succ_apply]
    show (fun q? => Option.bind q? parent?)^[n] p.parent? = none
    cases hparent : p.parent? with
    | none =>
      -- where there is no parent any more, there is none later
      exact Function.iterate_fixed rfl n
    | some q =>
      have hlt := (length_parent?_lt hparent).1
      exact ih q (by omega)

/-! ## Paths made of texts -/

/-- The paths that come of texts by joining, going to the parent and replacing the last name. -/
inductive Made : Path → Prop where
  | ofText (s : String) : Made (.ofText s)
  | join {p : Path} (h : Made p) (segment : String) : Made (p.join segment)
  | parent {p q : Path} (h : Made p) (hparent : p.parent? = some q) : Made q
  | withFileName {p : Path} (h : Made p) (name : String) : Made (p.withFileName name)

theorem backslash_join (hp : '\\' ∉ p.text.toList) (s : String) :
    '\\' ∉ (p.join s).text.toList := by
  have hfront : '\\' ∉ p.front.toList := by
    rw [front]
    split
    · exact hp
    · simpa using hp
  rw [text_join_eq, String.toList_append, List.mem_append]
  rintro (hmem | hmem)
  · exact hfront hmem
  · exact backslash_not_mem s hmem

theorem backslash_parent? (hp : '\\' ∉ p.text.toList) (h : p.parent? = some q) :
    '\\' ∉ q.text.toList := by
  obtain ⟨behind, -, htext⟩ := exists_of_parent? h
  rw [htext, String.toList_append] at hp
  exact fun hmem => hp (List.mem_append_left _ hmem)

/-- No operation brings in a backslash. -/
theorem Made.backslash (h : Made p) : '\\' ∉ p.text.toList := by
  induction h with
  | ofText s => exact backslash_not_mem s
  | join _ segment ih => exact backslash_join ih segment
  | parent _ hparent ih => exact backslash_parent? ih hparent
  | @withFileName p _ name ih =>
    rw [Path.withFileName]
    split
    · next q hparent => exact backslash_join (backslash_parent? ih hparent) name
    · exact backslash_not_mem name

/-! ## Names -/

/-- The paths without a slash at the end, the root apart. -/
def IsTidy (p : Path) : Prop := p.text = "" ∨ p.text = "/" ∨ p.endsInSlash = false

theorem IsTidy.parent?_join (hp : p.IsTidy) (hs : IsSegment s) :
    (p.join s).parent? = if p.text = "" then none else some p := by
  rw [Path.parent?_join hs]
  split
  · next hempty => exact around_eq_none_iff.mpr hempty
  · next hne => exact around_eq_self hne (hp.resolve_left hne)

/-- The last name of a joined path is replaced by joining another name. -/
theorem IsTidy.withFileName_join (hp : p.IsTidy) (hs : IsSegment s) (t : String) :
    (p.join s).withFileName t = p.join t := by
  rw [withFileName, hp.parent?_join hs]
  by_cases hempty : p.text = ""
  · rw [if_pos hempty, join, if_pos hempty]
  · rw [if_neg hempty]

theorem join_inj (hs : IsSegment s) (ht : IsSegment t) (h : p.join s = p.join t) : s = t := by
  have hname : (p.join s).fileName? = some t := by rw [h, fileName?_join ht]
  rw [fileName?_join hs] at hname
  exact Option.some.inj hname

/-- A plain name is one segment. -/
theorem IsPlain.isSegment (h : IsPlain s) : IsSegment s :=
  { ne_empty := h.proper.1, slash := h.slash, backslash := h.backslash }

/-- What is done to paths fits together.  No path that was made has a backslash.  A parent is
shorter, so that after one step more than the text has characters there is none any more.  Where a
segment is joined to a tidy path, it is the last name; the path is the parent, unless it is empty;
another segment takes the place of the first one; and other segments give other paths.  All valid
names are segments. -/
theorem join_parent_withFileName :
    (∀ p, Made p → '\\' ∉ p.text.toList) ∧
    (∀ p q : Path, p.parent? = some q →
      q.text.length < p.text.length ∧ q.text.utf8ByteSize < p.text.utf8ByteSize) ∧
    (∀ p : Path, (fun q? => Option.bind q? parent?)^[p.text.length + 1] (some p) = none) ∧
    (∀ name, isValidName name = true → IsSegment name) ∧
    ∀ p : Path, p.IsTidy → ∀ s t, IsSegment s → IsSegment t →
      (p.join s).fileName? = some s ∧
      (p.join s).parent? = (if p.text = "" then none else some p) ∧
      (p.join s).withFileName t = p.join t ∧
      (p.join s = p.join t → s = t) := by
  refine ⟨fun p hp => hp.backslash, fun p q => length_parent?_lt, fun p => ?_, ?_, ?_⟩
  · exact iterate_parent? _ p (by omega)
  · intro name hvalid
    exact (isPlain_of_isValidName hvalid).isSegment
  · intro p hp s t hs ht
    exact ⟨fileName?_join hs, hp.parent?_join hs, hp.withFileName_join hs t, join_inj hs ht⟩

/-- A slash at the end is lost on the way to a name and back. -/
example : ((ofText "images\\").join "vmlinuz").parent? = some ⟨"images"⟩ := by
  decide +kernel

end Path

end BootTree

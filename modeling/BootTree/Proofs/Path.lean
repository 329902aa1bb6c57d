/-
  Names at the end of path texts.

  A name that stands behind a slash or at the front of a text is the last name of that path
  (`fileName?_append`), and what the parent is can be told from what stands before it
  (`parent?_append`).  So the parent of a joined path does not depend on the segment
  (`parent?_join`): it is the path itself up to slashes at its end (`trimmed_of_around`), and what is
  joined to the empty path has none.
-/
import BootTree.Proofs.Files.Join

namespace BootTree.Path

/-- A name that is one part of a path: there is something of it, and no slash in it. -/
structure IsPart (s : String) : Prop where
  ne_empty : s ≠ ""
  slash : '/' ∉ s.toList

/-- A part that stands for itself also where backslashes become slashes. -/
structure IsSegment (s : String) : Prop extends IsPart s where
  backslash : '\\' ∉ s.toList

/-- The path without the slashes at its end. -/
def trimmed (p : Path) : Path := ⟨String.ofList p.backward.reverse⟩

/-- What stands before a segment that is joined to a path. -/
def front (p : Path) : String := if p.text = "" ∨ p.endsInSlash = true then p.text else p.text ++ "/"

/-- The parent of all that is joined to a path. -/
def around (p : Path) : Option Path :=
  match p.front.toList.reverse with
  | [] => none
  | [_] => some ⟨"/"⟩
  | _ :: before => some ⟨String.ofList before.reverse⟩

variable {p q : Path} {s : String}

/-- Before a joined segment there is nothing, or a slash. -/
theorem reverse_front (p : Path) : (p.text = "" ∧ p.front.toList.reverse = []) ∨
    (p.text ≠ "" ∧ ∃ before, p.front.toList.reverse = '/' :: before ∧
      before.dropWhile (· = '/') = p.backward) := by
  rw [front]
  by_cases hempty : p.text = ""
  · exact .inl ⟨hempty, by simp [hempty]⟩
  · refine .inr ⟨hempty, ?_⟩
    by_cases hslash : p.endsInSlash = true
    · rw [if_pos (.inr hslash)]
      rw [endsInSlash, decide_eq_true_eq, List.getLast?_eq_some_iff] at hslash
      obtain ⟨before, hbefore⟩ := hslash
      refine ⟨before.reverse, by simp [hbefore], ?_⟩
      simp [backward, hbefore]
    · rw [if_neg (by simp [hempty, hslash])]
      exact ⟨p.text.toList.reverse, by simp, rfl⟩

/-! ## The last part -/

section Part

variable (hs : IsPart s)

include hs

theorem ne_slash_of_mem_reverse : ∀ c ∈ s.toList.reverse, decide (c ≠ '/') = true := by
  intro c hc
  rw [decide_eq_true_eq]
  rintro rfl
  exact hs.slash (List.mem_reverse.mp hc)

/-- From its end, a text reads the last part first, and then what stands before it. -/
theorem backward_append (p : Path) : (Path.mk (p.front ++ s)).backward =
    s.toList.reverse ++ p.front.toList.reverse := by
  rw [backward, String.toList_append, List.reverse_append]
  obtain ⟨c, rest, hlist⟩ := List.exists_cons_of_ne_nil (l := s.toList.reverse)
    (by simpa using hs.ne_empty)
  have hc : c ≠ '/' := by simpa using ne_slash_of_mem_reverse hs c (hlist ▸ List.mem_cons_self)
  rw [hlist, List.cons_append, List.dropWhile_cons_of_neg (by simpa using hc)]

theorem fileName?_append (p : Path) : (Path.mk (p.front ++ s)).fileName? = some s := by
  have hnone : p.front.toList.reverse.takeWhile (fun c => decide (c ≠ '/')) = [] := by
    rcases reverse_front p with ⟨-, hfront⟩ | ⟨-, before, hfront, -⟩
    · rw [hfront, List.takeWhile_nil]
    · rw [hfront, List.takeWhile_cons_of_neg (by simp)]
  rw [fileName?, backward_append hs, List.takeWhile_append_of_pos (ne_slash_of_mem_reverse hs),
    hnone, List.append_nil]
  split
  · next hempty => exact absurd hempty (by simpa using hs.ne_empty)
  · rw [List.reverse_reverse, String.ofList_toList]

theorem parent?_append (p : Path) : (Path.mk (p.front ++ s)).parent? = p.around := by
  have hfront : (Path.mk (p.front ++ s)).backward.dropWhile (fun c => decide (c ≠ '/')) =
      p.front.toList.reverse := by
    rw [backward_append hs, List.dropWhile_append_of_pos (ne_slash_of_mem_reverse hs)]
    rcases reverse_front p with ⟨-, hfront⟩ | ⟨-, before, hfront, -⟩
    · rw [hfront, List.dropWhile_nil]
    · rw [hfront, List.dropWhile_cons_of_neg (by simp)]
  rw [parent?, hfront]
  rfl

end Part

/-! ## Joining -/

theorem text_join_eq (p : Path) (s : String) : (p.join s).text = p.front ++ (ofText s).text := by
  rw [join, front]
  by_cases hempty : p.text = ""
  · rw [if_pos hempty, if_pos (.inl hempty), hempty, String.empty_append]
  · rw [if_neg hempty]
    by_cases hslash : p.endsInSlash = true
    · rw [if_pos hslash, if_pos (.inr hslash)]
    · rw [if_neg hslash, if_neg (by simp [hempty, hslash])]

theorem join_eq_of_isSegment (hs : IsSegment s) (p : Path) : p.join s = ⟨p.front ++ s⟩ := by
  have htext := text_join_eq p s
  rw [text_ofText hs.backslash] at htext
  rw [← htext]

/-- The last name of a joined path is the segment. -/
theorem fileName?_join (hs : IsSegment s) : (p.join s).fileName? = some s := by
  rw [join_eq_of_isSegment hs, fileName?_append hs.toIsPart]

/-- The parent of a joined path does not depend on the segment. -/
theorem parent?_join (hs : IsSegment s) : (p.join s).parent? = p.around := by
  rw [join_eq_of_isSegment hs, parent?_append hs.toIsPart]

/-! ## Around what is joined -/

theorem around_eq_none_iff : p.around = none ↔ p.text = "" := by
  rw [around]
  rcases reverse_front p with ⟨hempty, hfront⟩ | ⟨hne, before, hfront, -⟩
  · simp [hfront, hempty]
  · rw [hfront]
    cases before <;> simp [hne]

/-- Up to slashes at the end, a path is around all that is joined to it. -/
theorem trimmed_of_around (h : p.around = some q) : q.trimmed = p.trimmed := by
  rw [trimmed, trimmed]
  rcases reverse_front p with ⟨-, hfront⟩ | ⟨-, before, hfront, hbackward⟩
  · rw [around, hfront] at h
    cases h
  · rw [around, hfront] at h
    rw [← hbackward]
    cases before with
    | nil =>
      cases h
      rfl
    | cons c rest =>
      cases h
      rw [backward, String.toList_ofList, List.reverse_reverse]

theorem exists_around (h : p.text ≠ "") : ∃ q, p.around = some q ∧ q.trimmed = p.trimmed := by
  cases haround : p.around with
  | none => exact absurd (around_eq_none_iff.mp haround) h
  | some q => exact ⟨q, rfl, trimmed_of_around haround⟩

/-- The root, and any other path that does not end in a slash, is itself around all that is joined to
it. -/
theorem around_eq_self (hne : p.text ≠ "") (hslash : p.text = "/" ∨ p.endsInSlash = false) :
    p.around = some p := by
  obtain ⟨text⟩ := p
  rcases hslash with rfl | hslash
  · decide
  · have hfront : front ⟨text⟩ = text ++ "/" := by
      rw [front, if_neg (by simpa [hslash] using hne)]
    obtain ⟨c, rest, hlist⟩ := List.exists_cons_of_ne_nil (l := text.toList.reverse)
      (by simpa using hne)
    have htext : String.ofList (c :: rest).reverse = text := by
      rw [← hlist, List.reverse_reverse, String.ofList_toList]
    rw [around, hfront, String.toList_append, List.reverse_append, hlist]
    exact congrArg (fun s => some (Path.mk s)) htext

/-! ## Parents and names -/

/-- A parent is never empty. -/
theorem text_parent?_ne (h : p.parent? = some q) : q.text ≠ "" := by
  rw [parent?] at h
  split at h
  · cases h
  · cases h
    decide
  · next first before hmore _ =>
    cases h
    simpa using hmore

/-- The last name of a path without backslashes is one part of it. -/
theorem isSegment_of_fileName? (hp : '\\' ∉ p.text.toList) (h : p.fileName? = some s) :
    IsSegment s := by
  rw [fileName?] at h
  split at h
  · cases h
  · next hne =>
    cases h
    have hmem : ∀ c ∈ p.backward.takeWhile (fun c => decide (c ≠ '/')), c ≠ '/' ∧ c ≠ '\\' := by
      intro c hc
      refine ⟨by simpa using List.all_eq_true.mp List.all_takeWhile c hc, ?_⟩
      rintro rfl
      have hbackward := (List.dropWhile_sublist _).subset ((List.takeWhile_sublist _).subset hc)
      exact hp (List.mem_reverse.mp hbackward)
    refine { ne_empty := ?_, slash := ?_, backslash := ?_ }
    · simpa using hne
    · simpa using fun hc => (hmem _ hc).1 rfl
    · simpa using fun hc => (hmem _ hc).2 rfl

end BootTree.Path

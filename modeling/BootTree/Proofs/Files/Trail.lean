/-
  Cutting a path text and putting it together again.

  `Trail.ofText` cuts a text at its slashes and `Trail.textOf` joins segments with slashes.  Joined
  segments are cut where they were joined (`ofText_textOf`), so a sibling of a file can be followed
  segment by segment: its text is cut into the segments of the parent and the new name
  (`ofText_withFileName`).  This is what tells a file and its temporary file apart.
-/
import BootTree.Files.Trail

namespace BootTree

/-- What stands between two places where a list is cut has no such element. -/
theorem not_mem_of_mem_splitOn {c : Char} {cs part : List Char} (h : part ∈ cs.splitOn c) :
    c ∉ part := by
  induction cs generalizing part with
  | nil =>
    rw [List.splitOn_nil, List.mem_singleton] at h
    rw [h]
    exact List.not_mem_nil
  | cons d rest ih =>
    rw [List.splitOn_cons_eq_if_modifyHead] at h
    split at h
    · rcases List.mem_cons.mp h with rfl | hrest
      · exact List.not_mem_nil
      · exact ih hrest
    · next hd =>
      have hne : d ≠ c := by simpa using hd
      cases hsplit : rest.splitOn c with
      | nil => exact absurd hsplit (List.splitOn_ne_nil _ _)
      | cons first others =>
        rw [hsplit, List.modifyHead_cons] at h
        rw [hsplit] at ih
        rcases List.mem_cons.mp h with rfl | hrest
        · have hfirst : c ∉ first := ih List.mem_cons_self
          simp [hfirst, Ne.symm hne]
        · exact ih (List.mem_cons_of_mem _ hrest)

namespace Trail

/-! ## Cutting -/

theorem cut_eq_splitOn (cs : List Char) : cut cs = cs.splitOn '/' := by
  induction cs with
  | nil => rfl
  | cons c rest ih =>
    rw [cut, ih, List.splitOn_cons_eq_if_modifyHead]
    by_cases hc : c = '/'
    · simp [hc]
    · rw [if_neg hc, if_neg (by simpa using hc)]
      cases h : rest.splitOn '/' with
      | nil => exact absurd h (List.splitOn_ne_nil _ _)
      | cons segment segments => rfl

theorem backward_ne_nil (s : String) : (ofText s).backward ≠ [] := by
  have key : ∀ cs, ((cut cs).map String.ofList).reverse ≠ [] := by
    intro cs
    simp [cut_eq_splitOn, List.splitOn_ne_nil]
  unfold ofText
  split
  · exact key _
  · exact key _

/-- No segment has a slash in it. -/
theorem slash_not_mem_of_mem_cut {cs segment : List Char} (h : segment ∈ cut cs) :
    '/' ∉ segment := by
  rw [cut_eq_splitOn] at h
  exact not_mem_of_mem_splitOn h

/-- The first segment of a text that is not empty and does not start with a slash is not empty. -/
theorem head?_cut_ne_nil {c : Char} {rest : List Char} (hc : c ≠ '/') :
    (cut (c :: rest)).head? ≠ some [] := by
  rw [cut, if_neg hc]
  split <;> simp

/-- The segments of a text have no slashes. -/
theorem slash_not_mem_of_mem_backward {s segment : String} (h : segment ∈ (ofText s).backward) :
    '/' ∉ segment.toList := by
  have key : ∀ cs : List Char, segment ∈ ((cut cs).map String.ofList).reverse →
      '/' ∉ segment.toList := by
    intro cs hm
    obtain ⟨l, hl, rfl⟩ := List.mem_map.mp (List.mem_reverse.mp hm)
    simpa using slash_not_mem_of_mem_cut hl
  unfold ofText at h
  split at h
  · exact key _ h
  · exact key _ h

/-- A relative path with more than one segment starts with a segment that is not empty: otherwise
its text would start with a slash. -/
theorem getLast?_backward_ne {s : String} (hr : (ofText s).rooted = false)
    (hl : 2 ≤ (ofText s).backward.length) : (ofText s).backward.getLast? ≠ some "" := by
  revert hr hl
  unfold ofText
  split
  · intro hr
    exact absurd hr (by simp)
  · next cs hcs =>
    intro _ hl
    cases h : s.toList with
    | nil => simp [h, cut] at hl
    | cons c rest =>
      have hc : c ≠ '/' := fun he => hcs rest (by rw [h, he])
      have hne : (cut (c :: rest)).head? ≠ some [] := head?_cut_ne_nil hc
      rw [List.getLast?_reverse, List.head?_map]
      intro he
      obtain ⟨l, hl, hnil⟩ := Option.map_eq_some_iff.mp he
      have : l = [] := by simpa using congrArg String.toList hnil
      exact hne (this ▸ hl)

/-! ## Joining and cutting -/

theorem toList_joinText (segments : List String) :
    (joinText segments).toList = ['/'].intercalate (segments.map String.toList) := by
  simp [joinText, String.toList_intercalate]

/-- Joined segments are cut where they were joined. -/
theorem cut_joinText {segments : List String} (hne : segments ≠ [])
    (hs : ∀ segment ∈ segments, '/' ∉ segment.toList) :
    (cut (joinText segments).toList).map String.ofList = segments := by
  rw [cut_eq_splitOn, toList_joinText, List.splitOn_intercalate]
  · simp [Function.comp_def]
  · simpa using hs
  · simpa using hne

theorem head?_joinText_ne {first : String} {rest : List String} (hf : first ≠ "")
    (hs : '/' ∉ first.toList) : (joinText (first :: rest)).toList.head? ≠ some '/' := by
  rw [toList_joinText]
  have hl : first.toList ≠ [] := by simpa using hf
  obtain ⟨c, cs, hc⟩ := List.exists_cons_of_ne_nil hl
  have hcne : c ≠ '/' := by
    rintro rfl
    exact hs (by simp [hc])
  cases rest with
  | nil => simpa [hc] using hcne
  | cons second rest => simpa [hc, List.intercalate_cons_cons] using hcne

/-- The text of a trail is cut into the trail again.  A relative one must not start with an empty
segment, since its text would start with a slash. -/
theorem ofText_textOf {rooted : Bool} {backward : List String} (hne : backward ≠ [])
    (hs : ∀ segment ∈ backward, '/' ∉ segment.toList)
    (hf : rooted = false → backward.getLast? ≠ some "") :
    ofText (textOf rooted backward) = ⟨rooted, backward⟩ := by
  have hcut : (cut (joinText backward.reverse).toList).map String.ofList = backward.reverse :=
    cut_joinText (by simpa using hne) (by simpa using hs)
  cases rooted with
  | true =>
    have ht : (textOf true backward).toList = '/' :: (joinText backward.reverse).toList := by
      simp [textOf]
    rw [ofText, ht]
    simp [hcut]
  | false =>
    have ht : (textOf false backward).toList = (joinText backward.reverse).toList := by
      simp [textOf]
    obtain ⟨first, rest, hrev⟩ := List.exists_cons_of_ne_nil (l := backward.reverse) (by simpa)
    have hmem : first ∈ backward := by
      rw [← List.mem_reverse, hrev]
      exact List.mem_cons_self
    have hfirst : first ≠ "" := by
      rintro rfl
      have := hf rfl
      rw [← List.head?_reverse, hrev] at this
      simp at this
    have hhead : (joinText (first :: rest)).toList.head? ≠ some '/' :=
      head?_joinText_ne hfirst (hs first hmem)
    rw [← hrev] at hhead
    rw [ofText, ht]
    split
    · next tail hcons => simp [hcons] at hhead
    · simp [hcut]

/-! ## Siblings -/

/-- A name that stands for itself: not empty, and neither `.` nor `..`. -/
def IsProper (name : String) : Prop := name ≠ "" ∧ name ≠ "." ∧ name ≠ ".."

theorem dropIdle_suffix (rooted : Bool) : ∀ l, dropIdle rooted l <:+ l
  | [] => by simp [dropIdle]
  | [s] => by
    simp only [dropIdle]
    split
    · exact List.nil_suffix
    · exact List.suffix_refl _
  | s :: t :: rest => by
    simp only [dropIdle]
    split
    · exact (dropIdle_suffix rooted (t :: rest)).trans (List.suffix_cons s _)
    · exact List.suffix_refl _

/-- What is left after dropping starts with a segment that is not empty. -/
theorem head_dropIdle_ne {rooted : Bool} {s : String} {rest : List String} :
    ∀ {l}, dropIdle rooted l = s :: rest → s ≠ ""
  | [], h => by simp [dropIdle] at h
  | [t], h => by
    simp only [dropIdle] at h
    split at h
    · simp at h
    · next ht =>
      rintro rfl
      simp_all
  | t :: u :: l, h => by
    simp only [dropIdle] at h
    split at h
    · exact head_dropIdle_ne h
    · next ht =>
      rintro rfl
      simp_all

theorem dropIdle_of_isProper {name : String} (hn : IsProper name) (rooted : Bool)
    (before : List String) : dropIdle rooted (name :: before) = name :: before := by
  cases before with
  | nil => simp [dropIdle, hn.1, hn.2.1]
  | cons s rest => simp [dropIdle, hn.1, hn.2.1]

section Named

variable {trail : Trail} {name : String} {before : List String}

theorem fileName?_eq (h : trail.backward = name :: before) (hn : IsProper name) :
    trail.fileName? = some name := by
  simp [fileName?, h, dropIdle_of_isProper hn, hn.2.1, hn.2.2]

theorem parent?_eq (h : trail.backward = name :: before) (hn : IsProper name) :
    trail.parent? = some ⟨trail.rooted, dropIdle trail.rooted before⟩ := by
  simp [parent?, h, dropIdle_of_isProper hn]

end Named

/-- Appending a name to the text of a parent joins it on as one more segment. -/
theorem append_textOf {rooted : Bool} {l : List String} (n : String)
    (hhead : ∀ s rest, l = s :: rest → s ≠ "" ∧ '/' ∉ s.toList) :
    append (textOf rooted l) n = textOf rooted (n :: l) := by
  cases l with
  | nil => cases rooted <;> simp [append, textOf, joinText]
  | cons s rest =>
    obtain ⟨hne, hs⟩ := hhead s rest rfl
    have hjoin : joinText (n :: s :: rest).reverse = joinText (s :: rest).reverse ++ "/" ++ n := by
      rw [List.reverse_cons, joinText, joinText,
        String.intercalate_append_of_ne_nil (by simp) (by simp), String.intercalate_singleton]
    -- the text of the parent ends in its last segment, so not in a slash
    obtain ⟨front, hfront⟩ : ∃ front, (textOf rooted (s :: rest)).toList = front ++ s.toList := by
      rw [textOf, List.reverse_cons, joinText]
      cases rest with
      | nil => exact ⟨_, by rw [List.reverse_nil, List.nil_append, String.intercalate_singleton,
          String.toList_append]⟩
      | cons t rest =>
        rw [String.intercalate_append_of_ne_nil (by simp) (by simp),
          String.intercalate_singleton, ← String.append_assoc, String.toList_append]
        exact ⟨_, rfl⟩
    have hsne : s.toList ≠ [] := by simpa using hne
    have hlast : (textOf rooted (s :: rest)).toList.getLast? ≠ some '/' := by
      rw [hfront, List.getLast?_append, List.getLast?_eq_some_getLast hsne, Option.some_or]
      exact fun he => hs (Option.some.inj he ▸ List.getLast_mem hsne)
    have hempty : textOf rooted (s :: rest) ≠ "" := by
      intro he
      rw [he] at hfront
      simp_all
    rw [append, if_neg (by simp [hempty, hlast]), textOf, textOf, hjoin]
    simp only [String.append_assoc]

/-- The text of a sibling is cut into the segments of the parent and the new name. -/
theorem ofText_withFileName {s name n : String} {before : List String}
    (h : (ofText s).backward = name :: before) (hn : IsProper name) (hne : n ≠ "")
    (hslash : '/' ∉ n.toList) :
    ofText ((ofText s).withFileName n)
      = ⟨(ofText s).rooted, n :: dropIdle (ofText s).rooted before⟩ := by
  have hsuffix := dropIdle_suffix (ofText s).rooted before
  have hplain : ∀ segment ∈ before, '/' ∉ segment.toList := fun segment hm =>
    slash_not_mem_of_mem_backward (s := s) (by rw [h]; exact List.mem_cons_of_mem _ hm)
  have hhead : ∀ t rest, dropIdle (ofText s).rooted before = t :: rest →
      t ≠ "" ∧ '/' ∉ t.toList := fun t rest he =>
    ⟨head_dropIdle_ne he, hplain t (hsuffix.subset (by rw [he]; exact List.mem_cons_self))⟩
  rw [withFileName, fileName?_eq h hn, parent?_eq h hn]
  show ofText (append (textOf _ _) n) = _
  rw [append_textOf n hhead]
  refine ofText_textOf (by simp) ?_ ?_
  · intro segment hm
    rcases List.mem_cons.mp hm with rfl | hm
    · exact hslash
    · exact hplain segment (hsuffix.subset hm)
  · intro hr
    cases hd : dropIdle (ofText s).rooted before with
    | nil => simpa using hne
    | cons t rest =>
      -- the parent keeps the first segment, and a relative path starts with a proper one
      obtain ⟨front, hfront⟩ := hsuffix
      have hlast : (t :: rest).getLast? = before.getLast? := by
        rw [← hfront, hd, List.getLast?_append, List.getLast?_eq_some_getLast (by simp),
          Option.some_or]
      have hbefore : before ≠ [] := by
        rintro rfl
        simp [dropIdle] at hd
      rw [List.getLast?_cons_cons, hlast, ← List.getLast?_cons_of_ne_nil hbefore, ← h]
      exact getLast?_backward_ne hr (by
        rw [h, List.length_cons]
        have := List.length_pos_iff.mpr hbefore
        omega)

end Trail

end BootTree

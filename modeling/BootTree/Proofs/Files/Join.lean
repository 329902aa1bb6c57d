/-
  Where joined paths lead.

  A path text is followed part by part, where its parts are what stands between its slashes
  (`place_eq`).  Joining a segment to a path therefore goes on from the place of the path with the
  parts of the segment, whether or not a slash had to be put in (`place_join`), and a proper name
  goes one place further down (`place_join_of_isPlain`).

  Backslashes become slashes in a path but are characters like any other in a native text, so the
  last part of a native text and that of its path can differ.  They differ only by what stands before
  the last backslash (`exists_lastPart`).
-/
import BootTree.Proofs.Files.Growth

namespace BootTree

namespace Trail

/-! ## Parts -/

/-- What stands between the slashes of a text. -/
def parts (s : String) : List String := (cut s.toList).map String.ofList

theorem cut_ne_nil (cs : List Char) : cut cs ≠ [] := by
  rw [cut_eq_splitOn]
  exact List.splitOn_ne_nil _ _

/-- Texts with a slash between them are cut on their own. -/
theorem cut_append (a b : List Char) : cut (a ++ '/' :: b) = cut a ++ cut b := by
  induction a with
  | nil => rfl
  | cons c rest ih =>
    rw [List.cons_append, cut, cut, ih]
    by_cases hc : c = '/'
    · rw [if_pos hc, if_pos hc]
      rfl
    · rw [if_neg hc, if_neg hc]
      cases hcut : cut rest with
      | nil => exact absurd hcut (cut_ne_nil rest)
      | cons segment segments => rfl

theorem cut_of_not_mem {cs : List Char} (h : '/' ∉ cs) : cut cs = [cs] := by
  rw [cut_eq_splitOn]
  exact List.splitOn_eq_singleton h

theorem parts_append (s u : String) : parts (s ++ "/" ++ u) = parts s ++ parts u := by
  have hlist : (s ++ "/" ++ u).toList = s.toList ++ '/' :: u.toList := by simp
  rw [parts, hlist, cut_append, List.map_append]
  rfl

theorem parts_of_not_mem {s : String} (h : '/' ∉ s.toList) : parts s = [s] := by
  rw [parts, cut_of_not_mem h]
  simp

theorem parts_slash (s : String) : parts (s ++ "/") = parts s ++ [""] := by
  have happend := parts_append s ""
  rwa [String.append_empty] at happend

/-- A text with a slash at its front is absolute, and its first part is empty; the segments of any
other text are its parts. -/
theorem ofText_cases (s : String) :
    (∃ rest, s.toList = '/' :: rest ∧ ofText s = ⟨true, ((cut rest).map String.ofList).reverse⟩) ∨
    (s.toList.head? ≠ some '/' ∧ ofText s = ⟨false, (parts s).reverse⟩) := by
  rw [ofText]
  split
  · next rest hs => exact .inl ⟨rest, hs, rfl⟩
  · next hs =>
    refine .inr ⟨fun hhead => ?_, rfl⟩
    obtain ⟨rest, hrest⟩ := List.head?_eq_some_iff.mp hhead
    exact hs rest hrest

theorem parts_eq (s : String) : parts s =
    (if s.toList.head? = some '/' then [""] else []) ++ (ofText s).segments := by
  rcases ofText_cases s with ⟨rest, hs, htrail⟩ | ⟨hhead, htrail⟩
  · rw [htrail, parts, hs]
    simp [cut, segments]
  · rw [htrail]
    simp [hhead, segments]

theorem rooted_eq (s : String) : (ofText s).rooted = decide (s.toList.head? = some '/') := by
  rcases ofText_cases s with ⟨rest, hs, htrail⟩ | ⟨hhead, htrail⟩
  · simp [htrail, hs]
  · simp [htrail, hhead]

/-- The last part of a text is its last segment. -/
theorem getLast?_parts (s : String) : (parts s).getLast? = (ofText s).backward.head? := by
  rw [parts_eq, segments]
  cases hb : (ofText s).backward with
  | nil => exact absurd hb (backward_ne_nil s)
  | cons last before => simp

/-- A text ends in its last part, which has no slash. -/
theorem exists_lastPart (s : String) : ∃ last, (parts s).getLast? = some last ∧
    '/' ∉ last.toList ∧ (s = last ∨ ∃ before, s = before ++ "/" ++ last) := by
  by_cases hslash : '/' ∈ s.toList
  · -- the last slash is the first one from behind
    obtain ⟨behind, before, hsplit, hlast⟩ :=
      List.eq_append_cons_of_mem (List.mem_reverse.mpr hslash)
    have hs : s = String.ofList before.reverse ++ "/" ++ String.ofList behind.reverse := by
      rw [← String.toList_inj, ← List.reverse_inj, hsplit]
      simp
    have hplain : '/' ∉ (String.ofList behind.reverse).toList := by simpa using hlast
    refine ⟨_, ?_, hplain, .inr ⟨_, hs⟩⟩
    rw [hs, parts_append, parts_of_not_mem hplain, List.getLast?_concat]
  · exact ⟨s, by rw [parts_of_not_mem hslash, List.getLast?_singleton], hslash, .inl rfl⟩

theorem mem_of_mem_cut {cs segment : List Char} {c : Char} (h : segment ∈ cut cs)
    (hc : c ∈ segment) : c ∈ cs := by
  induction cs generalizing segment with
  | nil =>
    rw [cut, List.mem_singleton] at h
    rwa [h] at hc
  | cons first rest ih =>
    rw [cut] at h
    split at h
    · rcases List.mem_cons.mp h with rfl | h
      · cases hc
      · exact List.mem_cons_of_mem _ (ih h hc)
    · split at h
      · next head tail hcut =>
        rcases List.mem_cons.mp h with rfl | h
        · rcases List.mem_cons.mp hc with rfl | hc
          · exact List.mem_cons_self
          · exact List.mem_cons_of_mem _ (ih (hcut ▸ List.mem_cons_self) hc)
        · exact List.mem_cons_of_mem _ (ih (hcut ▸ List.mem_cons_of_mem _ h) hc)
      · rw [List.mem_singleton.mp h] at hc
        rw [List.mem_singleton.mp hc]
        exact List.mem_cons_self

theorem mem_of_mem_parts {s part : String} {c : Char} (h : part ∈ parts s) (hc : c ∈ part.toList) :
    c ∈ s.toList := by
  obtain ⟨segment, hsegment, rfl⟩ := List.mem_map.mp h
  rw [String.toList_ofList] at hc
  exact mem_of_mem_cut hsegment hc

end Trail

/-! ## Normalized texts -/

namespace Path

/-- A name that is one part of a path and stands for itself, natively and in a path. -/
structure IsPlain (name : String) : Prop where
  proper : Trail.IsProper name
  slash : '/' ∉ name.toList
  backslash : '\\' ∉ name.toList

theorem text_ofText_append (a b : String) :
    (ofText (a ++ "/" ++ b)).text = (ofText a).text ++ "/" ++ (ofText b).text := by
  rw [← String.toList_inj]
  simp [ofText, String.toList_map]

/-- Without backslashes a text is its path. -/
theorem text_ofText {s : String} (h : '\\' ∉ s.toList) : (ofText s).text = s := by
  have hkeep : ∀ c ∈ s.toList, (if c = '\\' then '/' else c) = c := by
    intro c hc
    rw [if_neg]
    rintro rfl
    exact h hc
  rw [← String.toList_inj, ofText, String.toList_map, List.map_congr_left hkeep, List.map_id']

theorem backslash_not_mem (s : String) : '\\' ∉ (ofText s).text.toList := by
  rw [ofText, String.toList_map, List.mem_map]
  rintro ⟨c, -, hc⟩
  split at hc
  · cases hc
  · next hne => exact hne hc

end Path

/-! ## Places -/

namespace FileTree

variable {t : FileTree}

/-- A text is followed part by part from the root or the base. -/
theorem place_eq (t : FileTree) (s : String) : t.place s =
    walk (if s.toList.head? = some '/' then [] else t.base) (Trail.parts s) := by
  rw [place, origin, Trail.rooted_eq, Trail.parts_eq, walk_append]
  by_cases hhead : s.toList.head? = some '/'
  · simp [hhead, walk]
  · simp [hhead, walk]

/-- A slash at the end leads nowhere. -/
theorem place_slash {s : String} (h : s ≠ "") : t.place (s ++ "/") = t.place s := by
  have hne : s.toList ≠ [] := by simpa using h
  have hhead : (s ++ "/").toList.head? = s.toList.head? := by
    rw [String.toList_append, List.head?_append_of_ne_nil _ hne]
  rw [place_eq, place_eq, hhead, Trail.parts_slash, walk_append]
  simp [walk]

/-- What follows a slash is followed from where the slash leads. -/
theorem place_append (s u : String) :
    t.place (s ++ "/" ++ u) = walk (t.place (s ++ "/")) (Trail.parts u) := by
  have hne : (s ++ "/").toList ≠ [] := by simp
  have hhead : (s ++ "/" ++ u).toList.head? = (s ++ "/").toList.head? := by
    rw [String.toList_append, List.head?_append_of_ne_nil _ hne]
  rw [place_eq, place_eq, hhead, Trail.parts_append, Trail.parts_slash, walk_append, walk_append]
  simp [walk]

/-- A joined segment is followed from the place of the path.  Joined to the empty path, it must not
start with a slash. -/
theorem place_join {p : Path} {segment : String}
    (h : p.text = "" → (Path.ofText segment).text.toList.head? ≠ some '/') :
    t.place (p.join segment).text =
      walk (t.place p.text) (Trail.parts (Path.ofText segment).text) := by
  rw [Path.join]
  split
  · next hempty =>
    have hbase : t.place "" = t.base := by simp [place_eq, Trail.parts, Trail.cut, walk]
    rw [place_eq, if_neg (h hempty), hempty, hbase]
  · next hne =>
    split
    · next hslash =>
      rw [Path.endsInSlash, decide_eq_true_eq, List.getLast?_eq_some_iff] at hslash
      obtain ⟨before, hbefore⟩ := hslash
      have htext : p.text = String.ofList before ++ "/" := by
        rw [← String.toList_inj, hbefore]
        simp
      rw [htext]
      exact place_append _ _
    · rw [← place_slash hne]
      exact place_append _ _

/-- A plain name that is joined leads one place further down. -/
theorem place_join_of_isPlain {p : Path} {name : String} (h : Path.IsPlain name) :
    t.place (p.join name).text = name :: t.place p.text := by
  have htext : (Path.ofText name).text = name := Path.text_ofText h.backslash
  rw [place_join, htext, Trail.parts_of_not_mem h.slash, walk_isProper h.proper]
  intro _ hhead
  rw [htext] at hhead
  exact h.slash (List.mem_of_mem_head? hhead)

end FileTree

/-- A path that something proper is joined to is not empty. -/
theorem Path.join_ne_empty {p : Path} {name : String} (h : IsPlain name) :
    (p.join name).text ≠ "" := by
  have hname : (ofText name).text.toList ≠ [] := by
    rw [text_ofText h.backslash]
    simpa using h.proper.1
  intro hempty
  have hlist := congrArg String.toList hempty
  rw [join] at hlist
  split at hlist
  · exact hname (by simpa using hlist)
  · split at hlist <;> simp_all

end BootTree

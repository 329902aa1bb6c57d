/-
  Where directories are made for a file.

  A parent of a path is its trail without some of the last segments, so it leads to a place that the
  path goes through (`place_text`, `Through`).  Making the directory of a file with its parents makes
  directories at such places only (`through_of_writeAtomic_ok`).  Where the path can be followed all
  of them are there (`get?_of_through`).
-/
import BootTree.Proofs.Files.Atomic

namespace BootTree

/-! ## Parents -/

namespace Trail

variable {s : String} {a b : Trail}

/-- A trail that stops on the way of a path text: it has the first segments of the text, and does not
end in an empty one. -/
structure StopsOn (s : String) (a : Trail) : Prop where
  rooted : a.rooted = (ofText s).rooted
  suffix : a.backward <:+ (ofText s).backward
  named : a.backward.head? ≠ some ""

theorem head?_dropIdle (rooted : Bool) (l : List String) : (dropIdle rooted l).head? ≠ some "" := by
  cases hdrop : dropIdle rooted l with
  | nil => exact nofun
  | cons first rest =>
    rw [List.head?_cons]
    exact fun he => head_dropIdle_ne hdrop (Option.some.inj he)

/-- The parent of a trail is shorter. -/
theorem parent?_eq_some (h : a.parent? = some b) : ∃ last before,
    dropIdle a.rooted a.backward = last :: before ∧ b = ⟨a.rooted, dropIdle a.rooted before⟩ := by
  rw [parent?] at h
  split at h
  · cases h
  · next last before hdrop => exact ⟨last, before, hdrop, (Option.some.inj h).symm⟩

theorem stopsOn_parent? (hrooted : a.rooted = (ofText s).rooted)
    (hsuffix : a.backward <:+ (ofText s).backward) (h : a.parent? = some b) :
    StopsOn s b ∧ b.backward.length < a.backward.length := by
  obtain ⟨last, before, hdrop, rfl⟩ := parent?_eq_some h
  have hfirst : last :: before <:+ a.backward := hdrop ▸ dropIdle_suffix a.rooted a.backward
  have hbefore : before <:+ a.backward := (List.suffix_cons last before).trans hfirst
  have hparent : dropIdle a.rooted before <:+ before := dropIdle_suffix a.rooted before
  refine ⟨⟨hrooted, (hparent.trans hbefore).trans hsuffix, head?_dropIdle _ _⟩, ?_⟩
  have hlength := hfirst.length_le
  have hlength' := hparent.length_le
  rw [List.length_cons] at hlength
  show (dropIdle a.rooted before).length < a.backward.length
  omega

theorem stopsOn_of_mem_ancestorsFrom {fuel : Nat} (hrooted : a.rooted = (ofText s).rooted)
    (hsuffix : a.backward <:+ (ofText s).backward) (h : b ∈ ancestorsFrom fuel a) :
    StopsOn s b ∧ b.backward.length < a.backward.length := by
  induction fuel generalizing a with
  | zero => cases h
  | succ fuel ih =>
    rw [ancestorsFrom] at h
    split at h
    · cases h
    · next parent hparent =>
      obtain ⟨hstops, hshorter⟩ := stopsOn_parent? hrooted hsuffix hparent
      rcases List.mem_cons.mp h with rfl | h
      · exact ⟨hstops, hshorter⟩
      · obtain ⟨hstops', hshorter'⟩ := ih hstops.rooted hstops.suffix h
        exact ⟨hstops', Nat.lt_trans hshorter' hshorter⟩

/-- The text of a trail that stops on the way is cut into the trail again, if there is anything of
it. -/
theorem StopsOn.ofText_text (h : StopsOn s a) (hne : a.backward ≠ []) : ofText a.text = a := by
  refine ofText_textOf hne (fun segment hmem => ?_) fun hrelative => ?_
  · exact slash_not_mem_of_mem_backward (h.suffix.subset hmem)
  · obtain ⟨front, hfront⟩ := h.suffix
    have hlast : a.backward.getLast? = (ofText s).backward.getLast? := by
      rw [← hfront, List.getLast?_append_of_ne_nil _ hne]
    by_cases hlength : 2 ≤ (ofText s).backward.length
    · rw [hlast]
      exact getLast?_backward_ne (h.rooted.symm.trans hrelative) hlength
    · -- the text has one segment only, and it is not empty
      have hone : a.backward.length ≤ (ofText s).backward.length := h.suffix.length_le
      obtain ⟨x, hx⟩ : ∃ x, a.backward = [x] := by
        rw [← List.length_eq_one_iff]
        have hpos := List.length_pos_iff.mpr hne
        omega
      have hnamed := h.named
      rw [hx] at hnamed ⊢
      exact hnamed

/-- A trail that stops on the way leads to the place that its segments lead to. -/
theorem StopsOn.place_text (h : StopsOn s a) (t : FileTree) :
    t.place a.text = FileTree.walk (t.origin (ofText s)) a.segments := by
  by_cases hne : a.backward = []
  · have hsegments : a.segments = [] := by rw [segments, hne, List.reverse_nil]
    rw [hsegments, text, hne, FileTree.origin, ← h.rooted]
    cases a.rooted
    · simp [FileTree.place, FileTree.origin, textOf, joinText, ofText, cut, segments, FileTree.walk]
    · simp [FileTree.place, FileTree.origin, textOf, joinText, ofText, cut, segments, FileTree.walk]
  · rw [FileTree.place, h.ofText_text hne, FileTree.origin, FileTree.origin, h.rooted]

end Trail

/-! ## Directories on the way -/

variable {t t' : FileTree} {p : Path} {content : ByteArray} {text : String} {q : Place}

/-- A path goes through a place before its last segment. -/
def FileTree.Through (t : FileTree) (text : String) (q : Place) : Prop :=
  ∃ front back, (Trail.ofText text).segments = front ++ back ∧ back ≠ [] ∧
    q = walk (t.origin (Trail.ofText text)) front

theorem FileTree.through_congr (hbase : t'.base = t.base) : t'.Through text q ↔ t.Through text q := by
  rw [Through, Through, origin, origin, hbase]

theorem Trail.StopsOn.through {a : Trail} (h : Trail.StopsOn text a)
    (hshorter : a.backward.length < (Trail.ofText text).backward.length) :
    t.Through text (t.place a.text) := by
  obtain ⟨front, hfront⟩ := h.suffix
  refine ⟨a.segments, front.reverse, ?_, ?_, h.place_text t⟩
  · rw [Trail.segments, Trail.segments, ← hfront, List.reverse_append]
  · intro hempty
    rw [List.reverse_eq_nil_iff] at hempty
    rw [← hfront, hempty, List.nil_append] at hshorter
    exact absurd hshorter (Nat.lt_irrefl _)

/-- A path that can be followed goes through directories. -/
theorem FileTree.get?_of_through (h : t.locate text = .ok (t.place text)) (hq : t.Through text q) :
    t.get? q = some .directory := by
  obtain ⟨front, back, hsplit, hne, rfl⟩ := hq
  obtain ⟨checked, -, hfollow⟩ := bind_eq_ok.mp h
  dsimp only at hfollow
  rw [hsplit, follow_append] at hfollow
  obtain ⟨r, hfront, hback⟩ := bind_eq_ok.mp hfollow
  rw [← eq_walk_of_follow hfront]
  obtain ⟨segment, rest, rfl⟩ := List.exists_cons_of_ne_nil hne
  exact get?_of_follow_cons hback

/-- A directory that is made is the one that was to be made. -/
theorem eq_place_of_makeDirectory (h : t.makeDirectory text = .ok t')
    (hnone : t.get? q ≠ some .directory) (hmade : t'.get? q = some .directory) :
    q = t.place text := by
  obtain ⟨name, around, hnames, hfree, rfl⟩ := FileTree.makeDirectory_eq_ok h
  have hmay : t.MayPut name around .directory := ⟨hnames.around, fun e he => by simp_all⟩
  rw [FileTree.get?_put hmay] at hmade
  split at hmade
  · next hq => rw [hq, hnames.place]
  · exact absurd hmade hnone

/-- Making a directory with its parents makes no others. -/
theorem eq_place_of_makeWithParents {ancestors : List Trail} (hnone : t.get? q ≠ some .directory)
    (hmade : (makeWithParents text ancestors t).2.get? q = some .directory) :
    q = t.place text ∨ ∃ a ∈ ancestors, q = t.place a.text := by
  induction ancestors generalizing text t with
  | nil =>
    rw [makeWithParents] at hmade
    dsimp only at hmade
    split at hmade
    · next t' h => exact .inl (eq_place_of_makeDirectory h hnone hmade)
    · split at hmade
      · exact absurd hmade hnone
      · exact absurd hmade hnone
  | cons parent ancestors ih =>
    rw [makeWithParents] at hmade
    dsimp only at hmade
    split at hmade
    · next t' h => exact .inl (eq_place_of_makeDirectory h hnone hmade)
    · -- the parents are made first
      rcases hrun : (if parent.text = "" then ((.ok (), t) : Except Cause Unit × FileTree)
        else makeWithParents parent.text ancestors t) with ⟨r, t₁⟩
      have hadds : AddsDirectories t t₁ := by
        split at hrun
        · cases hrun
          exact .refl t
        · have := makeWithParents_adds parent.text ancestors t
          rwa [hrun] at this
      have hparents : t₁.get? q = some .directory →
          ∃ a ∈ parent :: ancestors, q = t.place a.text := by
        intro hmade₁
        split at hrun
        · cases hrun
          exact absurd hmade₁ hnone
        · rw [show t₁ = (makeWithParents parent.text ancestors t).2 by rw [hrun]] at hmade₁
          rcases ih hnone hmade₁ with hq | ⟨a, ha, hq⟩
          · exact ⟨parent, List.mem_cons_self, hq⟩
          · exact ⟨a, List.mem_cons_of_mem _ ha, hq⟩
      rw [hrun] at hmade
      by_cases hmade₁ : t₁.get? q = some .directory
      · exact .inr (hparents hmade₁)
      · refine .inl ?_
        rw [← FileTree.place_congr hadds.base]
        cases r with
        | error cause => exact absurd hmade hmade₁
        | ok u =>
          dsimp only at hmade
          split at hmade
          · next t₂ h => exact eq_place_of_makeDirectory h hmade₁ hmade
          · split at hmade
            · exact absurd hmade hmade₁
            · exact absurd hmade hmade₁
    · split at hmade
      · exact absurd hmade hnone
      · exact absurd hmade hnone

/-- The directories that are made for the parent of a path are on the way of the path. -/
theorem through_of_makeDirectories {parent : Trail}
    (hparent : (Trail.ofText text).parent? = some parent) (hnone : t.get? q ≠ some .directory)
    (hmade : (makeDirectories parent.text t).2.get? q = some .directory) : t.Through text q := by
  obtain ⟨hstops, hshorter⟩ := Trail.stopsOn_parent? rfl (List.suffix_refl _) hparent
  rw [makeDirectories] at hmade
  split at hmade
  · exact absurd hmade hnone
  · rw [Change.mapError_snd] at hmade
    rcases eq_place_of_makeWithParents hnone hmade with rfl | ⟨a, ha, rfl⟩
    · exact hstops.through hshorter
    · by_cases hne : parent.backward = []
      · -- the root has no parents
        have hroot : parent.text = "/" ∨ parent.text = "" := by
          rw [Trail.text, hne]
          cases parent.rooted
          · exact .inr rfl
          · exact .inl rfl
        have hnoAncestors : (Trail.ofText parent.text).ancestors = [] := by
          rcases hroot with hroot | hroot
          · rw [hroot]
            decide
          · rw [hroot]
            decide
        rw [hnoAncestors] at ha
        cases ha
      · rw [hstops.ofText_text hne] at ha
        obtain ⟨hstops', hshorter'⟩ :=
          Trail.stopsOn_of_mem_ancestorsFrom hstops.rooted hstops.suffix ha
        exact hstops'.through (Nat.lt_trans hshorter' hshorter)

/-- Writing a file makes directories only on the way to it. -/
theorem through_of_writeAtomic_ok {r : Unit} (h : writeAtomic p content t = (.ok r, t'))
    (hnone : t.get? q ≠ some .directory) (hmade : t'.get? q = some .directory) :
    t.Through p.text q := by
  obtain ⟨-, hrun⟩ := writeThrough_of_writeAtomic_ok h
  -- the file itself is no directory, so it was made before
  have hparents : (withParents p t).get? q = some .directory := by
    rw [get?_of_writeThrough_ok hrun] at hmade
    split at hmade
    · cases hmade
    · split at hmade
      · cases hmade
      · exact hmade
  rw [withParents] at hparents
  split at hparents
  · next parent hparent => exact through_of_makeDirectories hparent hnone hparents
  · exact absurd hparents hnone

end BootTree

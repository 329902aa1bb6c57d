/-
  Trees that only grow.

  A tree extends another one if everything that stands in the other one stands in it as well, files
  with the same bytes (`Extends`).  Whatever a path leads to it then leads to in every extension
  (`Extends.entry`), since a path is followed through directories only (`follow_mono`).

  Making directories extends a tree.  Writing a file does so exactly where no file stood, and what
  was written is what the path leads to afterwards (`entry_of_write`).
-/
import BootTree.Proofs.Files.Change

namespace BootTree.FileTree

variable {t t' t'' : FileTree}

/-! ## Following paths in a larger tree -/

/-- A path that can be followed can be followed wherever the same directories are there. -/
theorem follow_mono (h : ∀ q, t.get? q = some .directory → t'.get? q = some .directory)
    {segments : List String} {p q : Place} (hf : t.follow p segments = .ok q) :
    t'.follow p segments = .ok q := by
  induction segments generalizing p with
  | nil => exact hf
  | cons segment rest ih =>
    have hp : t.get? p = some .directory := get?_of_follow_cons hf
    rw [follow, hp] at hf
    rw [follow, h p hp]
    dsimp only at hf ⊢
    split at hf
    · next hidle =>
      rw [if_pos hidle]
      exact ih hf
    · next hidle =>
      rw [if_neg hidle]
      split at hf
      · next hup =>
        rw [if_pos hup]
        exact ih hf
      · next hup =>
        rw [if_neg hup]
        split at hf
        · cases hf
        · next hshort =>
          rw [if_neg hshort]
          exact ih hf

theorem locate_mono (hbase : t'.base = t.base)
    (h : ∀ q, t.get? q = some .directory → t'.get? q = some .directory)
    {text : String} {q : Place} (hl : t.locate text = .ok q) : t'.locate text = .ok q := by
  obtain ⟨u, hcheck, hfollow⟩ := bind_eq_ok.mp hl
  have horigin : t'.origin (Trail.ofText text) = t.origin (Trail.ofText text) := by
    rw [origin, origin, hbase]
  refine bind_eq_ok.mpr ⟨u, hcheck, ?_⟩
  show t'.follow (t'.origin (Trail.ofText text)) (Trail.ofText text).segments = .ok q
  rw [horigin]
  exact follow_mono h hfollow

theorem entry_eq_ok {text : String} {e : Entry} :
    t.entry text = .ok e ↔ t.locate text = .ok (t.place text) ∧ t.get? (t.place text) = some e := by
  constructor
  · intro h
    have hget := get?_place_of_entry h
    obtain ⟨q, hlocate, -⟩ := bind_eq_ok.mp h
    exact ⟨eq_place_of_locate hlocate ▸ hlocate, hget⟩
  · rintro ⟨hlocate, hget⟩
    refine bind_eq_ok.mpr ⟨_, hlocate, ?_⟩
    rw [hget]

theorem isFile_iff {text : String} :
    t.isFile text = true ↔ ∃ content, t.entry text = .ok (.file content) := by
  rw [isFile]
  split
  · next content h => exact ⟨fun _ => ⟨content, h⟩, fun _ => rfl⟩
  · next hne => exact ⟨fun h => absurd h (by simp), fun ⟨content, h⟩ => absurd h (hne content)⟩

theorem read_eq_ok {text : String} {content : ByteArray} :
    t.read text = .ok content ↔ t.entry text = .ok (.file content) := by
  rw [read]
  split
  · next c h => simp [h]
  · next h => simp [h]
  · next h => simp [h]

/-! ## Extensions -/

/-- The second tree has all that the first one has. -/
structure Extends (t t' : FileTree) : Prop where
  base : t'.base = t.base
  process : t'.process = t.process
  keeps : ∀ q e, t.get? q = some e → t'.get? q = some e

namespace Extends

theorem refl (t : FileTree) : Extends t t := ⟨rfl, rfl, fun _ _ h => h⟩

theorem trans (h : Extends t t') (h' : Extends t' t'') : Extends t t'' :=
  ⟨h'.base.trans h.base, h'.process.trans h.process,
    fun q e he => h'.keeps q e (h.keeps q e he)⟩

theorem of_addsDirectories (h : AddsDirectories t t') : Extends t t' where
  base := h.base
  process := h.process
  keeps q e he := by
    rcases h.adds q with hq | ⟨hnone, -⟩
    · rw [hq, he]
    · rw [hnone] at he
      cases he

theorem bytesAt (h : Extends t t') {q : Place} {content : ByteArray}
    (hc : t.bytesAt q = some content) : t'.bytesAt q = some content :=
  bytesAt_eq_some.mpr (h.keeps q _ (bytesAt_eq_some.mp hc))

theorem entry (h : Extends t t') {text : String} {e : Entry} (he : t.entry text = .ok e) :
    t'.entry text = .ok e := by
  obtain ⟨hlocate, hget⟩ := entry_eq_ok.mp he
  have hplace : t'.place text = t.place text := place_congr h.base text
  rw [entry_eq_ok, hplace]
  exact ⟨locate_mono h.base (fun q => h.keeps q .directory) hlocate, h.keeps _ _ hget⟩

theorem read (h : Extends t t') {text : String} {content : ByteArray}
    (hr : t.read text = .ok content) : t'.read text = .ok content :=
  read_eq_ok.mpr (h.entry (read_eq_ok.mp hr))

end Extends

/-! ## Writing where no file stood -/

/-- Empty segments and `.` are followed in a directory, and lead nowhere. -/
theorem follow_idle {segments : List String} (h : ∀ s ∈ segments, s = "" ∨ s = ".") {p : Place}
    (hp : t.get? p = some .directory) : t.follow p segments = .ok p := by
  induction segments with
  | nil => rfl
  | cons segment rest ih =>
    rw [follow, hp]
    dsimp only
    rw [if_pos (by simpa using h segment List.mem_cons_self)]
    exact ih fun s hs => h s (List.mem_cons_of_mem _ hs)

/-- The last name of a path is followed like the names before it; with a slash at the end it must be
that of a directory. -/
theorem locate_of_target {text name : String} {around : Place} {slash : Bool}
    (h : t.target text = .ok (.named around name slash)) (hname : checkName name = .ok ())
    (hslash : slash = true → t.get? (name :: around) = some .directory) :
    t.locate text = .ok (name :: around) := by
  have hproper : Trail.IsProper name := (names_of_target h).proper
  obtain ⟨u, hcheck, h⟩ := bind_eq_ok.mp h
  refine bind_eq_ok.mpr ⟨u, hcheck, ?_⟩
  dsimp only at h ⊢
  split at h
  · cases h
  · next last before hdrop =>
    obtain ⟨place, hfollow, h⟩ := bind_eq_ok.mp h
    split at h
    · cases h
    · cases h
    · next hdirectory =>
      split at h
      · cases h
      · simp only [Except.ok.injEq, Target.named.injEq] at h
        obtain ⟨rfl, rfl, rfl⟩ := h
        obtain ⟨empties, hsplit, hempties, hnone⟩ := segments_of_dropWhile hdrop
        have hshort : ¬ last.utf8ByteSize > nameLimit := by
          intro hlong
          rw [checkName, if_pos hlong] at hname
          cases hname
        rw [hsplit, List.append_assoc, follow_append]
        refine bind_eq_ok.mpr ⟨place, hfollow, ?_⟩
        rw [List.singleton_append, follow, hdirectory]
        dsimp only
        rw [if_neg (by simp [hproper.1, hproper.2.1]), if_neg hproper.2.2, if_neg hshort]
        cases empties with
        | nil => rfl
        | cons s rest =>
          -- there is a slash at the end, and the name is that of a directory
          have hend : (Trail.ofText text).backward.head? = some "" := by
            by_contra hne
            cases hnone.mpr hne
          exact follow_idle (fun s hs => .inl (hempties s hs)) (hslash (by simpa using hend))

section Write

variable {text : String} {content : ByteArray}

/-- A path to which a file can be written can be followed. -/
theorem locate_of_write (h : t.write text content = .ok t') :
    t.locate text = .ok (t.place text) := by
  obtain ⟨target, htarget, h⟩ := bind_eq_ok.mp h
  cases target with
  | nameless => cases h
  | named around name slash =>
    cases slash with
    | true => cases h
    | false =>
      obtain ⟨u, hname, -⟩ := bind_eq_ok.mp h
      rw [(names_of_target htarget).place]
      exact locate_of_target htarget hname nofun

/-- Writing a file changes no other place. -/
theorem get?_write (h : t.write text content = .ok t') (q : Place) :
    t'.get? q = if q = t.place text then some (.file content) else t.get? q := by
  obtain ⟨name, around, hnames, hmay, rfl⟩ := write_eq_ok h
  rw [hnames.place, get?_put hmay]

/-- Where a file could be written and no file was, there was nothing. -/
theorem get?_of_write_new (h : t.write text content = .ok t') (hnew : t.isFile text = false) :
    t.get? (t.place text) = none := by
  obtain ⟨name, around, hnames, hmay, -⟩ := write_eq_ok h
  cases hget : t.get? (t.place text) with
  | none => rfl
  | some e =>
    have hkind := hmay.2 e (hnames.place ▸ hget)
    cases e with
    | directory => cases hkind
    | file old =>
      have hfile : t.isFile text = true :=
        isFile_iff.mpr ⟨old, entry_eq_ok.mpr ⟨locate_of_write h, hget⟩⟩
      rw [hnew] at hfile
      cases hfile

/-- A file that was written is there. -/
theorem entry_of_write (h : t.write text content = .ok t') :
    t'.entry text = .ok (.file content) := by
  have hbase := (base_write h).1
  rw [entry_eq_ok, place_congr hbase, get?_write h, if_pos rfl]
  refine ⟨locate_mono hbase (fun q hq => ?_) (locate_of_write h), rfl⟩
  -- no directory is at the place of the file
  obtain ⟨name, around, hnames, hmay, -⟩ := write_eq_ok h
  rw [get?_write h, if_neg]
  · exact hq
  · rintro rfl
    have hkind := hmay.2 _ (hnames.place ▸ hq)
    cases hkind

/-- Writing a file where none stood extends the tree. -/
theorem Extends.of_write (h : t.write text content = .ok t')
    (hnone : t.get? (t.place text) = none) : Extends t t' where
  base := (base_write h).1
  process := (base_write h).2
  keeps q e he := by
    rw [get?_write h, if_neg]
    · exact he
    · rintro rfl
      rw [hnone] at he
      cases he

end Write

end BootTree.FileTree

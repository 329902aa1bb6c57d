/-
  Where copying what has changed comes to rest.

  A copy is skipped exactly where both paths lead to files with one fingerprint (`InStep`).  A copy
  that is made puts the bytes of the source at the destination and does nothing else (`Refreshes`), so
  that the two are in step afterwards, whichever paths lead to them; the two may even be one file.
  Either way another copy is skipped (`copyIfChanged_comes_to_rest`).
-/
import BootTree.Proofs.Files.Settle

namespace BootTree

variable {t t' : FileTree} {source destination : Path} {bytes : ByteArray}

/-! ## In step -/

namespace FileTree

/-- Source and destination are both files, with one fingerprint. -/
structure InStep (t : FileTree) (source destination : Path) : Prop where
  isFile : t.isFile source.text = true
  isFile' : t.isFile destination.text = true
  same : t.fingerprint source = t.fingerprint destination

theorem isFile_iff_read {text : String} : t.isFile text = true ↔ ∃ bytes, t.read text = .ok bytes := by
  rw [isFile_iff]
  exact exists_congr fun bytes => read_eq_ok.symm

/-- What two reads say of the fingerprints. -/
theorem inStep_of_read {old : ByteArray} (hsource : t.read source.text = .ok bytes)
    (hdestination : t.read destination.text = .ok old)
    (hsame : Sha256.fingerprint bytes = Sha256.fingerprint old) : t.InStep source destination where
  isFile := isFile_iff_read.mpr ⟨bytes, hsource⟩
  isFile' := isFile_iff_read.mpr ⟨old, hdestination⟩
  same := by rw [fingerprint_of_read hsource, fingerprint_of_read hdestination, hsame]

end FileTree

/-- A destination is current exactly if it is in step with the source. -/
theorem isCurrent_eq_true_iff :
    t.isCurrent source destination = .ok true ↔ t.InStep source destination := by
  constructor
  · intro h
    obtain ⟨content, old, hread, hold, hsame⟩ := isCurrent_eq_true h
    exact FileTree.inStep_of_read hread hold hsame
  · intro h
    obtain ⟨content, hread⟩ := FileTree.isFile_iff_read.mp h.isFile
    have hprint := fingerprint_of_read hread
    rw [FileTree.isCurrent, if_pos h.isFile', ← h.same, hprint]
    simp [Except.mapError, bind, Except.bind]

/-- Where source and destination are in step, a copy does nothing. -/
theorem copyIfChanged_of_inStep (h : t.InStep source destination) :
    copyIfChanged source destination t = (.ok .skipped, t) := by
  rw [copyIfChanged, run_bind, Change.inspect, isCurrent_eq_true_iff.mpr h]
  rfl

/-! ## Copies -/

/-- What a copy that was made did: the file at the destination has the bytes of the source, and
nothing else has changed. -/
structure Refreshes (source destination : Path) (bytes : ByteArray) (t t' : FileTree) : Prop where
  read : t.read source.text = .ok bytes
  base : t'.base = t.base
  process : t'.process = t.process
  get? : ∀ q, t'.get? q = if q = t.place destination.text then some (.file bytes) else t.get? q
  readDestination : t'.read destination.text = .ok bytes
  /-- No path leads elsewhere than before. -/
  directories : FileTree.HasDirectories t t'

theorem refreshes_of_write (hread : t.read source.text = .ok bytes)
    (hwrite : t.write destination.text bytes = .ok t') :
    Refreshes source destination bytes t t' where
  read := hread
  base := (FileTree.base_write hwrite).1
  process := (FileTree.base_write hwrite).2
  get? := FileTree.get?_write hwrite
  readDestination := FileTree.read_eq_ok.mpr (FileTree.entry_of_write hwrite)
  directories := .of_write hwrite

/-- The source keeps its bytes, also where it is the destination itself. -/
theorem Refreshes.readSource (h : Refreshes source destination bytes t t') :
    t'.read source.text = .ok bytes := by
  have hold : t.bytesAt (t.place source.text) = some bytes := FileTree.bytesAt_place_of_read h.read
  refine h.directories.read ?_ h.read
  rw [hold, FileTree.bytesAt_eq_some, h.get?]
  split
  · rfl
  · exact FileTree.bytesAt_eq_some.mp hold

/-- After a copy the two files are in step. -/
theorem Refreshes.inStep (h : Refreshes source destination bytes t t') :
    t'.InStep source destination :=
  FileTree.inStep_of_read h.readSource h.readDestination rfl

/-- Copying what has changed comes to rest.  An error leaves the tree as it is.  A copy is skipped
exactly if source and destination are files with one fingerprint, and leaves the tree as it is as well;
a copy that is made gives the destination the bytes of the source and changes nothing else.  After
either the source has its bytes still, the two have one fingerprint, and the next copy is skipped. -/
theorem copyIfChanged_comes_to_rest (source destination : Path) (t : FileTree) :
    ∃ r t', copyIfChanged source destination t = (r, t') ∧
      (∀ e, r = .error e → t' = t) ∧
      (r = .ok .skipped ↔ t.InStep source destination) ∧
      (r = .ok .skipped → t' = t) ∧
      (r = .ok .copied → ∃ bytes, Refreshes source destination bytes t t') ∧
      ∀ status, r = .ok status →
        (∃ bytes, t.read source.text = .ok bytes ∧ t'.read source.text = .ok bytes) ∧
        t'.InStep source destination ∧
        copyIfChanged source destination t' = (.ok .skipped, t') := by
  rcases hrun : copyIfChanged source destination t with ⟨r, t'⟩
  have hskips : t.InStep source destination → r = .ok .skipped := by
    intro hstep
    rw [copyIfChanged_of_inStep hstep] at hrun
    exact (congrArg Prod.fst hrun).symm
  refine ⟨r, t', rfl, ?_⟩
  rcases copyIfChanged_cases hrun with
    ⟨rfl, rfl, content, old, hread, hold, hsame⟩ | ⟨rfl, content, hread, hwrite⟩ | ⟨e, rfl, rfl, -⟩
  · have hstep := FileTree.inStep_of_read hread hold hsame
    refine ⟨nofun, ⟨fun _ => hstep, hskips⟩, fun _ => rfl, nofun, fun status _ => ?_⟩
    exact ⟨⟨content, hread, hread⟩, hstep, copyIfChanged_of_inStep hstep⟩
  · have hcopy := refreshes_of_write hread hwrite
    refine ⟨nofun, ⟨nofun, hskips⟩, nofun, fun _ => ⟨content, hcopy⟩, fun status _ => ?_⟩
    exact ⟨⟨content, hread, hcopy.readSource⟩, hcopy.inStep, copyIfChanged_of_inStep hcopy.inStep⟩
  · exact ⟨fun _ _ => rfl, ⟨nofun, hskips⟩, nofun, nofun, nofun⟩

end BootTree

/-
  Copying what has changed.

  A copy that succeeds settles the bytes at its destination (`settle`): what stands there stays if it
  has the fingerprint of the source, else the bytes of the source are written.  So a copy is told by
  the bytes of two files (`settles_of_copyIfChanged`), and it succeeds wherever the source is a file
  and the destination can be written (`exists_copyIfChanged`).
-/
import BootTree.Proofs.Files.Success

namespace BootTree

variable {t t' : FileTree} {source destination p : Path} {bytes : ByteArray}

/-! ## Directories -/

/-- After a directory was made where it was missing, it is there. -/
theorem isDirectory_of_ensureDirectory {r : Unit} (h : ensureDirectory p t = (.ok r, t')) :
    p.text = "" ∨ t'.isDirectory p.text = true := by
  rw [ensureDirectory, run_get_bind] at h
  split at h
  · next hthere =>
    cases h
    exact .inr hthere
  · exact isDirectory_of_makeDirectories h

theorem ensureDirectory_of_isDirectory (h : p.text = "" ∨ t.isDirectory p.text = true) :
    ensureDirectory p t = (.ok (), t) := by
  rw [ensureDirectory, run_get_bind]
  split
  · rfl
  · exact makeDirectories_of_isDirectory h

namespace FileTree

theorem HasDirectories.of_iff (hbase : t'.base = t.base)
    (h : ∀ q, t'.get? q = some .directory ↔ t.get? q = some .directory) : HasDirectories t t' :=
  ⟨hbase, fun q => (h q).mpr⟩

end FileTree

/-! ## Fingerprints -/

/-- The fingerprint of what a file has. -/
def printOf (bytes : Option ByteArray) : Option String := bytes.map Sha256.fingerprint

/-- What a copy leaves at its destination: what is there, if it has the fingerprint. -/
def settle (old : Option ByteArray) (content : ByteArray) : Option ByteArray :=
  if printOf old = some (Sha256.fingerprint content) then old else some content

theorem settle_isSome (old : Option ByteArray) (content : ByteArray) :
    (settle old content).isSome = true := by
  rw [settle]
  split
  · next h =>
    cases old with
    | none => cases h
    | some bytes => rfl
  · rfl

theorem fingerprint_of_read (h : t.read p.text = .ok bytes) :
    t.fingerprint p = .ok (Sha256.fingerprint bytes) := by
  rw [FileTree.fingerprint, h]
  rfl

/-- Whether a destination is current, where it can be written. -/
theorem isCurrent_of_writable (hread : t.read source.text = .ok bytes)
    (hw : t.Writable destination.text) : t.isCurrent source destination =
      .ok (printOf (t.bytesAt (t.place destination.text)) = some (Sha256.fingerprint bytes)) := by
  rw [FileTree.isCurrent]
  cases hold : t.bytesAt (t.place destination.text) with
  | none =>
    have hnone : ¬ t.isFile destination.text = true := by simp [hw.isFile_iff, hold]
    rw [if_neg hnone]
    rfl
  | some old =>
    have hread' : t.read destination.text = .ok old := hw.read_eq_ok_iff.mpr hold
    rw [if_pos (hw.isFile_iff.mpr ⟨old, hold⟩), fingerprint_of_read hread,
      fingerprint_of_read hread']
    simp [printOf, Except.mapError, bind, Except.bind, eq_comm]

/-- A copy succeeds where the source is a file and the destination can be written, and settles the
bytes there. -/
theorem exists_copyIfChanged (hread : t.read source.text = .ok bytes)
    (hw : t.Writable destination.text) :
    ∃ status t', copyIfChanged source destination t = (.ok status, t') := by
  have hcurrent := isCurrent_of_writable hread hw
  rw [copyIfChanged]
  by_cases hsame : printOf (t.bytesAt (t.place destination.text)) =
      some (Sha256.fingerprint bytes)
  · refine ⟨.skipped, t, run_bind_eq_ok.mpr ⟨true, t, ?_, rfl⟩⟩
    rw [Change.inspect, hcurrent]
    simp [hsame]
  · obtain ⟨t', hwrite⟩ := FileTree.exists_write hw bytes
    refine ⟨.copied, t', run_bind_eq_ok.mpr ⟨false, t, ?_, ?_⟩⟩
    · rw [Change.inspect, hcurrent]
      simp [hsame]
    · exact run_bind_eq_ok.mpr ⟨(), t', copyBytes_of_write hread hwrite, rfl⟩

/-- What a copy that succeeded did. -/
structure Settles (source destination : Path) (t t' : FileTree) (bytes : ByteArray) : Prop where
  read : t.read source.text = .ok bytes
  writable : t.Writable destination.text
  base : t'.base = t.base
  process : t'.process = t.process
  directories : ∀ q, t'.get? q = some .directory ↔ t.get? q = some .directory
  bytesAt : ∀ q, t'.bytesAt q =
    if q = t.place destination.text then settle (t.bytesAt q) bytes else t.bytesAt q

theorem settles_of_copyIfChanged {status : CopyStatus}
    (h : copyIfChanged source destination t = (.ok status, t')) :
    ∃ bytes, Settles source destination t t' bytes := by
  have hcases := copyIfChanged_cases h
  rcases hcases with ⟨-, rfl, bytes, old, hread, hold, hsame⟩ | ⟨hcopied, bytes, hread, hwrite⟩ | ⟨e, hr, -⟩
  · refine ⟨bytes, hread, .of_read hold, rfl, rfl, fun q => Iff.rfl, fun q => ?_⟩
    split
    · next hq =>
      rw [settle, hq, FileTree.bytesAt_place_of_read hold, if_pos (by simp [printOf, hsame])]
    · rfl
  · have hw : t.Writable destination.text := .of_write hwrite
    refine ⟨bytes, hread, hw, (FileTree.base_write hwrite).1, (FileTree.base_write hwrite).2,
      fun q => ?_, fun q => ?_⟩
    · rw [FileTree.get?_write hwrite]
      split
      · next hq =>
        constructor
        · intro hfile
          cases hfile
        · intro hdirectory
          exact absurd (hq ▸ hdirectory) hw.get?_ne
      · exact Iff.rfl
    · rw [FileTree.bytesAt_write hwrite]
      split
      · next hq =>
        -- it was copied, so that the fingerprints differ
        rw [settle, if_neg]
        intro hprint
        rw [copyIfChanged] at h
        obtain ⟨current, t₁, hcurrent, hrest⟩ := run_bind_eq_ok.mp h
        obtain ⟨hcurrent, rfl⟩ := Change.inspect_eq.mp hcurrent
        rw [isCurrent_of_writable hread hw, ← hq] at hcurrent
        rw [hcopied] at hrest
        rw [← Except.ok.inj hcurrent, if_pos (by simpa using hprint)] at hrest
        cases hrest
      · rfl
  · cases hr

end BootTree

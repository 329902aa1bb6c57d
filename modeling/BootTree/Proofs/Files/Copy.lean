/-
  What a copy does to a tree.

  A copy has three endings, and what it did can be told from its ending: it copied, and then the
  bytes of the source were written to the destination; or it skipped, and then the tree is as it
  was; or it failed, and then the tree is as it was too.  `copyIfAbsent_cases` and
  `copyIfChanged_cases` say when each of them comes about, and no other lemma opens the copies.
-/
import BootTree.Proofs.Files.Growth

namespace BootTree

variable {source destination : Path} {t t' : FileTree}

/-! ## Copying bytes -/

theorem copyBytes_eq_ok {u : Unit} (h : copyBytes source destination t = (.ok u, t')) :
    ∃ content, t.read source.text = .ok content ∧
      t.write destination.text content = .ok t' := by
  obtain ⟨content, hread, hwrite⟩ := Change.inspect_bind_eq_ok.mp h
  refine ⟨content, ?_, mapError_eq_ok.mp (Change.attempt_eq_ok.mp hwrite)⟩
  split at hread
  · exact mapError_eq_ok.mp hread
  · cases hread

/-- Bytes that can be read and written can be copied. -/
theorem copyBytes_of_write {content : ByteArray} (hread : t.read source.text = .ok content)
    (hwrite : t.write destination.text content = .ok t') :
    copyBytes source destination t = (.ok (), t') := by
  have hfile : t.isFile source.text = true :=
    FileTree.isFile_iff.mpr ⟨content, FileTree.read_eq_ok.mp hread⟩
  refine run_bind_eq_ok.mpr ⟨content, t, Change.inspect_eq.mpr ⟨?_, rfl⟩, ?_⟩
  · rw [if_pos hfile, hread]
    rfl
  · exact Change.attempt_eq_ok.mpr (mapError_eq_ok.mpr hwrite)

/-- Where copying fails nothing is changed.  Either the source is no file, or the file system gave
the cause. -/
theorem copyBytes_eq_error {e : FileError} (h : copyBytes source destination t = (.error e, t')) :
    t' = t ∧ ((t.isFile source.text = false ∧ e = .notAFile source.text) ∨
      ∃ path cause, e = .io path cause) := by
  rcases Change.inspect_bind_eq_error.mp h with ⟨hread, rfl⟩ | ⟨content, -, hwrite⟩
  · refine ⟨rfl, ?_⟩
    split at hread
    · obtain ⟨cause, -, he⟩ := mapError_eq_error.mp hread
      exact .inr ⟨_, cause, he⟩
    · next hfile => exact .inl ⟨by simpa using hfile, (Except.error.inj hread).symm⟩
  · obtain ⟨hwrite, rfl⟩ := Change.attempt_eq_error.mp hwrite
    obtain ⟨cause, -, he⟩ := mapError_eq_error.mp hwrite
    exact ⟨rfl, .inr ⟨_, cause, he⟩⟩

/-! ## Copying where there is no file yet -/

/-- A file at the destination is left alone; otherwise the bytes are written there, if they can be.
-/
theorem copyIfAbsent_cases {r : Except FileError CopyStatus}
    (h : copyIfAbsent source destination t = (r, t')) :
    (r = .ok .skipped ∧ t.isFile destination.text = true ∧ t' = t) ∨
    (r = .ok .copied ∧ t.isFile destination.text = false ∧ ∃ content,
      t.read source.text = .ok content ∧ t.write destination.text content = .ok t') ∨
    (∃ e, r = .error e ∧ t' = t) := by
  rw [copyIfAbsent, run_get_bind] at h
  split at h
  · next hfile =>
    cases h
    exact .inl ⟨rfl, hfile, rfl⟩
  · next hfile =>
    cases r with
    | error e =>
      rcases run_bind_eq_error.mp h with hcopy | ⟨u, t₁, -, hpure⟩
      · exact .inr (.inr ⟨e, rfl, (copyBytes_eq_error hcopy).1⟩)
      · cases hpure
    | ok status =>
      obtain ⟨u, t₁, hcopy, hpure⟩ := run_bind_eq_ok.mp h
      cases hpure
      exact .inr (.inl ⟨rfl, by simpa using hfile, copyBytes_eq_ok hcopy⟩)

/-- A file at the destination is left alone. -/
theorem copyIfAbsent_of_isFile (h : t.isFile destination.text = true) :
    copyIfAbsent source destination t = (.ok .skipped, t) := by
  rw [copyIfAbsent, run_get_bind, if_pos h]
  rfl

/-- Bytes that can be read and written are copied where no file is. -/
theorem copyIfAbsent_of_write {content : ByteArray} (h : t.isFile destination.text = false)
    (hread : t.read source.text = .ok content)
    (hwrite : t.write destination.text content = .ok t') :
    copyIfAbsent source destination t = (.ok .copied, t') := by
  rw [copyIfAbsent, run_get_bind, if_neg (by simp [h])]
  exact run_bind_eq_ok.mpr ⟨(), t', copyBytes_of_write hread hwrite, rfl⟩

/-! ## Copying what has changed -/

theorem fingerprint_eq_ok {s : String} (h : t.fingerprint source = .ok s) :
    ∃ content, t.read source.text = .ok content ∧ s = Sha256.fingerprint content := by
  rw [FileTree.fingerprint] at h
  cases hread : t.read source.text with
  | error cause => rw [hread] at h; cases h
  | ok content =>
    rw [hread] at h
    exact ⟨content, rfl, (Except.ok.inj h).symm⟩

/-- A destination is current if it is a file with the fingerprint of the source. -/
theorem isCurrent_eq_true (h : t.isCurrent source destination = .ok true) :
    ∃ content old, t.read source.text = .ok content ∧ t.read destination.text = .ok old ∧
      Sha256.fingerprint content = Sha256.fingerprint old := by
  rw [FileTree.isCurrent] at h
  split at h
  · obtain ⟨a, ha, h⟩ := bind_eq_ok.mp h
    obtain ⟨b, hb, h⟩ := bind_eq_ok.mp h
    obtain ⟨content, hread, rfl⟩ := fingerprint_eq_ok (mapError_eq_ok.mp ha)
    obtain ⟨old, hold, rfl⟩ := fingerprint_eq_ok (mapError_eq_ok.mp hb)
    exact ⟨content, old, hread, hold, by simpa using h⟩
  · cases h

theorem isCurrent_eq_error {e : FileError} (h : t.isCurrent source destination = .error e) :
    ∃ path cause, e = .io path cause := by
  rw [FileTree.isCurrent] at h
  split at h
  · rcases bind_eq_error.mp h with ha | ⟨a, -, h⟩
    · obtain ⟨cause, -, he⟩ := mapError_eq_error.mp ha
      exact ⟨_, cause, he⟩
    · rcases bind_eq_error.mp h with hb | ⟨b, -, h⟩
      · obtain ⟨cause, -, he⟩ := mapError_eq_error.mp hb
        exact ⟨_, cause, he⟩
      · cases h
  · cases h

/-- A destination with the fingerprint of the source is left alone; otherwise the bytes are written
there, if they can be. -/
theorem copyIfChanged_cases {r : Except FileError CopyStatus}
    (h : copyIfChanged source destination t = (r, t')) :
    (r = .ok .skipped ∧ t' = t ∧ ∃ content old, t.read source.text = .ok content ∧
      t.read destination.text = .ok old ∧
      Sha256.fingerprint content = Sha256.fingerprint old) ∨
    (r = .ok .copied ∧ ∃ content, t.read source.text = .ok content ∧
      t.write destination.text content = .ok t') ∨
    (∃ e, r = .error e ∧ t' = t ∧ ((t.isFile source.text = false ∧ e = .notAFile source.text) ∨
      ∃ path cause, e = .io path cause)) := by
  rw [copyIfChanged, run_bind] at h
  cases hcurrent : t.isCurrent source destination with
  | error e =>
    rw [Change.inspect, hcurrent] at h
    cases h
    exact .inr (.inr ⟨e, rfl, rfl, .inr (isCurrent_eq_error hcurrent)⟩)
  | ok current =>
    rw [Change.inspect, hcurrent] at h
    dsimp only at h
    cases current with
    | true =>
      cases h
      exact .inl ⟨rfl, rfl, isCurrent_eq_true hcurrent⟩
    | false =>
      rw [if_neg (by simp)] at h
      cases r with
      | error e =>
        rcases run_bind_eq_error.mp h with hcopy | ⟨u, t₁, -, hpure⟩
        · exact .inr (.inr ⟨e, rfl, copyBytes_eq_error hcopy⟩)
        · cases hpure
      | ok status =>
        obtain ⟨u, t₁, hcopy, hpure⟩ := run_bind_eq_ok.mp h
        cases hpure
        exact .inr (.inl ⟨rfl, copyBytes_eq_ok hcopy⟩)

/-- Copying from a file fails only where the file system gives a cause. -/
theorem copyIfChanged_eq_error {e : FileError} (hfile : t.isFile source.text = true)
    (h : copyIfChanged source destination t = (.error e, t')) :
    t' = t ∧ ∃ path cause, e = .io path cause := by
  rcases copyIfChanged_cases h with ⟨hr, -⟩ | ⟨hr, -⟩ | ⟨e', hr, ht, hcause⟩
  · cases hr
  · cases hr
  · cases hr
    rcases hcause with ⟨hnone, -⟩ | hio
    · rw [hfile] at hnone
      cases hnone
    · exact ⟨ht, hio⟩

/-- A copy neither moves the start of relative paths nor passes to another process, whatever comes of
it. -/
theorem base_of_copyIfChanged {r : Except FileError CopyStatus}
    (h : copyIfChanged source destination t = (r, t')) :
    t'.base = t.base ∧ t'.process = t.process := by
  rcases copyIfChanged_cases h with ⟨-, rfl, -⟩ | ⟨-, content, -, hwrite⟩ | ⟨e, -, rfl, -⟩
  · exact ⟨rfl, rfl⟩
  · exact FileTree.base_write hwrite
  · exact ⟨rfl, rfl⟩

/-- After a copy the destination has the bytes of the source and every other file is as it was, as
long as the two contents that were compared do not share a fingerprint by accident. -/
theorem bytesAt_of_copyIfChanged_ok {status : CopyStatus}
    (h : copyIfChanged source destination t = (.ok status, t'))
    (hsha : ∀ content old, t.bytesAt (t.place source.text) = some content →
      t.bytesAt (t.place destination.text) = some old →
      Sha256.fingerprint content = Sha256.fingerprint old → content = old) :
    ∃ content, t.read source.text = .ok content ∧ ∀ q,
      t'.bytesAt q = if q = t.place destination.text then some content else t.bytesAt q := by
  rcases copyIfChanged_cases h with
    ⟨-, rfl, content, old, hread, hold, hsame⟩ | ⟨-, content, hread, hwrite⟩ | ⟨e, hr, -⟩
  · have hbytes := FileTree.bytesAt_place_of_read hold
    have heq : content = old :=
      hsha content old (FileTree.bytesAt_place_of_read hread) hbytes hsame
    refine ⟨content, hread, fun q => ?_⟩
    split
    · next hq => rw [hq, hbytes, heq]
    · rfl
  · exact ⟨content, hread, FileTree.bytesAt_write hwrite⟩
  · cases hr

end BootTree

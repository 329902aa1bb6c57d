/-
  Files written at one stroke.

  Writing at one stroke goes through a temporary file, which is opened, filled under a lock and
  renamed.  What it did can be told from how it ended (`writeAtomic_eq_ok`, `writeAtomic_eq_error`).
  From this follow the bytes after it: on success the new ones are at the path
  (`bytesAt_of_writeAtomic_ok`), and otherwise every file is as it was, except that the temporary file
  may be left behind (`bytesAt_of_writeAtomic_error`).
-/
import BootTree.Proofs.Files.Success

namespace BootTree

/-! ## The temporary file -/

theorem slash_not_mem_temporaryName {tag name : String} (htag : '/' ∉ tag.toList)
    (hname : '/' ∉ name.toList) : '/' ∉ (temporaryName tag name).toList := by
  simp [temporaryName, htag, hname]

theorem length_temporaryName (tag name : String) :
    (temporaryName tag name).toList.length = name.toList.length + tag.toList.length + 6 := by
  simp [temporaryName]
  omega

/-- A temporary file has a longer name than the file that it stands for. -/
theorem temporaryName_ne (tag name : String) : temporaryName tag name ≠ name := by
  intro h
  have := length_temporaryName tag name
  rw [h] at this
  omega

theorem isProper_temporaryName (tag name : String) : Trail.IsProper (temporaryName tag name) := by
  have hlength := length_temporaryName tag name
  refine ⟨fun he => ?_, fun he => ?_, fun he => ?_⟩
  · rw [he] at hlength
    simp at hlength
  · rw [he] at hlength
    simp at hlength
  · rw [he] at hlength
    simp at hlength

namespace FileTree

variable {t : FileTree} {p : Path} {name : String} {before : List String}

/-- The temporary file is in the same directory as the file that it stands for. -/
theorem place_temporaryPath (h : (Trail.ofText p.text).backward = name :: before)
    (hn : Trail.IsProper name) :
    t.place (temporaryPath t.process p) = temporaryName t.process.tag name ::
      walk (t.origin (Trail.ofText p.text)) before.reverse := by
  have hplain : '/' ∉ name.toList :=
    Trail.slash_not_mem_of_mem_backward (s := p.text) (h ▸ List.mem_cons_self)
  have hslash := slash_not_mem_temporaryName t.process.tag_plain hplain
  have hproper := isProper_temporaryName t.process.tag name
  rw [place, temporaryPath, Trail.fileName?_eq h hn, Option.getD_some,
    Trail.ofText_withFileName h hn hproper.1 hslash, Trail.segments, List.reverse_cons,
    walk_append, walk_isProper hproper, walk_dropIdle]
  rfl

theorem place_temporaryPath_ne (h : (Trail.ofText p.text).backward = name :: before)
    (hn : Trail.IsProper name) : t.place (temporaryPath t.process p) ≠ t.place p.text := by
  rw [place_temporaryPath h hn, place_eq_of_backward h hn]
  exact fun he => temporaryName_ne t.process.tag name (List.cons.inj he).1

end FileTree

/-! ## Writing over what was written

  A tree is its entries; these are lists, and a file keeps its position when it is written again. -/

namespace FileTree

variable {t u : FileTree}

theorem eq_of_entries (hentries : u.entries = t.entries) (hbase : u.base = t.base)
    (hprocess : u.process = t.process) : u = t := by
  cases u
  cases t
  cases hentries
  cases hbase
  cases hprocess
  rfl

theorem putIn_putIn (entries : List (Place × Entry)) (q : Place) (e e' : Entry) :
    putIn (putIn entries q e) q e' = putIn entries q e' := by
  induction entries with
  | nil => simp [putIn]
  | cons x rest ih =>
    obtain ⟨p, old⟩ := x
    by_cases hp : p = q
    · simp [putIn_cons, hp]
    · simp [putIn_cons, hp, ih]

theorem entries_put {name : String} {around : Place} {e : Entry} (h : t.MayPut name around e) :
    (t.put name around e).entries = putIn t.entries (name :: around) e := by
  rw [put, dif_pos h]

/-- A file that is put twice is the one that was put last. -/
theorem put_put {name : String} {around : Place} {a b : ByteArray}
    (h : t.MayPut name around (.file a)) :
    (t.put name around (.file a)).put name around (.file b) = t.put name around (.file b) := by
  have hb : t.MayPut name around (.file b) := h
  have hagain : (t.put name around (.file a)).MayPut name around (.file b) := by
    refine ⟨?_, fun e he => ?_⟩
    · rw [get?_put h, if_neg (List.cons_ne_self name around).symm]
      exact h.1
    · rw [get?_put h, if_pos rfl] at he
      cases he
      rfl
  refine eq_of_entries ?_ (by simp) (by simp)
  rw [entries_put hagain, entries_put h, entries_put hb, putIn_putIn]

/-- Writing a file that was just written comes to the same as writing it once. -/
theorem write_write {t₁ : FileTree} {text : String} {a : ByteArray}
    (h : t.write text a = .ok t₁) (b : ByteArray) : t₁.write text b = t.write text b := by
  have hwritable : t.Writable text := .of_write h
  have hagain : t₁.Writable text := by
    refine hwritable.mono (.of_write h) ?_
    rw [get?_write h, if_pos rfl]
    exact nofun
  obtain ⟨t₂, hsecond⟩ := exists_write hagain b
  obtain ⟨t₃, honce⟩ := exists_write hwritable b
  obtain ⟨name, around, hnames, hmay, rfl⟩ := write_eq_ok h
  obtain ⟨name₂, around₂, hnames₂, -, rfl⟩ := write_eq_ok hsecond
  obtain ⟨name₃, around₃, hnames₃, -, rfl⟩ := write_eq_ok honce
  -- all three are about the place of the path
  have hplace₂ : name₂ :: around₂ = name :: around := by
    rw [← hnames₂.place, ← hnames.place, place_congr (base_put ..)]
  have hplace₃ : name₃ :: around₃ = name :: around := by
    rw [← hnames₃.place, ← hnames.place]
  cases hplace₂
  cases hplace₃
  rw [hsecond, honce, put_put hmay]

end FileTree

/-! ## Under a lock -/

/-- The bytes that a write under a lock leaves in the temporary file: none where the lock was
refused, and else the whole content. -/
def LockOutcome.leaves : LockOutcome → ByteArray → ByteArray
  | .refused, _ => .empty
  | .held, content => content
  | .kept, content => content

section Locked

variable {p : Path} {content : ByteArray} {t t' : FileTree}

theorem writeTemporary_eq_ok {bytes : ByteArray} {u : Unit} :
    writeTemporary p bytes t = (.ok u, t') ↔
      t.write (temporaryPath t.process p) bytes = .ok t' := by
  rw [writeTemporary, run_get_bind, Change.attempt_eq_ok, mapError_eq_ok]

theorem writeTemporary_eq_error {bytes : ByteArray} {e : FileError}
    (h : writeTemporary p bytes t = (.error e, t')) :
    (∃ cause, e = .io (temporaryPath t.process p) cause) ∧ t' = t := by
  rw [writeTemporary, run_get_bind] at h
  obtain ⟨hwrite, ht⟩ := Change.attempt_eq_error.mp h
  obtain ⟨cause, -, he⟩ := mapError_eq_error.mp hwrite
  exact ⟨⟨cause, he⟩, ht⟩

/-- What was written when the temporary file was opened makes no difference to what is written
next. -/
theorem writeTemporary_of_opened {bytes : ByteArray} {t₁ t₂ : FileTree}
    (hopen : t.write (temporaryPath t.process p) .empty = .ok t₁)
    (hfill : t.write (temporaryPath t.process p) bytes = .ok t₂) :
    writeTemporary p bytes t₁ = (.ok (), t₂) := by
  rw [writeTemporary_eq_ok, (FileTree.base_write hopen).2, FileTree.write_write hopen, hfill]

/-- Either the temporary file cannot be opened, or it is written as far as the lock lets it, and then
only the lock can be an error. -/
theorem writeLocked_cases (p : Path) (content : ByteArray) (t : FileTree) :
    (∃ cause, writeLocked p content t = (.error (.io (temporaryPath t.process p) cause), t)) ∨
    ∃ t', t.write (temporaryPath t.process p) ((t.process.locking p.text).leaves content) = .ok t' ∧
      writeLocked p content t =
        (if t.process.locking p.text = .held then .ok () else .error (.lockFailed p.text), t') := by
  rw [writeLocked, run_bind]
  rcases hopen : writeTemporary p .empty t with ⟨r, t₁⟩
  cases r with
  | error e =>
    obtain ⟨⟨cause, rfl⟩, rfl⟩ := writeTemporary_eq_error hopen
    exact .inl ⟨cause, rfl⟩
  | ok u =>
    have hopened := writeTemporary_eq_ok.mp hopen
    obtain ⟨t₂, hfill⟩ := FileTree.exists_write (.of_write hopened) content
    have hfilled := writeTemporary_of_opened hopened hfill
    right
    dsimp only
    rw [run_get_bind, (FileTree.base_write hopened).2]
    cases t.process.locking p.text with
    | refused => exact ⟨t₁, hopened, rfl⟩
    | held => exact ⟨t₂, hfill, hfilled⟩
    | kept =>
      refine ⟨t₂, hfill, ?_⟩
      dsimp only
      rw [run_bind, hfilled]
      rfl

end Locked

/-! ## Faults of the file system -/

/-- An error for which the file system gives a cause. -/
def FileError.IsIo (e : FileError) : Prop := ∃ path cause, e = .io path cause

/-- An error for which the file system gives a cause, or that of a lock which failed. -/
def FileError.IsFault (process : Process) (e : FileError) : Prop :=
  e.IsIo ∨ ∃ path, e = .lockFailed path ∧ process.locking path ≠ .held

/-! ## Writing at one stroke -/

section Through

variable {p : Path} {content : ByteArray} {t t' : FileTree}

theorem writeThrough_eq_ok {u : Unit} (h : writeThrough p content t = (.ok u, t')) :
    ∃ t₁, t.write (temporaryPath t.process p) content = .ok t₁ ∧
      t₁.renameFile (temporaryPath t.process p) p.text = .ok t' ∧
      t.process.locking p.text = .held := by
  rw [writeThrough] at h
  obtain ⟨u₁, t₁, hlocked, hrename⟩ := run_bind_eq_ok.mp h
  rcases writeLocked_cases p content t with ⟨cause, hopen⟩ | ⟨t₂, hwrite, hrun⟩
  · rw [hopen] at hlocked
    cases hlocked
  · rw [hrun] at hlocked
    by_cases hheld : t.process.locking p.text = .held
    · rw [if_pos hheld] at hlocked
      cases hlocked
      rw [hheld] at hwrite
      rw [run_get_bind, (FileTree.base_write hwrite).2] at hrename
      exact ⟨_, hwrite, mapError_eq_ok.mp (Change.attempt_eq_ok.mp hrename), hheld⟩
    · rw [if_neg hheld] at hlocked
      cases hlocked

/-- Where the lock is had, filling and renaming the temporary file is all there is to do. -/
theorem writeThrough_of_steps {t₁ : FileTree} (hheld : t.process.locking p.text = .held)
    (hwrite : t.write (temporaryPath t.process p) content = .ok t₁)
    (hrename : t₁.renameFile (temporaryPath t.process p) p.text = .ok t') :
    writeThrough p content t = (.ok (), t') := by
  have hlocked : writeLocked p content t = (.ok (), t₁) := by
    obtain ⟨t₀, hopen⟩ := FileTree.exists_write (.of_write hwrite) .empty
    rw [writeLocked]
    refine run_bind_eq_ok.mpr ⟨(), t₀, writeTemporary_eq_ok.mpr hopen, ?_⟩
    rw [run_get_bind, (FileTree.base_write hopen).2, hheld]
    exact writeTemporary_of_opened hopen hwrite
  rw [writeThrough]
  refine run_bind_eq_ok.mpr ⟨(), t₁, hlocked, ?_⟩
  rw [run_get_bind, (FileTree.base_write hwrite).2]
  exact Change.attempt_eq_ok.mpr (mapError_eq_ok.mpr hrename)

/-- Where writing through the temporary file fails, this was not opened, or it is left behind with
what the lock let be written. -/
theorem writeThrough_eq_error {e : FileError} (h : writeThrough p content t = (.error e, t')) :
    e.IsFault t.process ∧
      (t' = t ∨ t.write (temporaryPath t.process p)
        ((t.process.locking p.text).leaves content) = .ok t') := by
  rw [writeThrough] at h
  rcases writeLocked_cases p content t with ⟨cause, hopen⟩ | ⟨t₁, hwrite, hrun⟩
  · rw [run_bind, hopen] at h
    cases h
    exact ⟨.inl ⟨_, cause, rfl⟩, .inl rfl⟩
  · rw [run_bind, hrun] at h
    by_cases hheld : t.process.locking p.text = .held
    · rw [if_pos hheld] at h
      dsimp only at h
      rw [run_get_bind] at h
      obtain ⟨hrename, rfl⟩ := Change.attempt_eq_error.mp h
      obtain ⟨cause, -, he⟩ := mapError_eq_error.mp hrename
      exact ⟨.inl ⟨_, cause, he⟩, .inr hwrite⟩
    · rw [if_neg hheld] at h
      cases h
      exact ⟨.inr ⟨p.text, rfl, hheld⟩, .inr hwrite⟩

end Through

/-- Writing at one stroke makes directories, which may fail, and goes on with the tree that they
leave. -/
theorem writeAtomic_cases (p : Path) (content : ByteArray) (t : FileTree) :
    ∃ t₁, AddsDirectories t t₁ ∧
      ((∃ path cause, writeAtomic p content t = (.error (.io path cause), t₁)) ∨
      writeAtomic p content t = writeThrough p content t₁) := by
  rw [writeAtomic]
  cases (Trail.ofText p.text).parent? with
  | none => exact ⟨t, .refl t, .inr rfl⟩
  | some parent =>
    have hadds := makeDirectories_adds parent.text t
    dsimp only
    rw [run_bind]
    cases hmake : makeDirectories parent.text t with
    | mk r t₁ =>
      rw [hmake] at hadds
      cases r with
      | error e =>
        obtain ⟨cause, rfl⟩ := makeDirectories_error hmake
        exact ⟨t₁, hadds, .inl ⟨parent.text, cause, rfl⟩⟩
      | ok u => exact ⟨t₁, hadds, .inr rfl⟩

section Writing

variable {p : Path} {content : ByteArray} {t t' : FileTree} {e : FileError}

theorem writeAtomic_eq_ok {u : Unit} (h : writeAtomic p content t = (.ok u, t')) :
    ∃ t₁ t₂, AddsDirectories t t₁ ∧ t₁.write (temporaryPath t.process p) content = .ok t₂ ∧
      t₂.renameFile (temporaryPath t.process p) p.text = .ok t' := by
  obtain ⟨t₁, hadds, ⟨path, cause, hrun⟩ | hrun⟩ := writeAtomic_cases p content t
  · rw [h] at hrun
    cases hrun
  · obtain ⟨t₂, hwrite, hrename, -⟩ := writeThrough_eq_ok (hrun.symm.trans h)
    rw [hadds.process] at hwrite hrename
    exact ⟨t₁, t₂, hadds, hwrite, hrename⟩

/-- Where writing at one stroke fails, the temporary file was not opened, or it is left behind with
what the lock let be written. -/
theorem writeAtomic_eq_error (h : writeAtomic p content t = (.error e, t')) :
    e.IsFault t.process ∧ ∃ t₁, AddsDirectories t t₁ ∧
      (t' = t₁ ∨ t₁.write (temporaryPath t.process p)
        ((t.process.locking p.text).leaves content) = .ok t') := by
  obtain ⟨t₁, hadds, ⟨path, cause, hrun⟩ | hrun⟩ := writeAtomic_cases p content t
  · rw [h] at hrun
    cases hrun
    exact ⟨.inl ⟨path, cause, rfl⟩, _, hadds, .inl rfl⟩
  · obtain ⟨he, hleft⟩ := writeThrough_eq_error (hrun.symm.trans h)
    rw [hadds.process] at he hleft
    exact ⟨he, t₁, hadds, hleft⟩

/-- Relative paths and temporary names mean the same after a file has been written at one stroke,
whatever came of it. -/
theorem base_of_writeAtomic {r : Except FileError Unit} (h : writeAtomic p content t = (r, t')) :
    t'.base = t.base ∧ t'.process = t.process := by
  cases r with
  | error e =>
    obtain ⟨-, t₁, hadds, rfl | hwrite⟩ := writeAtomic_eq_error h
    · exact ⟨hadds.base, hadds.process⟩
    · have hw := FileTree.base_write hwrite
      exact ⟨hw.1.trans hadds.base, hw.2.trans hadds.process⟩
  | ok u =>
    obtain ⟨t₁, t₂, hadds, hwrite, hrename⟩ := writeAtomic_eq_ok h
    have hw := FileTree.base_write hwrite
    have hr := FileTree.base_renameFile hrename
    exact ⟨hr.1.trans (hw.1.trans hadds.base), hr.2.trans (hw.2.trans hadds.process)⟩

/-- A file that was written at one stroke and its temporary file are different files. -/
theorem place_temporaryPath_ne_of_writeAtomic_ok (h : writeAtomic p content t = (.ok (), t')) :
    t.place (temporaryPath t.process p) ≠ t.place p.text := by
  obtain ⟨t₁, t₂, -, -, hrename⟩ := writeAtomic_eq_ok h
  obtain ⟨name, around, c, name', around', -, hnames, htarget, -⟩ :=
    FileTree.renameFile_eq_ok hrename
  obtain ⟨before, hb, -⟩ := FileTree.backward_of_target htarget
  exact FileTree.place_temporaryPath_ne hb hnames.proper

/-- After a file has been written at one stroke, it has the bytes, the temporary file is gone, and
every other file is as it was. -/
theorem bytesAt_of_writeAtomic_ok (h : writeAtomic p content t = (.ok (), t')) (q : Place) :
    t'.bytesAt q = if q = t.place p.text then some content
      else if q = t.place (temporaryPath t.process p) then none else t.bytesAt q := by
  obtain ⟨t₁, t₂, hadds, hwrite, hrename⟩ := writeAtomic_eq_ok h
  have hwritten := (FileTree.base_write hwrite).1
  have hbase : t₂.base = t.base := hwritten.trans hadds.base
  have hold : t₂.bytesAt (t₂.place (temporaryPath t.process p)) = some content := by
    rw [FileTree.bytesAt_write hwrite, if_pos (FileTree.place_congr hwritten _)]
  rw [FileTree.bytesAt_renameFile hold hrename, FileTree.place_congr hbase,
    FileTree.place_congr hbase, FileTree.bytesAt_write hwrite, FileTree.place_congr hadds.base,
    hadds.bytesAt]
  by_cases hq : q = t.place (temporaryPath t.process p)
  · rw [if_pos hq, if_pos hq]
  · rw [if_neg hq, if_neg hq, if_neg hq]

/-- Where writing a file at one stroke fails, every file is as it was, except that the temporary
file may be left behind with what the lock let be written. -/
theorem bytesAt_of_writeAtomic_error (h : writeAtomic p content t = (.error e, t')) :
    (∀ q, t'.bytesAt q = t.bytesAt q) ∨
    ∀ q, t'.bytesAt q =
      if q = t.place (temporaryPath t.process p) then
        some ((t.process.locking p.text).leaves content)
      else t.bytesAt q := by
  obtain ⟨-, t₁, hadds, rfl | hwrite⟩ := writeAtomic_eq_error h
  · exact .inl hadds.bytesAt
  · refine .inr fun q => ?_
    rw [FileTree.bytesAt_write hwrite, FileTree.place_congr hadds.base, hadds.bytesAt]

end Writing

end BootTree

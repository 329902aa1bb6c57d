/-
  Writing a file at one stroke: all or nothing.

  1. **Frames** — `ChangesOnly places t t'`: nothing is changed but at the places, except that
     directories may be made.  Every change of a tree has such a frame, and frames add up along a
     run (`ChangesOnly.trans`).

  2. **All or nothing** — a write that succeeds leaves the bytes at the path and no temporary file
     (`Stored`).  One that does not, wherever it stops, has touched nothing but the temporary file
     (`BrokenOff`); its bytes may be any, since a real write can stop within the file.

  3. **Again** — a write succeeds where the directory of the file is there and both names can be
     written (`exists_writeAtomic`).  Where the file has the bytes already and there is no temporary
     file, the write leaves the tree as it is, entry for entry (`AtRest.writeAtomic_eq`).
-/
import BootTree.Proofs.Files.Write

namespace BootTree

variable {t t' u : FileTree} {p : Path} {content : ByteArray}

/-! ## Frames -/

namespace FileTree

/-- Nothing is changed but at some places, except that directories may be made where nothing
stood. -/
structure ChangesOnly (places : List Place) (t t' : FileTree) : Prop where
  base : t'.base = t.base
  process : t'.process = t.process
  others : ∀ q, q ∉ places → t'.get? q = t.get? q ∨ t.get? q = none ∧ t'.get? q = some .directory

namespace ChangesOnly

variable {places places' : List Place}

theorem refl (places : List Place) (t : FileTree) : ChangesOnly places t t :=
  ⟨rfl, rfl, fun _ _ => .inl rfl⟩

theorem of_addsDirectories (h : AddsDirectories t t') (places : List Place) :
    ChangesOnly places t t' := ⟨h.base, h.process, fun q _ => h.adds q⟩

theorem of_write {text : String} (h : t.write text content = .ok t') :
    ChangesOnly [t.place text] t t' where
  base := (base_write h).1
  process := (base_write h).2
  others q hq := by
    rw [get?_write h, if_neg (by simpa using hq)]
    exact .inl rfl

theorem trans (h : ChangesOnly places t t') (h' : ChangesOnly places' t' u) :
    ChangesOnly (places ++ places') t u where
  base := h'.base.trans h.base
  process := h'.process.trans h.process
  others q hq := by
    obtain ⟨hfirst, hsecond⟩ := not_or.mp (List.mem_append.not.mp hq)
    rcases h.others q hfirst with hsame | ⟨hnone, hmade⟩
    · rw [← hsame]
      exact h'.others q hsecond
    · rcases h'.others q hsecond with hsame | ⟨hnone', -⟩
      · exact .inr ⟨hnone, hsame.trans hmade⟩
      · rw [hmade] at hnone'
        cases hnone'

theorem bytesAt (h : ChangesOnly places t t') {q : Place} (hq : q ∉ places) :
    t'.bytesAt q = t.bytesAt q := by
  rcases h.others q hq with hsame | ⟨hnone, hmade⟩
  · exact bytesAt_congr hsame
  · rw [FileTree.bytesAt, FileTree.bytesAt, hnone, hmade]

end ChangesOnly

/-- Every file but one at the spare place is as it was: its bytes are, and every path that led to it
leads to it still. -/
structure KeepsFiles (spare : Place) (t u : FileTree) : Prop where
  bytesAt : ∀ q, q ≠ spare → u.bytesAt q = t.bytesAt q
  read : ∀ text old, t.place text ≠ spare → t.read text = .ok old → u.read text = .ok old

theorem KeepsFiles.of_changesOnly {spare : Place} (h : ChangesOnly [spare] t u)
    (hdirectories : HasDirectories t u) : KeepsFiles spare t u := by
  have hbytes : ∀ q, q ≠ spare → u.bytesAt q = t.bytesAt q :=
    fun q hq => h.bytesAt (by simpa using hq)
  exact ⟨hbytes, fun text old htext hold => hdirectories.read (hbytes _ htext) hold⟩

/-! ## The directory of a file -/

/-- The directory that a file is written in is there. -/
def HasParents (t : FileTree) (p : Path) : Prop :=
  ∀ parent, (Trail.ofText p.text).parent? = some parent →
    parent.text = "" ∨ t.isDirectory parent.text = true

theorem HasParents.mono (h : t.HasParents p) (hu : HasDirectories t u) : u.HasParents p :=
  fun parent hparent => (h parent hparent).imp_right hu.isDirectory

/-- A file that can be written and its temporary file are different files. -/
theorem Writable.place_temporaryPath_ne (h : t.Writable p.text) :
    t.place (temporaryPath t.process p) ≠ t.place p.text := by
  obtain ⟨around, name, htarget, -, -⟩ := h
  obtain ⟨before, hbackward, -⟩ := backward_of_target htarget
  exact FileTree.place_temporaryPath_ne hbackward (names_of_target htarget).proper

/-- A path that reads a file does not lead to the temporary file beside it. -/
theorem place_ne_of_read (h : t.read p.text = .ok content) :
    t.place p.text ≠ t.place (temporaryPath t.process p) :=
  (Writable.of_read h).place_temporaryPath_ne.symm

end FileTree

/-- Where the directory is there, only the file is written. -/
theorem writeAtomic_of_hasParents (h : t.HasParents p) (content : ByteArray) :
    writeAtomic p content t = writeThrough p content t := by
  rw [writeAtomic]
  cases hparent : (Trail.ofText p.text).parent? with
  | none => rfl
  | some parent =>
    dsimp only
    rw [run_bind, makeDirectories_of_isDirectory (h parent hparent)]

/-- The tree on which a file is written: its directory is made if it is missing. -/
def withParents (p : Path) (t : FileTree) : FileTree :=
  match (Trail.ofText p.text).parent? with
  | some parent => (makeDirectories parent.text t).2
  | none => t

theorem withParents_adds (p : Path) (t : FileTree) : AddsDirectories t (withParents p t) := by
  rw [withParents]
  split
  · exact makeDirectories_adds _ t
  · exact .refl t

/-- A write that succeeds made the directory first. -/
theorem writeThrough_of_writeAtomic_ok {r : Unit} (h : writeAtomic p content t = (.ok r, t')) :
    (withParents p t).HasParents p ∧ writeThrough p content (withParents p t) = (.ok (), t') := by
  rw [writeAtomic] at h
  rw [withParents]
  cases hparent : (Trail.ofText p.text).parent? with
  | none =>
    rw [hparent] at h
    refine ⟨fun parent h' => ?_, h⟩
    rw [hparent] at h'
    cases h'
  | some parent =>
    rw [hparent] at h
    obtain ⟨made, t₁, hmake, hwrite⟩ := run_bind_eq_ok.mp h
    dsimp only
    rw [hmake]
    refine ⟨fun parent' h' => ?_, hwrite⟩
    rw [hparent] at h'
    cases h'
    exact isDirectory_of_makeDirectories hmake

/-- What stands where after a file was written in a directory that is there. -/
theorem get?_of_writeThrough_ok (h : writeThrough p content t = (.ok (), t')) (q : Place) :
    t'.get? q = if q = t.place p.text then some (.file content)
      else if q = t.place (temporaryPath t.process p) then none else t.get? q := by
  obtain ⟨t₁, hwrite, hrename, -⟩ := writeThrough_eq_ok h
  have hplace : ∀ text, t₁.place text = t.place text :=
    FileTree.place_congr (FileTree.base_write hwrite).1
  have hold : t₁.bytesAt (t₁.place (temporaryPath t.process p)) = some content := by
    rw [FileTree.bytesAt_write hwrite, if_pos (hplace _)]
  rw [FileTree.get?_renameFile hold hrename, hplace, hplace, FileTree.get?_write hwrite]
  by_cases hq : q = t.place (temporaryPath t.process p)
  · rw [if_pos hq, if_pos hq]
  · rw [if_neg hq, if_neg hq, if_neg hq]

/-! ## Success -/

/-- What a write that succeeded leaves: the bytes at the path, nothing at the temporary path, and
every other place as it was or with a directory that was made.  The lock was had, and both paths can
be written again. -/
structure Stored (p : Path) (content : ByteArray) (t t' : FileTree) : Prop where
  base : t'.base = t.base
  process : t'.process = t.process
  locking : t.process.locking p.text = .held
  directories : FileTree.HasDirectories t t'
  parents : t'.HasParents p
  writable : t'.Writable p.text
  temporary : t'.Writable (temporaryPath t.process p)
  file : t'.get? (t.place p.text) = some (.file content)
  gone : t'.get? (t.place (temporaryPath t.process p)) = none
  others : ∀ q, q ≠ t.place p.text → q ≠ t.place (temporaryPath t.process p) →
    t'.get? q = t.get? q ∨ t.get? q = none ∧ t'.get? q = some .directory

namespace Stored

theorem changesOnly (h : Stored p content t t') :
    t.ChangesOnly [t.place (temporaryPath t.process p), t.place p.text] t' := by
  refine ⟨h.base, h.process, fun q hq => ?_⟩
  simp only [List.mem_cons, List.not_mem_nil, or_false, not_or] at hq
  exact h.others q hq.2 hq.1

theorem read (h : Stored p content t t') : t'.read p.text = .ok content := by
  have hplace : t'.place p.text = t.place p.text := FileTree.place_congr h.base _
  rw [h.writable.read_eq_ok_iff, hplace, FileTree.bytesAt_eq_some]
  exact h.file

end Stored

theorem stored_of_writeAtomic_ok {r : Unit} (h : writeAtomic p content t = (.ok r, t')) :
    Stored p content t t' := by
  obtain ⟨hparents, hrun⟩ := writeThrough_of_writeAtomic_ok h
  have hadds := withParents_adds p t
  have hget := get?_of_writeThrough_ok hrun
  obtain ⟨t₁, hwrite, hrename, hheld⟩ := writeThrough_eq_ok hrun
  rw [hadds.process] at hwrite hrename hheld
  simp only [hadds.process, FileTree.place_congr hadds.base] at hget
  have hplace₁ : ∀ text, t₁.place text = t.place text :=
    FileTree.place_congr ((FileTree.base_write hwrite).1.trans hadds.base)
  have hold : t₁.bytesAt (t₁.place (temporaryPath t.process p)) = some content := by
    rw [FileTree.bytesAt_write hwrite, if_pos]
    rw [hplace₁, FileTree.place_congr hadds.base]
  have hdirectories : FileTree.HasDirectories (withParents p t) t' :=
    (FileTree.HasDirectories.of_write hwrite).trans (.of_renameFile hold hrename)
  have hbase : t'.base = t.base ∧ t'.process = t.process := base_of_writeAtomic h
  have hne : t.place (temporaryPath t.process p) ≠ t.place p.text :=
    place_temporaryPath_ne_of_writeAtomic_ok h
  have hfile : t'.get? (t.place p.text) = some (.file content) := by rw [hget, if_pos rfl]
  have hgone : t'.get? (t.place (temporaryPath t.process p)) = none := by
    rw [hget, if_neg hne, if_pos rfl]
  exact {
    base := hbase.1
    process := hbase.2
    locking := hheld
    directories := (FileTree.HasDirectories.of_addsDirectories hadds).trans hdirectories
    parents := hparents.mono hdirectories
    writable := by
      refine (FileTree.Writable.of_renameFile hrename).mono (.of_renameFile hold hrename) ?_
      rw [hplace₁, hfile]
      exact nofun
    temporary := by
      refine (FileTree.Writable.of_write hwrite).mono hdirectories ?_
      rw [FileTree.place_congr hadds.base, hgone]
      exact nofun
    file := hfile
    gone := hgone
    others := fun q hq hq' => by
      rw [hget, if_neg hq, if_neg hq']
      exact hadds.adds q }

/-! ## Failure -/

/-- Where a write may have stopped: directories were made, and then perhaps bytes, not always all of
them, were written to the temporary file. -/
inductive BrokenOff (p : Path) (t : FileTree) : FileTree → Prop where
  | before {u : FileTree} : AddsDirectories t u → BrokenOff p t u
  | within {t₁ u : FileTree} (part : ByteArray) : AddsDirectories t t₁ →
      t₁.write (temporaryPath t.process p) part = .ok u → BrokenOff p t u

theorem brokenOff_of_writeAtomic_error {e : FileError}
    (h : writeAtomic p content t = (.error e, t')) : BrokenOff p t t' := by
  obtain ⟨-, t₁, hadds, rfl | hwrite⟩ := writeAtomic_eq_error h
  · exact .before hadds
  · exact .within _ hadds hwrite

namespace BrokenOff

theorem keepsFiles (h : BrokenOff p t u) :
    t.KeepsFiles (t.place (temporaryPath t.process p)) u := by
  cases h with
  | before hadds =>
    exact .of_changesOnly (.of_addsDirectories hadds _) (.of_addsDirectories hadds)
  | @within t₁ _ part hadds hwrite =>
    have hframe := FileTree.ChangesOnly.of_write hwrite
    rw [FileTree.place_congr hadds.base] at hframe
    have hdirectories : FileTree.HasDirectories t u :=
      (FileTree.HasDirectories.of_addsDirectories hadds).trans (.of_write hwrite)
    exact .of_changesOnly ((FileTree.ChangesOnly.of_addsDirectories hadds []).trans hframe)
      hdirectories

/-- A file at the path itself is as it was. -/
theorem read (h : BrokenOff p t u) {old : ByteArray} (hold : t.read p.text = .ok old) :
    u.read p.text = .ok old :=
  h.keepsFiles.read p.text old (FileTree.place_ne_of_read hold) hold

end BrokenOff

/-! ## All or nothing -/

/-- Writing at one stroke is all or nothing.  Where it succeeds, the path reads the bytes, nothing
stands where the temporary file was, and every other file is as it was.  Where it fails, every file
but the temporary one is as it was, and so is the file at the path, if there is one.  The same holds
wherever it is broken off, also within the bytes of the temporary file. -/
theorem writeAtomic_allOrNothing (p : Path) (content : ByteArray) (t : FileTree) :
    ∃ r t', writeAtomic p content t = (r, t') ∧
      (r = .ok () →
        t'.read p.text = .ok content ∧
        t'.get? (t.place (temporaryPath t.process p)) = none ∧
        t'.has (temporaryPath t.process p) = false ∧
        ∀ q, q ≠ t.place p.text → q ≠ t.place (temporaryPath t.process p) →
          t'.bytesAt q = t.bytesAt q) ∧
      (∀ e, r = .error e →
        t.KeepsFiles (t.place (temporaryPath t.process p)) t' ∧
        ∀ old, t.read p.text = .ok old → t'.read p.text = .ok old) ∧
      ∀ u, BrokenOff p t u →
        t.KeepsFiles (t.place (temporaryPath t.process p)) u ∧
        ∀ old, t.read p.text = .ok old → u.read p.text = .ok old := by
  rcases hrun : writeAtomic p content t with ⟨r, t'⟩
  refine ⟨r, t', rfl, ?_, ?_, fun u hu => ⟨hu.keepsFiles, fun old => hu.read⟩⟩
  · rintro rfl
    have hstored := stored_of_writeAtomic_ok hrun
    refine ⟨hstored.read, hstored.gone, ?_, fun q hq hq' => ?_⟩
    · have hgone := hstored.gone
      rw [← FileTree.place_congr hstored.base] at hgone
      rw [FileTree.has]
      cases hentry : t'.entry (temporaryPath t.process p) with
      | error cause => rfl
      | ok e =>
        rw [FileTree.get?_place_of_entry hentry] at hgone
        cases hgone
    · exact hstored.changesOnly.bytesAt (by simp [hq, hq'])
  · rintro e rfl
    have hbroken := brokenOff_of_writeAtomic_error hrun
    exact ⟨hbroken.keepsFiles, fun old => hbroken.read⟩

/-! ## Writing again -/

/-- A file is written where its directory is there, no directory has its name or that of the
temporary file, and the lock is had. -/
theorem exists_writeAtomic (hlock : t.process.locking p.text = .held)
    (hparents : t.HasParents p) (hp : t.Writable p.text)
    (htemporary : t.Writable (temporaryPath t.process p)) (content : ByteArray) :
    ∃ t', writeAtomic p content t = (.ok (), t') ∧ ∀ q,
      t'.get? q = if q = t.place p.text then some (.file content)
        else if q = t.place (temporaryPath t.process p) then none else t.get? q := by
  obtain ⟨t₁, hwrite⟩ := FileTree.exists_write htemporary content
  have hplace : ∀ text, t₁.place text = t.place text :=
    FileTree.place_congr (FileTree.base_write hwrite).1
  have hdirectories : FileTree.HasDirectories t t₁ := .of_write hwrite
  have hne := hp.place_temporaryPath_ne
  have hold : t₁.bytesAt (t₁.place (temporaryPath t.process p)) = some content := by
    rw [FileTree.bytesAt_write hwrite, if_pos (hplace _)]
  have htemporary₁ : t₁.Writable (temporaryPath t.process p) := by
    refine htemporary.mono hdirectories ?_
    rw [FileTree.get?_write hwrite, if_pos rfl]
    exact nofun
  have hp₁ : t₁.Writable p.text := by
    refine hp.mono hdirectories ?_
    rw [FileTree.get?_write hwrite, if_neg hne.symm]
    exact hp.get?_ne
  obtain ⟨t', hrename⟩ := FileTree.exists_renameFile htemporary₁ hold hp₁
  have hrun : writeThrough p content t = (.ok (), t') := writeThrough_of_steps hlock hwrite hrename
  refine ⟨t', ?_, get?_of_writeThrough_ok hrun⟩
  rw [writeAtomic_of_hasParents hparents, hrun]

namespace FileTree

/-! A write that changes nothing keeps the entries in their order. -/

theorem putIn_self {entries : List (Place × Entry)} {q : Place} {e : Entry}
    (h : find? q entries = some e) : putIn entries q e = entries := by
  induction entries with
  | nil => cases h
  | cons x rest ih =>
    obtain ⟨p, old⟩ := x
    rw [find?_cons] at h
    rw [putIn_cons]
    by_cases hp : p = q
    · rw [if_pos hp] at h
      rw [if_pos hp, Option.some.inj h]
    · rw [if_neg hp] at h
      rw [if_neg hp, ih h]

theorem putIn_new {entries : List (Place × Entry)} {q : Place} (h : find? q entries = none)
    (e : Entry) : putIn entries q e = entries ++ [(q, e)] := by
  induction entries with
  | nil => rfl
  | cons x rest ih =>
    obtain ⟨p, old⟩ := x
    rw [find?_cons] at h
    rw [putIn_cons]
    by_cases hp : p = q
    · rw [if_pos hp] at h
      cases h
    · rw [if_neg hp] at h
      rw [if_neg hp, ih h, List.cons_append]

theorem find?_isSome_of_mem {entries : List (Place × Entry)} {q : Place} {e : Entry}
    (h : (q, e) ∈ entries) : (find? q entries).isSome = true := by
  induction entries with
  | nil => cases h
  | cons x rest ih =>
    obtain ⟨p, old⟩ := x
    rw [find?_cons]
    by_cases hp : p = q
    · rw [if_pos hp]
      rfl
    · rw [if_neg hp]
      refine ih ((List.mem_cons.mp h).resolve_left fun he => hp ?_)
      exact (congrArg Prod.fst he).symm

/-- Putting what is there does nothing. -/
theorem put_self {name : String} {around : Place} {e : Entry}
    (h : t.get? (name :: around) = some e) : t.put name around e = t := by
  rw [put]
  split
  · exact eq_of_entries (putIn_self (by simpa [get?, lookupIn] using h)) rfl rfl
  · rfl

/-- Nothing stands below a place where nothing stands. -/
theorem get?_below_none {top : Place} (h : t.get? top = none) :
    ∀ q, under top q = true → t.get? q = none
  | [], hu => by
    simp only [under, List.isSuffixOf_iff_suffix, List.suffix_nil] at hu
    rwa [hu] at h
  | name :: around, hu => by
    simp only [under, List.isSuffixOf_iff_suffix] at hu
    rcases List.suffix_cons_iff.mp hu with rfl | hsuffix
    · exact h
    · -- what stands here would stand in a directory, where nothing stands either
      have haround := get?_below_none h around (by simpa [under, List.isSuffixOf_iff_suffix])
      cases hq : t.get? (name :: around) with
      | none => rfl
      | some e =>
        rw [get?_around hq] at haround
        cases haround

/-- Putting an entry where nothing stood and taking it out again does nothing. -/
theorem remove_put {name : String} {around : Place} (hnone : t.get? (name :: around) = none)
    (e : Entry) : (t.put name around e).remove name around = t := by
  have hfind : find? (name :: around) t.entries = none := by simpa [get?, lookupIn] using hnone
  have hkeep : dropIn t.entries (under (name :: around)) = t.entries := by
    refine List.filter_eq_self.mpr fun x hx => ?_
    rw [Bool.not_eq_true']
    by_contra hunder
    rw [Bool.not_eq_false] at hunder
    have hbelow := get?_below_none hnone x.1 hunder
    have hsome := find?_isSome_of_mem hx
    have hroot : x.1 ≠ [] := by
      intro hempty
      simp [hempty, under, List.isSuffixOf] at hunder
    rw [get?, lookupIn, if_neg hroot] at hbelow
    rw [hbelow] at hsome
    cases hsome
  have hdrop : dropIn [(name :: around, e)] (under (name :: around)) = [] := by
    simp [dropIn, under, List.isSuffixOf_iff_suffix]
  rw [put]
  split
  · refine eq_of_entries ?_ rfl rfl
    show dropIn (putIn t.entries (name :: around) e) (under (name :: around)) = t.entries
    rw [putIn_new hfind, dropIn, List.filter_append]
    show dropIn t.entries _ ++ dropIn [(name :: around, e)] _ = t.entries
    rw [hkeep, hdrop, List.append_nil]
  · exact eq_of_entries hkeep rfl rfl

end FileTree

/-- A file that has its bytes already, in a directory that is there, with no temporary file beside it
and a lock that can be had. -/
structure AtRest (p : Path) (content : ByteArray) (t : FileTree) : Prop where
  locking : t.process.locking p.text = .held
  parents : t.HasParents p
  read : t.read p.text = .ok content
  temporary : t.Writable (temporaryPath t.process p)
  gone : t.get? (t.place (temporaryPath t.process p)) = none

/-- Every file that was written is at rest. -/
theorem Stored.atRest (h : Stored p content t t') : AtRest p content t' where
  locking := by
    rw [h.process]
    exact h.locking
  parents := h.parents
  read := h.read
  temporary := by
    rw [h.process]
    exact h.temporary
  gone := by
    rw [h.process, FileTree.place_congr h.base]
    exact h.gone

/-- Writing the bytes of a file that is at rest leaves the tree as it is, entry for entry. -/
theorem AtRest.writeAtomic_eq (h : AtRest p content t) : writeAtomic p content t = (.ok (), t) := by
  obtain ⟨hlock, hparents, hread, htemporary, hgone⟩ := h
  have hp : t.Writable p.text := .of_read hread
  have hfile : t.get? (t.place p.text) = some (.file content) :=
    FileTree.bytesAt_eq_some.mp (FileTree.bytesAt_place_of_read hread)
  obtain ⟨t', hrun, -⟩ := exists_writeAtomic hlock hparents hp htemporary content
  have hthrough := hrun
  rw [writeAtomic_of_hasParents hparents] at hthrough
  obtain ⟨t₁, hwrite, hrename, -⟩ := writeThrough_eq_ok hthrough
  obtain ⟨name, around, hnames, hmay, rfl⟩ := FileTree.write_eq_ok hwrite
  obtain ⟨name', around', c, last, before, hold, hnew, -, -, hc, -, hresult⟩ :=
    FileTree.renameFile_eq_ok hrename
  -- both changes are about the places of the temporary file and of the file in the first tree
  have hplace : ∀ text, (t.put name around (.file content)).place text = t.place text :=
    FileTree.place_congr (FileTree.base_put ..)
  have hsource : name' :: around' = name :: around := by
    rw [← hold.place, hplace, hnames.place]
  have htarget : last :: before = t.place p.text := by rw [← hnew.place, hplace]
  have hne : name :: around ≠ last :: before := by
    rw [htarget, ← hnames.place]
    exact hp.place_temporaryPath_ne
  have hcontent : c = content := by
    rw [hsource, FileTree.get?_put hmay, if_pos rfl] at hc
    exact (Entry.file.inj (Option.some.inj hc)).symm
  obtain ⟨rfl, rfl⟩ := List.cons.inj hsource
  have hsame : (t.put name' around' (.file content)).get? (last :: before) =
      some (.file content) := by
    rw [FileTree.get?_put hmay, if_neg hne.symm, htarget, hfile]
  rw [if_neg hne, hcontent, FileTree.put_self hsame, FileTree.remove_put] at hresult
  · rw [hrun, hresult]
  · rw [← hnames.place]
    exact hgone

end BootTree

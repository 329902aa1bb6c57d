/-
  What steps leave alone.

  A step that succeeds takes no directory away and changes no files but those that it writes
  (`FileStep.changesOnly`), and so do steps one after another (`changesOnly_runSteps`).  A file goes
  away only where it was a temporary one (`FileStep.bytesAt_isSome`), so it turns into a directory
  only if a directory comes to stand where a step had its temporary file (`Unobstructed`).
-/
import BootTree.Proofs.Files.Atomic
import BootTree.Proofs.Files.Settle
import BootTree.Proofs.Sync.Steps

namespace BootTree

variable {t t' : FileTree} {source destination p : Path} {missing? : Option SyncError}
  {content : String} {step : FileStep} {steps : List FileStep}

/-! ## Steps that succeed -/

namespace FileStep

theorem run_directory_eq_ok : (directory p).run t = (.ok (), t') ↔
    ensureDirectory p t = (.ok (), t') := Change.mapError_eq_ok

theorem run_store_eq_ok : (store p content).run t = (.ok (), t') ↔
    writeAtomic p content.toUTF8 t = (.ok (), t') := Change.mapError_eq_ok

/-- A stage that succeeds passed over a source that is no file, or copied it if it had to. -/
theorem run_stage_eq_ok : (stage source destination missing?).run t = (.ok (), t') ↔
    (t.isFile source.text = false ∧ missing? = none ∧ t' = t) ∨
    (t.isFile source.text = true ∧ ∃ status,
      copyIfChanged source destination t = (.ok status, t')) := by
  cases hfile : t.isFile source.text with
  | false =>
    rw [run_stage_missing hfile]
    cases missing? with
    | none =>
      refine ⟨fun h => .inl ⟨rfl, rfl, (congrArg Prod.snd h).symm⟩, ?_⟩
      rintro (⟨-, -, rfl⟩ | ⟨hfound, -⟩)
      · rfl
      · cases hfound
    | some e =>
      refine ⟨nofun, ?_⟩
      rintro (⟨-, hnone, -⟩ | ⟨hfound, -⟩)
      · cases hnone
      · cases hfound
  | true =>
    rw [run_stage hfile]
    have hfiles : ∀ status, Pxe.ofFiles (copyIfChanged source destination) t = (.ok status, t') ↔
        copyIfChanged source destination t = (.ok status, t') := fun _ => Change.mapError_eq_ok
    simp only [← hfiles]
    rcases Pxe.ofFiles (copyIfChanged source destination) t with ⟨r, t₁⟩
    cases r with
    | error e =>
      refine ⟨nofun, ?_⟩
      rintro (⟨hmissing, -⟩ | ⟨-, status, hcopy⟩)
      · cases hmissing
      · cases hcopy
    | ok status =>
      refine ⟨fun h => ?_, ?_⟩
      · cases h
        exact .inr ⟨trivial, status, rfl⟩
      rintro (⟨hmissing, -⟩ | ⟨-, status', hcopy⟩)
      · cases hmissing
      · cases hcopy
        rfl

end FileStep

/-! ## Single steps -/

namespace FileStep

/-- A step takes no directory away. -/
theorem hasDirectories (h : step.run t = (.ok (), t')) : FileTree.HasDirectories t t' := by
  cases step with
  | directory p =>
    have hadds := ensureDirectory_adds p t
    rw [run_directory_eq_ok.mp h] at hadds
    exact .of_addsDirectories hadds
  | stage source destination missing? =>
    rcases run_stage_eq_ok.mp h with ⟨-, -, rfl⟩ | ⟨-, status, hcopy⟩
    · exact .refl t'
    · obtain ⟨bytes, hsettles⟩ := settles_of_copyIfChanged hcopy
      exact .of_iff hsettles.base hsettles.directories
  | store p content => exact (stored_of_writeAtomic_ok (run_store_eq_ok.mp h)).directories
  | stop e => cases h

/-- A step changes no files but those that it writes. -/
theorem changesOnly (h : step.run t = (.ok (), t')) : t.ChangesOnly (step.writes t) t' := by
  cases step with
  | directory p =>
    have hadds := ensureDirectory_adds p t
    rw [run_directory_eq_ok.mp h] at hadds
    exact .of_addsDirectories hadds _
  | stage source destination missing? =>
    rcases run_stage_eq_ok.mp h with ⟨-, -, rfl⟩ | ⟨hfile, status, hcopy⟩
    · exact .refl _ t'
    · rcases copyIfChanged_cases hcopy with
        ⟨-, rfl, -⟩ | ⟨hcopied, bytes, -, hwrite⟩ | ⟨e, hfailed, -⟩
      · exact .refl _ t'
      · have hwrites : writes t (.stage source destination missing?) =
            [t.place destination.text] := by
          rw [writes, if_pos ⟨hfile, by rw [hcopy, hcopied]⟩]
        rw [hwrites]
        exact .of_write hwrite
      · cases hfailed
  | store p content => exact (stored_of_writeAtomic_ok (run_store_eq_ok.mp h)).changesOnly
  | stop e => cases h

/-- A file stays a file, unless it was a temporary one. -/
theorem bytesAt_isSome (h : step.run t = (.ok (), t')) {q : Place}
    (hq : (t.bytesAt q).isSome = true) : (t'.bytesAt q).isSome = true ∨
      ∃ p content, step = .store p content ∧ q = t.place (temporaryPath t.process p) := by
  cases step with
  | directory p =>
    rw [(changesOnly h).bytesAt (by simp [writes])]
    exact .inl hq
  | stage source destination missing? =>
    rcases run_stage_eq_ok.mp h with ⟨-, -, rfl⟩ | ⟨-, status, hcopy⟩
    · exact .inl hq
    · obtain ⟨bytes, hsettles⟩ := settles_of_copyIfChanged hcopy
      refine .inl ?_
      rw [hsettles.bytesAt]
      split
      · exact settle_isSome _ bytes
      · exact hq
  | store p content =>
    have hstored := stored_of_writeAtomic_ok (run_store_eq_ok.mp h)
    by_cases htemporary : q = t.place (temporaryPath t.process p)
    · exact .inr ⟨p, content, rfl, htemporary⟩
    · refine .inl ?_
      by_cases hp : q = t.place p.text
      · rw [hp, FileTree.bytesAt_eq_some.mpr hstored.file]
        rfl
      · rw [hstored.changesOnly.bytesAt (by simp [hp, htemporary])]
        exact hq
  | stop e => cases h

end FileStep

/-! ## Steps one after another -/

section Run

variable {final : FileTree}

theorem hasDirectories_runSteps (h : runSteps steps t = (.ok (), t')) :
    FileTree.HasDirectories t t' := by
  induction steps generalizing t with
  | nil =>
    cases h
    exact .refl _
  | cons step rest ih =>
    obtain ⟨t₁, hstep, hrest⟩ := runSteps_cons_eq_ok.mp h
    exact (FileStep.hasDirectories hstep).trans (ih hrest)

/-- Steps change no files but those that they write. -/
theorem changesOnly_runSteps (h : runSteps steps t = (.ok (), t')) :
    t.ChangesOnly (written steps t) t' := by
  induction steps generalizing t with
  | nil =>
    cases h
    exact .refl _ _
  | cons step rest ih =>
    obtain ⟨t₁, hstep, hrest⟩ := runSteps_cons_eq_ok.mp h
    rw [written, hstep]
    exact (FileStep.changesOnly hstep).trans (ih hrest)

/-- Each of the steps ran on a tree in between. -/
theorem exists_run_of_mem (h : runSteps steps t = (.ok (), final)) (hmem : step ∈ steps) :
    ∃ t₁ t₂, step.run t₁ = (.ok (), t₂) ∧ FileTree.HasDirectories t t₁ ∧
      FileTree.HasDirectories t₂ final ∧ t₁.process = t.process := by
  obtain ⟨before, after, rfl⟩ := List.append_of_mem hmem
  obtain ⟨t₁, hbefore, hrest⟩ := runSteps_append_eq_ok.mp h
  obtain ⟨t₂, hstep, hafter⟩ := runSteps_cons_eq_ok.mp hrest
  exact ⟨t₁, t₂, hstep, hasDirectories_runSteps hbefore, hasDirectories_runSteps hafter,
    (changesOnly_runSteps hbefore).process⟩

/-- What steps write can be told from the steps alone. -/
theorem exists_destination_of_mem_written (h : runSteps steps t = (.ok (), t')) {q : Place}
    (hq : q ∈ written steps t) : ∃ step ∈ steps, q ∈ step.destinations t := by
  induction steps generalizing t with
  | nil => cases hq
  | cons step rest ih =>
    obtain ⟨t₁, hstep, hrest⟩ := runSteps_cons_eq_ok.mp h
    have hframe := FileStep.changesOnly hstep
    rw [written, hstep] at hq
    rcases List.mem_append.mp hq with hq | hq
    · exact ⟨step, List.mem_cons_self, step.writes_subset t hq⟩
    · obtain ⟨later, hmem, hq⟩ := ih hrest hq
      rw [later.destinations_congr hframe.base hframe.process] at hq
      exact ⟨later, List.mem_cons_of_mem _ hmem, hq⟩

/-- No directory is where one of the steps has its temporary file. -/
def Unobstructed (final : FileTree) (steps : List FileStep) : Prop :=
  ∀ p content, FileStep.store p content ∈ steps →
    final.get? (final.place (temporaryPath final.process p)) ≠ some .directory

theorem Unobstructed.tail (h : Unobstructed final (step :: steps)) : Unobstructed final steps :=
  fun p content hmem => h p content (List.mem_cons_of_mem _ hmem)

/-- Steps that succeed found no directory there. -/
theorem unobstructed_of_ok (h : runSteps steps t = (.ok (), t')) : Unobstructed t steps := by
  intro p content hmem hdirectory
  obtain ⟨t₁, t₂, hrun, hbefore, -, hprocess⟩ := exists_run_of_mem h hmem
  have hstored := stored_of_writeAtomic_ok (FileStep.run_store_eq_ok.mp hrun)
  have hthere := hstored.directories.keeps _ (hbefore.keeps _ hdirectory)
  rw [← hprocess, ← FileTree.place_congr hbefore.base, hstored.gone] at hthere
  cases hthere

/-- Where a file was, steps leave no directory. -/
theorem get?_ne_of_runSteps (h : runSteps steps t = (.ok (), final))
    (hclear : Unobstructed final steps) {q : Place} (hq : (t.bytesAt q).isSome = true) :
    final.get? q ≠ some .directory := by
  induction steps generalizing t with
  | nil =>
    cases h
    intro hdirectory
    rw [FileTree.bytesAt, hdirectory] at hq
    cases hq
  | cons step rest ih =>
    obtain ⟨t₁, hstep, hrest⟩ := runSteps_cons_eq_ok.mp h
    rcases FileStep.bytesAt_isSome hstep hq with hstays | ⟨p, content, rfl, rfl⟩
    · exact ih hrest hclear.tail hstays
    · have hframe := changesOnly_runSteps h
      have hunobstructed := hclear p content List.mem_cons_self
      rwa [hframe.process, FileTree.place_congr hframe.base] at hunobstructed

end Run

end BootTree

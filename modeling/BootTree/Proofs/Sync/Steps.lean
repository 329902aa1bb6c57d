/-
  A full pass as a list of steps.

  1. **Steps** — `FileStep`: a directory is made, a file is staged from another one, or a text is
     stored.  A pass chooses its steps from the settings, the registry and the menu alone; only what
     a step does depends on the tree (`FileStep.run`, `FileStep.writes`).

  2. **Performing** — `Performs x steps`: the change does what the steps do, one after another, and
     stops where they do.  There is a rule for every way in which changes are put together, so the
     steps of a pass are found along its text.

  3. **The boot files** — the steps of the single calls (`Pxe.loaderSteps`, `Pxe.distroSteps`,
     `Pxe.imageSteps`, `Pxe.hostSteps`) and of a whole pass (`Pxe.passSteps`).
-/
import BootTree.Proofs.Files.Write
import BootTree.Sync.Pxe

namespace BootTree

/-! ## Steps -/

/-- A step of a pass.  A source that is no file is passed over, or it is an error. -/
inductive FileStep where
  | directory (p : Path)
  | stage (source destination : Path) (missing? : Option SyncError)
  | store (p : Path) (content : String)
  | stop (e : SyncError)

namespace FileStep

/-- What a step does to the tree. -/
def run : FileStep → Change SyncError Unit
  | .directory p => Pxe.ofFiles (ensureDirectory p)
  | .stage source destination missing? => fun t =>
    if t.isFile source.text then
      match Pxe.ofFiles (copyIfChanged source destination) t with
      | (.ok _, t') => (.ok (), t')
      | (.error e, t') => (.error e, t')
    else
      match missing? with
      | some e => (.error e, t)
      | none => (.ok (), t)
  | .store p content => Pxe.ofFiles (writeText p content)
  | .stop e => fun t => (.error e, t)

section Stage

variable {source destination : Path} {missing? : Option SyncError} {t : FileTree}

theorem run_stage (h : t.isFile source.text = true) :
    (FileStep.stage source destination missing?).run t =
      match Pxe.ofFiles (copyIfChanged source destination) t with
      | (.ok _, t') => (.ok (), t')
      | (.error e, t') => (.error e, t') := by
  rw [run]
  exact if_pos h

theorem run_stage_missing (h : t.isFile source.text = false) :
    (FileStep.stage source destination missing?).run t =
      match missing? with
      | some e => (.error e, t)
      | none => (.ok (), t) := by
  rw [run]
  exact if_neg (by simp [h])

end Stage

/-- The places of the files that a step writes, temporary files included. -/
def writes (t : FileTree) : FileStep → List Place
  | .stage source destination _ =>
    if t.isFile source.text ∧ (copyIfChanged source destination t).1 = .ok .copied then
      [t.place destination.text]
    else []
  | .store p _ => [t.place (temporaryPath t.process p), t.place p.text]
  | .directory _ | .stop _ => []

/-- The places of the files that a step may write, on whatever tree. -/
def destinations (t : FileTree) : FileStep → List Place
  | .stage _ destination _ => [t.place destination.text]
  | .store p _ => [t.place (temporaryPath t.process p), t.place p.text]
  | .directory _ | .stop _ => []

theorem writes_subset (t : FileTree) (step : FileStep) : step.writes t ⊆ step.destinations t := by
  cases step with
  | stage source destination missing? =>
    rw [writes]
    split
    · exact List.Subset.refl _
    · exact List.nil_subset _
  | directory p => exact List.Subset.refl _
  | store p content => exact List.Subset.refl _
  | stop e => exact List.Subset.refl _

theorem destinations_congr {t t' : FileTree} (hbase : t'.base = t.base)
    (hprocess : t'.process = t.process) (step : FileStep) :
    step.destinations t' = step.destinations t := by
  cases step <;> simp only [destinations, FileTree.place_congr hbase, hprocess]

end FileStep

/-- Steps one after another, up to the first one that fails. -/
def runSteps (steps : List FileStep) : Change SyncError Unit := steps.forM FileStep.run

/-- The places of the files that steps write when they are run on a tree. -/
def written : List FileStep → FileTree → List Place
  | [], _ => []
  | step :: rest, t => step.writes t ++ written rest (step.run t).2

section Run

variable {step : FileStep} {before rest : List FileStep} {t t' : FileTree}

theorem runSteps_cons (step : FileStep) (rest : List FileStep) :
    runSteps (step :: rest) = step.run >>= fun _ => runSteps rest := rfl

theorem runSteps_single (step : FileStep) (t : FileTree) : runSteps [step] t = step.run t := by
  rw [runSteps_cons, run_bind]
  rcases step.run t with ⟨r, t'⟩
  cases r <;> rfl

theorem runSteps_append (before rest : List FileStep) :
    runSteps (before ++ rest) = runSteps before >>= fun _ => runSteps rest :=
  List.forM_append

theorem runSteps_cons_eq_ok : runSteps (step :: rest) t = (.ok (), t') ↔
    ∃ t₁, step.run t = (.ok (), t₁) ∧ runSteps rest t₁ = (.ok (), t') := by
  rw [runSteps_cons, run_bind_eq_ok]
  exact ⟨fun ⟨_, t₁, h, h'⟩ => ⟨t₁, h, h'⟩, fun ⟨t₁, h, h'⟩ => ⟨(), t₁, h, h'⟩⟩

theorem runSteps_append_eq_ok : runSteps (before ++ rest) t = (.ok (), t') ↔
    ∃ t₁, runSteps before t = (.ok (), t₁) ∧ runSteps rest t₁ = (.ok (), t') := by
  rw [runSteps_append, run_bind_eq_ok]
  exact ⟨fun ⟨_, t₁, h, h'⟩ => ⟨t₁, h, h'⟩, fun ⟨t₁, h, h'⟩ => ⟨(), t₁, h, h'⟩⟩

end Run

/-! ## Performing steps -/

/-- A change does what the steps do: it succeeds where they do, fails where they do, with the same
error, and leaves the same tree. -/
def Performs {α : Type} (x : Change SyncError α) (steps : List FileStep) : Prop :=
  ∀ t, ((x t).1.map fun _ => (), (x t).2) = runSteps steps t

namespace Performs

variable {α β γ : Type} {x : Change SyncError α} {steps rest : List FileStep} {t t' : FileTree}

theorem ok_iff (h : Performs x steps) :
    (∃ a, x t = (.ok a, t')) ↔ runSteps steps t = (.ok (), t') := by
  rw [← h t]
  rcases x t with ⟨r, t₁⟩
  cases r with
  | error e => exact ⟨nofun, nofun⟩
  | ok a =>
    refine ⟨fun ⟨b, hb⟩ => ?_, fun hrun => ⟨a, ?_⟩⟩
    · cases hb
      rfl
    · cases hrun
      rfl

theorem pure (a : α) : Performs (Pure.pure a : Change SyncError α) [] := fun _ => rfl

theorem single {x : Change SyncError Unit} {step : FileStep} (h : x = step.run) :
    Performs x [step] := by
  intro t
  rw [runSteps_single, h]
  rcases step.run t with ⟨r, t'⟩
  cases r <;> rfl

theorem bind {f : α → Change SyncError β} (hx : Performs x steps)
    (hf : ∀ a, Performs (f a) rest) : Performs (x >>= f) (steps ++ rest) := by
  intro t
  rw [runSteps_append, run_bind, run_bind, ← hx t]
  rcases x t with ⟨r, t₁⟩
  cases r with
  | error e => rfl
  | ok a => exact hf a t₁

/-- What is made of the result does nothing to the tree. -/
theorem bind_pure {f : α → β} (hx : Performs x steps) :
    Performs (x >>= fun a => Pure.pure (f a)) steps := by
  have h := hx.bind fun a => Performs.pure (f a)
  rwa [List.append_nil] at h

theorem foldlM {f : β → γ → Change SyncError β} {each : γ → List FileStep}
    (h : ∀ b c, Performs (f b c) (each c)) (b : β) (cs : List γ) :
    Performs (cs.foldlM f b) (cs.flatMap each) := by
  induction cs generalizing b with
  | nil => exact .pure b
  | cons c cs ih =>
    rw [List.foldlM_cons, List.flatMap_cons]
    exact (h b c).bind fun b' => ih b'

theorem forM {f : γ → Change SyncError PUnit} {each : γ → List FileStep}
    (h : ∀ c, Performs (f c) (each c)) (cs : List γ) :
    Performs (cs.forM f) (cs.flatMap each) := by
  induction cs with
  | nil => exact .pure _
  | cons c cs ih =>
    rw [List.flatMap_cons]
    exact (h c).bind fun _ => ih

end Performs

/-! ## The process -/

/-- A step does not pass to another process, whatever comes of it. -/
theorem FileStep.process_run (step : FileStep) (t : FileTree) :
    (step.run t).2.process = t.process := by
  cases step with
  | directory p =>
    rw [run, Pxe.ofFiles, Change.mapError_snd]
    exact (ensureDirectory_adds p t).process
  | stage source destination missing? =>
    cases hfile : t.isFile source.text with
    | false =>
      rw [run_stage_missing hfile]
      cases missing? <;> rfl
    | true =>
      have hcopy : (Pxe.ofFiles (copyIfChanged source destination) t).2.process = t.process := by
        rw [Pxe.ofFiles, Change.mapError_snd]
        exact (base_of_copyIfChanged rfl).2
      rw [run_stage hfile]
      rcases hrun : Pxe.ofFiles (copyIfChanged source destination) t with ⟨r, t₁⟩
      rw [hrun] at hcopy
      cases r with
      | error e => exact hcopy
      | ok status => exact hcopy
  | store p content =>
    rw [run, Pxe.ofFiles, Change.mapError_snd]
    exact (base_of_writeAtomic rfl).2
  | stop e => rfl

theorem process_runSteps (steps : List FileStep) (t : FileTree) :
    (runSteps steps t).2.process = t.process := by
  induction steps generalizing t with
  | nil => rfl
  | cons step rest ih =>
    have hfirst := step.process_run t
    rw [runSteps_cons, run_bind]
    rcases hrun : step.run t with ⟨r, t₁⟩
    rw [hrun] at hfirst
    cases r with
    | error e => exact hfirst
    | ok u => exact (ih t₁).trans hfirst

theorem Performs.process {α : Type} {x : Change SyncError α} {steps : List FileStep}
    (h : Performs x steps) (t : FileTree) : (x t).2.process = t.process := by
  rw [show (x t).2 = (runSteps steps t).2 from congrArg Prod.snd (h t)]
  exact process_runSteps steps t

/-! ## The steps of a pass -/

namespace Pxe

/-- Staging the loaders. -/
def loaderSteps (ctx : Context) : List FileStep :=
  .directory ctx.settings.bootRoot :: ctx.settings.loaders.map fun loader =>
    .stage ((Path.ofText ctx.settings.loadersDirectory).join loader)
      (ctx.settings.bootRoot.join loader) none

/-- Staging an artifact, which must be there. -/
def artifactStep (owner artifact : String) (directory : Path) : FileStep :=
  .stage (.ofText artifact) (directory.join (artifactName artifact))
    (some (.missingArtifact owner artifact))

/-- Staging kernel and ram disk of a distribution. -/
def distroSteps (ctx : Context) (d : Distro) : List FileStep :=
  let directory := imageDirectory ctx.settings d.name
  [.directory directory, artifactStep d.name d.kernel directory,
    artifactStep d.name d.initrd directory]

/-- Staging an image that stands for itself. -/
def imageSteps (ctx : Context) (image : Image) : List FileStep :=
  let directory := (ctx.settings.bootRoot.join "images2").join image.name
  [.directory directory, artifactStep image.name image.file directory]

/-- The path of a boot file. -/
def bootPath (ctx : Context) (name : String) : Path := (configDirectory ctx.settings).join name

/-- Storing the boot files of a host. -/
def hostSteps (ctx : Context) (menu : Menu) (host : Host) : List FileStep :=
  match hostConfig host menu with
  | .ok content => (bootFileNames host).map fun name => .store (bootPath ctx name) content
  | .error e => [.stop e]

/-- The end of a pass: the boot files of some hosts, then the menu. -/
def endingSteps (ctx : Context) (menu : Menu) (hosts : List Host) : List FileStep :=
  hosts.flatMap (hostSteps ctx menu) ++ [.store (menuPath ctx.settings) menu.render]

/-- A full pass. -/
def passSteps (ctx : Context) (menu : Menu) : List FileStep :=
  loaderSteps ctx ++ ctx.registry.distros.flatMap (distroSteps ctx) ++
    ctx.registry.images.flatMap (imageSteps ctx) ++ endingSteps ctx menu ctx.registry.hosts

variable (ctx : Context)

/-- A loader that is there is copied unless it is current, whatever is counted. -/
theorem performs_stageLoader (directory root : Path) (count : Nat) (loader : String) :
    Performs (stageLoader directory root count loader)
      [.stage (directory.join loader) (root.join loader) none] := by
  intro t
  rw [runSteps_single, stageLoader, run_get_bind]
  by_cases hfile : t.isFile (directory.join loader).text = true
  · rw [FileStep.run_stage hfile, if_pos hfile, run_bind]
    rcases ofFiles (copyIfChanged (directory.join loader) (root.join loader)) t with ⟨r, t'⟩
    cases r with
    | error e => rfl
    | ok status => cases status <;> rfl
  · rw [if_neg hfile, FileStep.run_stage_missing (by simpa using hfile)]
    rfl

theorem performs_stageLoaders :
    Performs (stageLoaders ctx ctx.settings.bootRoot) (loaderSteps ctx) := by
  have hdirectory : Performs (ofFiles (ensureDirectory ctx.settings.bootRoot))
      [.directory ctx.settings.bootRoot] := .single rfl
  refine hdirectory.bind fun _ => ?_
  rw [List.map_eq_flatMap]
  exact .foldlM (fun count loader => performs_stageLoader _ _ count loader) 0 _

theorem performs_stageArtifact (owner artifact : String) (directory : Path) :
    Performs (stageArtifact owner artifact directory) [artifactStep owner artifact directory] := by
  intro t
  rw [runSteps_single, artifactStep, stageArtifact, run_get_bind]
  by_cases hfile : t.isFile (Path.ofText artifact).text = true
  · rw [FileStep.run_stage hfile, if_pos hfile]
    rcases ofFiles (copyIfChanged (.ofText artifact) (directory.join (artifactName artifact))) t
      with ⟨r, t'⟩
    cases r <;> rfl
  · rw [if_neg hfile, FileStep.run_stage_missing (by simpa using hfile)]
    rfl

theorem performs_copyDistroImages (d : Distro) :
    Performs (copyDistroImages ctx d) (distroSteps ctx d) := by
  have hdirectory : Performs (ofFiles (ensureDirectory (imageDirectory ctx.settings d.name)))
      [.directory (imageDirectory ctx.settings d.name)] := .single rfl
  have hkernel := performs_stageArtifact d.name d.kernel (imageDirectory ctx.settings d.name)
  have hinitrd := performs_stageArtifact d.name d.initrd (imageDirectory ctx.settings d.name)
  exact hdirectory.bind fun _ => hkernel.bind fun _ => hinitrd.bind_pure

theorem performs_copyImages :
    Performs (copyImages ctx) (ctx.registry.images.flatMap (imageSteps ctx)) := by
  refine .foldlM (fun count image => ?_) 0 _
  have hdirectory : Performs
      (ofFiles (ensureDirectory ((ctx.settings.bootRoot.join "images2").join image.name)))
      [.directory ((ctx.settings.bootRoot.join "images2").join image.name)] := .single rfl
  refine hdirectory.bind fun _ => ?_
  refine (performs_stageArtifact image.name image.file _).bind fun status => ?_
  cases status with
  | copied => exact .pure (count + 1)
  | skipped => exact .pure count

theorem performs_writeHostConfig (menu : Menu) (host : Host) :
    Performs (writeHostConfig ctx host menu) (hostSteps ctx menu host) := by
  rw [writeHostConfig, hostSteps]
  cases hcontent : hostConfig host menu with
  | error e =>
    intro t
    rw [runSteps_single]
    rfl
  | ok content =>
    have hstore : ∀ name, Performs (ofFiles (writeText (bootPath ctx name) content))
        [.store (bootPath ctx name) content] := fun name => .single rfl
    dsimp only
    rw [List.map_eq_flatMap]
    exact .forM hstore _

/-! ## The ending of a pass -/

/-- Everything that the end of a pass does, once the menu is made. -/
def endingChange (menu : Menu) (hosts : List Host) : Change SyncError String := do
  hosts.forM fun host => do
    writeHostConfig ctx host menu
    let _ ← writeHostTemplates ctx host
  regenerateMenu ctx menu

theorem performs_endingChange (menu : Menu) {hosts : List Host}
    (h : ∀ host ∈ hosts, host.templateFiles.isEmpty = true) :
    Performs (endingChange ctx menu hosts) (endingSteps ctx menu hosts) := by
  have hhosts : Performs (hosts.forM fun host => do
      writeHostConfig ctx host menu
      let _ ← writeHostTemplates ctx host) (hosts.flatMap (hostSteps ctx menu)) := by
    induction hosts with
    | nil => exact .pure _
    | cons host rest ih =>
      rw [List.flatMap_cons]
      have hnone : writeHostTemplates ctx host = Pure.pure 0 := by
        rw [writeHostTemplates, if_pos (h host List.mem_cons_self)]
      refine Performs.bind ?_ fun _ => ih fun other hother => h other (List.mem_cons_of_mem _ hother)
      dsimp only
      rw [hnone]
      exact (performs_writeHostConfig ctx menu host).bind_pure
  have hmenu : Performs (ofFiles (writeText (menuPath ctx.settings) menu.render))
      [.store (menuPath ctx.settings) menu.render] := .single rfl
  exact hhosts.bind fun _ => hmenu.bind_pure

/-- The fingerprint that a pass ends with is the one of the menu. -/
theorem endingChange_eq_ok {menu : Menu} {hosts : List Host} {checksum : String} {t t' : FileTree}
    (h : endingChange ctx menu hosts t = (.ok checksum, t')) :
    checksum = Sha256.fingerprint menu.render.toUTF8 := by
  obtain ⟨_, t₁, -, h⟩ := run_bind_eq_ok.mp h
  obtain ⟨_, t₂, -, h⟩ := run_bind_eq_ok.mp h
  cases h
  rfl

end Pxe

end BootTree

/-
  What a partial pass touches.

  1. **Named files** — for some hosts a pass writes the menu, the boot files of the hosts and their
     declared files (`Pxe.Named`).  Every call for a host touches only these, and so does the ending
     of a pass, whatever comes of it (`touchesOnly_ending`).

  2. **Refusals** — a blank or an ambiguous identifier is found before anything is done.  No later
     call ends with such an error, unless the renderer does (`ending_notRefusal`), so where a partial
     pass ends with one nothing was touched.

  3. **Artifacts** — a partial pass stages nothing (`partialPass_withStaging`).  A loader or an image
     is touched only if a named file, or the temporary one beside it, is at its place
     (`partialPass_touchesOnly`).  The declared files of a host may be anywhere, so this can happen
     (`partialPass_may_touch_artifact`).
-/
import BootTree.Proofs.Files.Footprint
import BootTree.Proofs.Sync.Partial

namespace BootTree

open FileTree

variable {ctx : Context} {hosts : List Host} {host : Host}

namespace Pxe

/-! ## Named files -/

/-- The files that a pass writes for some hosts, and the menu that it ends with. -/
inductive Named (ctx : Context) (hosts : List Host) : Path → Prop where
  | menu : Named ctx hosts (menuPath ctx.settings)
  | bootFile {host : Host} {name : String} : host ∈ hosts → name ∈ bootFileNames host →
      Named ctx hosts (bootPath ctx name)
  | declared {host : Host} {view : Blended} {entry : String × String} {destination : String} :
      host ∈ hosts → ctx.resolver.blend (.host host) false = .ok view →
        entry ∈ host.templateFiles.entries →
          ctx.renderer.render entry.1 view.values = .ok destination →
            Named ctx hosts (templateDestination ctx.settings destination)

theorem touches_writeHostConfig (hhost : host ∈ hosts) (menu : Menu) :
    Change.Touches (Named ctx hosts) (writeHostConfig ctx host menu) :=
  .bind (.inspect _) fun content _ _ _ => .forM fun _ hname =>
    (Change.Touches.writeText (.bootFile hhost hname) content).mapError _

/-- The destination of a declared file is rendered last, when the file is about to be written. -/
theorem touches_writeHostTemplate {view : Blended} {entry : String × String} (hhost : host ∈ hosts)
    (hview : ctx.resolver.blend (.host host) false = .ok view)
    (hentry : entry ∈ host.templateFiles.entries) :
    Change.Touches (Named ctx hosts) (writeHostTemplate ctx view.values entry) := by
  refine .bind (.inspect _) fun source _ _ _ => .bind (.inspect _) fun template _ _ _ =>
    .bind (.inspect _) fun rendered _ _ _ => .bind (.inspect _) fun destination t t' hrender => ?_
  obtain ⟨hdestination, -⟩ := Change.inspect_eq.mp hrender
  exact (Change.Touches.writeText (.declared hhost hview hentry hdestination) rendered).mapError _

theorem touches_writeHostTemplates (hhost : host ∈ hosts) :
    Change.Touches (Named ctx hosts) (writeHostTemplates ctx host) := by
  rw [writeHostTemplates]
  split
  · exact .pure 0
  · refine .bind (.inspect _) fun view t t' hrun => .bind (.forM fun entry hentry => ?_)
      fun _ _ _ _ => .pure _
    obtain ⟨hview, -⟩ := Change.inspect_eq.mp hrun
    exact touches_writeHostTemplate hhost (mapError_eq_ok.mp hview) hentry

theorem touches_endingChange (ctx : Context) (menu : Menu) (hosts : List Host) :
    Change.Touches (Named ctx hosts) (endingChange ctx menu hosts) :=
  .bind (.forM fun _ hhost => .bind (touches_writeHostConfig hhost menu) fun _ _ _ _ =>
    .bind (touches_writeHostTemplates hhost) fun _ _ _ _ => .pure _) fun _ _ _ _ =>
      .bind ((Change.Touches.writeText .menu menu.render).mapError _) fun _ _ _ _ => .pure _

/-! ## Artifacts -/

/-- The steps of a full pass before its ending. -/
def stagingSteps (ctx : Context) : List FileStep :=
  loaderSteps ctx ++ ctx.registry.distros.flatMap (distroSteps ctx) ++
    ctx.registry.images.flatMap (imageSteps ctx)

/-- A loader, or a kernel, ram disk or image, where it comes from or where it is staged. -/
def IsArtifact (ctx : Context) (p : Path) : Prop :=
  ∃ source destination missing?, .stage source destination missing? ∈ stagingSteps ctx ∧
    (p = source ∨ p = destination)

end Pxe

namespace Sync

variable {σ : Type} {identifiers : List String}

/-! ## The ending of a pass -/

/-- Without a menu nothing is done; with one, the rest only changes the tree. -/
theorem ending_run (ctx : Context) (hosts : List Host) (s : Site σ) :
    ending (Pxe.generator ctx : Generator σ) hosts s = match Pxe.computeMenu ctx with
      | .ok menu => Work.ofChange (Pxe.endingChange ctx menu hosts) s
      | .error e => (.error e, s) := by
  have hmenu : (Pxe.generator ctx : Generator σ).computeMenu s = (Pxe.computeMenu ctx, s) := rfl
  rw [ending, run_bind, hmenu]
  cases Pxe.computeMenu ctx with
  | error e => rfl
  | ok menu =>
    dsimp only
    rw [syncHosts_regenerateMenu]

theorem touchesOnly_ending (ctx : Context) (hosts : List Host) (s : Site σ) :
    TouchesOnly (Pxe.Named ctx hosts) s.tree
      (ending (Pxe.generator ctx : Generator σ) hosts s).2.tree := by
  rw [ending_run]
  cases Pxe.computeMenu ctx with
  | error e => exact .refl _ _
  | ok menu => exact Pxe.touches_endingChange ctx menu hosts s.tree

/-! ## Identifiers -/

/-- A partial pass is refused, or leaves what its ending leaves. -/
theorem partialPass_site (ctx : Context) (g : Generator σ) (identifiers : List String)
    (s : Site σ) :
    (∃ e, partialPass ctx g identifiers s = (.error e, s)) ∨
      (partialPass ctx g identifiers s).2 =
        (ending g (identifiers.filterMap (hostOf? ctx.registry)) s).2 := by
  cases hcheck : checkIdentifiers ctx.registry identifiers with
  | error e => exact .inl ⟨e, partialPass_of_error hcheck g s⟩
  | ok resolved =>
    obtain ⟨hosts, skipped⟩ := resolved
    obtain rfl := hosts_of_checkIdentifiers hcheck
    refine .inr ?_
    rw [partialPass_of_ok hcheck, run_bind]
    rcases ending g (identifiers.filterMap (hostOf? ctx.registry)) s with ⟨r, s'⟩
    cases r <;> rfl

/-- Named are the files of the hosts that the identifiers lead to. -/
theorem touchesOnly_partialPass (ctx : Context) (identifiers : List String) (s : Site σ) :
    TouchesOnly (Pxe.Named ctx (identifiers.filterMap (hostOf? ctx.registry))) s.tree
      (partialPass ctx (Pxe.generator ctx) identifiers s).2.tree := by
  rcases partialPass_site ctx (Pxe.generator ctx) identifiers s with ⟨e, hrun⟩ | hsite
  · rw [hrun]
    exact .refl _ _
  · rw [hsite]
    exact touchesOnly_ending ctx _ s

/-! ## Refusals -/

/-- The renderer does not refuse identifiers. -/
def RefusesNone (renderer : Renderer) : Prop :=
  ∀ template vars e, renderer.render template vars = .error e → ¬ IsRefusal e

theorem refusesNone_placeholders (strict : Bool) : RefusesNone (.placeholders strict) := by
  intro template vars e h
  obtain ⟨name, -, rfl⟩ := mapError_eq_error.mp h
  simp [IsRefusal]

theorem ofFiles_notRefusal {α : Type} (x : Change FileError α) :
    FailsOnly (fun _ => True) (¬ IsRefusal ·) (Pxe.ofFiles x) := by
  refine .of_errors fun t t' e h => ?_
  obtain ⟨_, -, rfl⟩ := Change.mapError_eq_error.mp h
  simp [IsRefusal]

theorem writeHostConfig_notRefusal (ctx : Context) (host : Host) (menu : Menu) :
    FailsOnly (fun _ => True) (¬ IsRefusal ·) (Pxe.writeHostConfig ctx host menu) := by
  refine .bind (.inspect fun _ e he => ?_) fun _ _ _ _ => .forM fun _ _ => ofFiles_notRefusal _
  rw [Pxe.hostConfig] at he
  split at he
  · split at he
    · cases he
    · cases he
      simp [IsRefusal]
  · cases he

section Calls

variable (hnone : RefusesNone ctx.renderer)

include hnone

theorem menuEntry_notRefusal {kind : EntryKind} {name : String} {distro : Distro} {view : Blended}
    {e : SyncError} (h : Pxe.menuEntry ctx.renderer kind name distro view = .error e) :
    ¬ IsRefusal e := by
  rcases bind_eq_error.mp h with hrender | ⟨append, -, h⟩
  · exact hnone _ _ e hrender
  · cases h

theorem viewedEntry_notRefusal {kind : EntryKind} {name : String} {distro : Distro}
    {entity : Entity} {e : SyncError}
    (h : ((ctx.resolver.blend entity true).mapError SyncError.registry >>= fun view =>
      Pxe.menuEntry ctx.renderer kind name distro view) = .error e) : ¬ IsRefusal e := by
  rcases bind_eq_error.mp h with hblend | ⟨view, -, hentry⟩
  · obtain ⟨_, -, rfl⟩ := mapError_eq_error.mp hblend
    simp [IsRefusal]
  · exact menuEntry_notRefusal hnone hentry

theorem computeMenu_notRefusal {e : SyncError} (h : Pxe.computeMenu ctx = .error e) :
    ¬ IsRefusal e := by
  rcases bind_eq_error.mp h with hdistros | ⟨distros, -, h⟩
  · obtain ⟨d, -, hentry⟩ := exists_of_mapM_eq_error hdistros
    exact viewedEntry_notRefusal hnone hentry
  · rcases bind_eq_error.mp h with hhosts | ⟨hosts, -, h⟩
    · obtain ⟨host, -, hentry⟩ := exists_of_mapM_eq_error hhosts
      rw [Pxe.hostEntry] at hentry
      split at hentry
      · cases hentry
        simp [IsRefusal]
      · exact viewedEntry_notRefusal hnone hentry
    · cases h

theorem writeHostTemplate_notRefusal (vars : Fields) (entry : String × String) :
    FailsOnly (fun _ => True) (¬ IsRefusal ·) (Pxe.writeHostTemplate ctx vars entry) := by
  have hrender : ∀ template, FailsOnly (fun _ => True) (¬ IsRefusal ·)
      (Change.inspect fun _ => ctx.renderer.render template vars) :=
    fun template => .inspect fun _ e he => hnone template vars e he
  refine .bind (hrender entry.2) fun source _ _ _ => .bind (.inspect fun t e he => ?_)
    fun template _ _ _ => .bind (hrender template) fun rendered _ _ _ =>
      .bind (hrender entry.1) fun destination _ _ _ => ofFiles_notRefusal _
  obtain ⟨_, -, rfl⟩ := mapError_eq_error.mp he
  simp [IsRefusal]

theorem writeHostTemplates_notRefusal (host : Host) :
    FailsOnly (fun _ => True) (¬ IsRefusal ·) (Pxe.writeHostTemplates ctx host) := by
  rw [Pxe.writeHostTemplates]
  split
  · exact .pure 0
  · refine .bind (.inspect fun _ e he => ?_) fun view _ _ _ => .bind
      (.forM fun entry _ => writeHostTemplate_notRefusal hnone _ entry) fun _ _ _ _ => .pure _
    obtain ⟨_, -, rfl⟩ := mapError_eq_error.mp he
    simp [IsRefusal]

theorem endingChange_notRefusal (menu : Menu) (hosts : List Host) :
    FailsOnly (fun _ => True) (¬ IsRefusal ·) (Pxe.endingChange ctx menu hosts) :=
  .bind (.forM fun host _ => .bind (writeHostConfig_notRefusal ctx host menu) fun _ _ _ _ =>
    .bind (writeHostTemplates_notRefusal hnone host) fun _ _ _ _ => .pure _) fun _ _ _ _ =>
      .bind (ofFiles_notRefusal _) fun _ _ _ _ => .pure _

theorem ending_notRefusal (hosts : List Host) : FailsOnly (fun _ => True) (¬ IsRefusal ·)
    (ending (Pxe.generator ctx : Generator σ) hosts) := by
  refine .of_errors fun s s' e h => ?_
  rw [ending_run] at h
  split at h
  · next menu _ =>
    exact (endingChange_notRefusal hnone menu hosts).ofChange.errors s s' e trivial h
  · next hmenu =>
    cases h
    exact computeMenu_notRefusal hnone hmenu

end Calls

/-- Where a partial pass ends with a refusal, nothing was done. -/
theorem eq_of_isRefusal (hnone : RefusesNone ctx.renderer) {s s' : Site σ} {e : SyncError}
    (h : partialPass ctx (Pxe.generator ctx) identifiers s = (.error e, s')) (he : IsRefusal e) :
    s' = s := by
  cases hcheck : checkIdentifiers ctx.registry identifiers with
  | error e' =>
    rw [partialPass_of_error hcheck] at h
    cases h
    rfl
  | ok resolved =>
    rw [partialPass_of_ok hcheck] at h
    rcases run_bind_eq_error.mp h with hending | ⟨_, _, -, h⟩
    · exact absurd he ((ending_notRefusal hnone _).errors s s' e trivial hending)
    · cases h

/-! ## Staging -/

/-- A partial pass does not depend on how loaders and images are staged. -/
theorem partialPass_withStaging (ctx : Context) (g : Generator σ) (identifiers : List String)
    (stageLoaders : Path → Work σ Nat) (copyDistroImages : Distro → Work σ Unit)
    (copyImages : Work σ Nat) :
    partialPass ctx { g with stageLoaders, copyDistroImages, copyImages } identifiers =
      partialPass ctx g identifiers := by
  have hhosts : ∀ menu hosts, syncHosts { g with stageLoaders, copyDistroImages, copyImages } menu
      hosts = syncHosts g menu hosts := by
    intro menu hosts
    induction hosts with
    | nil => rfl
    | cons host rest ih =>
      rw [syncHosts, syncHosts, ih]
      rfl
  rw [partialPass, partialPass]
  simp only [hhosts]

/-- A partial pass touches only what it names, whether it runs to its end or not.  Where something
else stands afterwards there is the menu, a boot file or a declared file of a host that an identifier
leads to, the temporary file beside one of these, or a directory that was missing on the way to one.

The pass stages nothing, and a loader or an image is touched only if it is where such a file or
temporary file is.  Where a blank or an ambiguous identifier is refused nothing is touched at all. -/
theorem partialPass_touchesOnly (settings : Settings) (registry : Registry) (strict : Bool)
    (identifiers : List String) (s : Site σ) :
    let ctx := Context.standard settings registry strict
    let g : Generator σ := Pxe.generator ctx
    let named := Pxe.Named ctx (identifiers.filterMap (hostOf? registry))
    let s' := (partialPass ctx g identifiers s).2
    TouchesOnly named s.tree s'.tree ∧
    (∀ stageLoaders copyDistroImages copyImages, partialPass ctx
        { g with stageLoaders, copyDistroImages, copyImages } identifiers =
      partialPass ctx g identifiers) ∧
    (∀ p, Pxe.IsArtifact ctx p →
      s'.tree.bytesAt (s.tree.place p.text) ≠ s.tree.bytesAt (s.tree.place p.text) →
        ∃ file, named file ∧ (s.tree.place p.text = s.tree.place file.text ∨
          s.tree.place p.text = s.tree.place (temporaryPath s.tree.process file))) ∧
    ∀ e, (partialPass ctx g identifiers s).1 = .error e → IsRefusal e → s' = s := by
  intro ctx g named s'
  have htouches : TouchesOnly named s.tree s'.tree := touchesOnly_partialPass ctx identifiers s
  exact ⟨htouches, partialPass_withStaging ctx g identifiers, fun p _ => htouches.bytesAt,
    fun e he => eq_of_isRefusal (refusesNone_placeholders strict) (eq_of_fst he)⟩

def declaredKernel : TemplateFiles := ⟨[("images/d/k", "motd")], by decide⟩

/-- A server with a host that declares the staged kernel of its distribution as a file of its own. -/
def kernelContext : Context :=
  .standard { tftpRoot := "boot" }
    { distros := [{ name := "d", kernel := "k", initrd := "i" }]
      hosts := [{ name := "h", distro := "d", templateFiles := declaredKernel }] } false

def kernelTree : FileTree :=
  let t := (FileTree.empty [] "5").put "motd" [] (.file "Hello\n".toUTF8)
  let t := t.put "boot" [] .directory
  let t := t.put "images" ["boot"] .directory
  let t := t.put "d" ["images", "boot"] .directory
  t.put "k" ["d", "images", "boot"] (.file "KERNEL".toUTF8)

/-- A partial pass over this host runs to its end and replaces the kernel. -/
theorem partialPass_may_touch_artifact :
    (partialPass kernelContext (Pxe.generator kernelContext) ["h"]
      (⟨kernelTree, ()⟩ : Site Unit)).1.isOk = true ∧
    ∃ p, Pxe.IsArtifact kernelContext p ∧
      kernelTree.bytesAt (kernelTree.place p.text) = some "KERNEL".toUTF8 ∧
      (partialPass kernelContext (Pxe.generator kernelContext) ["h"]
        (⟨kernelTree, ()⟩ : Site Unit)).2.tree.bytesAt (kernelTree.place p.text) =
          some "Hello\n".toUTF8 := by
  refine ⟨by decide +kernel, (Pxe.imageDirectory kernelContext.settings "d").join "k", ?_,
    by decide +kernel, by decide +kernel⟩
  refine ⟨.ofText "k", _, some (.missingArtifact "d" "k"), ?_, .inr rfl⟩
  exact List.mem_append_left _ (List.mem_append_right _ (List.mem_flatMap.mpr
    ⟨_, List.mem_singleton_self _, List.mem_cons_of_mem _ List.mem_cons_self⟩))

end Sync

end BootTree

/-
  Passes as steps.

  A pass with the generator of the boot files does nothing that its steps do not.  The ending of a
  pass over hosts without templates is a list of steps (`ending_iff`), and so is a full pass that
  records no trouble, where no distribution declares files (`full_clean_iff`).
-/
import BootTree.Proofs.Sync.Isolation
import BootTree.Proofs.Sync.Steps

namespace BootTree

/-! ## Work that only changes the tree -/

namespace Work

variable {σ α β : Type}

theorem run_ofChange (x : Change SyncError α) (s : Site σ) :
    ofChange x s = ((x s.tree).1, { s with tree := (x s.tree).2 }) := rfl

theorem ofChange_bind (x : Change SyncError α) (f : α → Change SyncError β) :
    (ofChange (x >>= f) : Work σ β) = ofChange x >>= fun a => ofChange (f a) := by
  funext s
  rw [run_bind, ofChange, ofChange, run_bind]
  rcases x s.tree with ⟨r, t⟩
  cases r <;> rfl

theorem ofChange_eq_ok {x : Change SyncError α} {a : α} {s s' : Site σ} :
    ofChange x s = (.ok a, s') ↔ ∃ t', x s.tree = (.ok a, t') ∧ s' = { s with tree := t' } := by
  rw [ofChange]
  rcases x s.tree with ⟨r, t⟩
  constructor
  · intro h
    cases h
    exact ⟨t, rfl, rfl⟩
  · rintro ⟨t', h, rfl⟩
    cases h
    rfl

end Work

namespace Sync

variable {σ : Type} {ctx : Context} {s s' : Site σ}

theorem syncHosts_generator (ctx : Context) (menu : Menu) (hosts : List Host) :
    syncHosts (Pxe.generator ctx : Generator σ) menu hosts = .ofChange (hosts.forM fun host => do
      Pxe.writeHostConfig ctx host menu
      let _ ← Pxe.writeHostTemplates ctx host) := by
  induction hosts with
  | nil => rfl
  | cons host rest ih =>
    rw [syncHosts, ih]
    have hcons : ((host :: rest).forM fun host => do
        Pxe.writeHostConfig ctx host menu
        let _ ← Pxe.writeHostTemplates ctx host : Change SyncError PUnit) = (do
          (do
            Pxe.writeHostConfig ctx host menu
            let _ ← Pxe.writeHostTemplates ctx host)
          rest.forM fun host => do
            Pxe.writeHostConfig ctx host menu
            let _ ← Pxe.writeHostTemplates ctx host) := rfl
    rw [hcons, Work.ofChange_bind, Work.ofChange_bind, syncHost]
    have hrest : ∀ u, (Work.ofChange (Pxe.writeHostTemplates ctx host >>= fun _ => pure u) :
        Work σ PUnit) = Work.ofChange (Pxe.writeHostTemplates ctx host) >>= fun _ => pure u :=
      fun u => Work.ofChange_bind _ _
    simp only [hrest, pure_bind]
    rfl

theorem generator_computeMenu_eq_ok {menu : Menu} :
    (Pxe.generator ctx : Generator σ).computeMenu s = (.ok menu, s') ↔
      Pxe.computeMenu ctx = .ok menu ∧ s' = s :=
  ⟨fun h => ⟨congrArg Prod.fst h, (congrArg Prod.snd h).symm⟩, fun ⟨h, hs⟩ => Prod.ext h hs.symm⟩

/-- With a menu at hand, the rest of a pass only changes the tree. -/
theorem syncHosts_regenerateMenu (ctx : Context) (menu : Menu) (hosts : List Host) : (do
    syncHosts (Pxe.generator ctx : Generator σ) menu hosts
    (Pxe.generator ctx).regenerateMenu menu) =
      Work.ofChange (Pxe.endingChange ctx menu hosts) := by
  rw [syncHosts_generator, Pxe.endingChange, Work.ofChange_bind]
  rfl

/-- The ending of a pass makes the menu, which does nothing to the tree, and goes on with it. -/
theorem ending_eq_ok {hosts : List Host} {checksum : String} :
    ending (Pxe.generator ctx : Generator σ) hosts s = (.ok checksum, s') ↔
      ∃ menu t', Pxe.computeMenu ctx = .ok menu ∧
        Pxe.endingChange ctx menu hosts s.tree = (.ok checksum, t') ∧
        s' = { s with tree := t' } := by
  rw [ending, run_bind_eq_ok]
  constructor
  · rintro ⟨menu, s₁, hmenu, hending⟩
    obtain ⟨hmade, rfl⟩ := generator_computeMenu_eq_ok.mp hmenu
    rw [syncHosts_regenerateMenu] at hending
    obtain ⟨t', hchange, rfl⟩ := Work.ofChange_eq_ok.mp hending
    exact ⟨menu, t', hmade, hchange, rfl⟩
  · rintro ⟨menu, t', hmenu, hending, rfl⟩
    refine ⟨menu, s, generator_computeMenu_eq_ok.mpr ⟨hmenu, rfl⟩, ?_⟩
    rw [syncHosts_regenerateMenu]
    exact Work.ofChange_eq_ok.mpr ⟨t', hending, rfl⟩

/-- For hosts without templates the ending of a pass is a list of steps. -/
theorem ending_iff {hosts : List Host} (h : ∀ host ∈ hosts, host.templateFiles.isEmpty = true)
    {checksum : String} :
    ending (Pxe.generator ctx : Generator σ) hosts s = (.ok checksum, s') ↔
      ∃ menu t', Pxe.computeMenu ctx = .ok menu ∧
        checksum = Sha256.fingerprint menu.render.toUTF8 ∧
        runSteps (Pxe.endingSteps ctx menu hosts) s.tree = (.ok (), t') ∧
        s' = { s with tree := t' } := by
  rw [ending_eq_ok]
  constructor
  · rintro ⟨menu, t', hmenu, hending, rfl⟩
    exact ⟨menu, t', hmenu, Pxe.endingChange_eq_ok ctx hending,
      (Pxe.performs_endingChange ctx menu h).ok_iff.mp ⟨checksum, hending⟩, rfl⟩
  · rintro ⟨menu, t', hmenu, rfl, hsteps, rfl⟩
    obtain ⟨checksum, hending⟩ := (Pxe.performs_endingChange ctx menu h).ok_iff.mpr hsteps
    cases Pxe.endingChange_eq_ok ctx hending
    exact ⟨menu, t', hmenu, hending, rfl⟩

/-! ## A full pass without trouble -/

/-- The view on a distribution can be made, and declares no files. -/
def DeclaresNoFiles (ctx : Context) (d : Distro) : Prop :=
  ∃ view, ctx.resolver.blend (.distro d) false = .ok view ∧ view.templateFiles = .ok .empty

theorem copyDistroFiles_of_declaresNoFiles {d : Distro} (h : DeclaresNoFiles ctx d)
    (t : FileTree) : copyDistroFiles ctx d t = (.ok ⟨d.name, []⟩, t) := by
  obtain ⟨view, hview, hfiles⟩ := h
  rw [copyDistroFiles, hview]
  dsimp only
  rw [hfiles]
  rfl

/-- Without declared files, the only trouble that a distribution can make is that it is not
staged. -/
theorem syncDistro_run {d : Distro} (h : DeclaresNoFiles ctx d) (s : Site σ) :
    ∃ report, syncDistro ctx (Pxe.generator ctx) d s =
        (.ok report, { s with tree := (Pxe.copyDistroImages ctx d s.tree).2 }) ∧
      (report.troubles = [] ↔ (Pxe.copyDistroImages ctx d s.tree).1 = .ok ()) := by
  obtain ⟨staged, s₁, copies, t, report, hstaged, hcopies, hreport, hlogs⟩ :=
    logs_syncDistro ctx (Pxe.generator ctx) d s
  have hwork : (Pxe.generator ctx : Generator σ).copyDistroImages d =
      .ofChange (Pxe.copyDistroImages ctx d) := rfl
  rw [hwork, Work.run_ofChange] at hstaged
  obtain ⟨hresult, hsite⟩ := Prod.mk.inj hstaged
  rw [copyDistroFiles_of_declaresNoFiles h] at hcopies
  cases hcopies
  refine ⟨report, ?_, ?_⟩
  · rw [hlogs.run, hsite]
  · rw [hreport.troubles, hresult]
    cases staged with
    | error e => simp [DistroRun.troubles, CopyReport.failures]
    | ok u => simp [DistroRun.troubles, CopyReport.failures]

theorem syncDistros_clean_iff {distros : List Distro}
    (h : ∀ d ∈ distros, DeclaresNoFiles ctx d) :
    (∃ report, syncDistros ctx (Pxe.generator ctx) distros s = (.ok report, s') ∧
        report.troubles = []) ↔
      ∃ t', runSteps (distros.flatMap (Pxe.distroSteps ctx)) s.tree = (.ok (), t') ∧
        s' = { s with tree := t' } := by
  induction distros generalizing s with
  | nil =>
    constructor
    · rintro ⟨report, hrun, -⟩
      cases hrun
      exact ⟨_, rfl, rfl⟩
    · rintro ⟨t', hrun, rfl⟩
      cases hrun
      exact ⟨{}, rfl, rfl⟩
  | cons d rest ih =>
    have ih := fun s₁ : Site σ => ih (s := s₁) fun other hother => h other (List.mem_cons_of_mem d hother)
    obtain ⟨report, hrun, hclean⟩ := syncDistro_run (h d List.mem_cons_self) s
    have hsteps := Pxe.performs_copyDistroImages ctx d
    rw [List.flatMap_cons]
    constructor
    · rintro ⟨reports, hall, hnone⟩
      obtain ⟨first, s₁, hfirst, htail⟩ := run_bind_eq_ok.mp hall
      rw [hrun] at hfirst
      cases hfirst
      obtain ⟨others, s₂, hothers, hlast⟩ := run_bind_eq_ok.mp htail
      cases hlast
      have hboth : report.troubles = [] ∧ others.troubles = [] := List.append_eq_nil_iff.mp hnone
      obtain ⟨t', hrest, rfl⟩ := (ih _).mp ⟨others, hothers, hboth.2⟩
      have hstaged := hsteps.ok_iff.mp ⟨(), eq_of_fst (hclean.mp hboth.1)⟩
      exact ⟨t', runSteps_append_eq_ok.mpr ⟨_, hstaged, hrest⟩, rfl⟩
    · rintro ⟨t', hall, rfl⟩
      obtain ⟨t₁, hstaged, hrest⟩ := runSteps_append_eq_ok.mp hall
      obtain ⟨u, hstaged⟩ := hsteps.ok_iff.mpr hstaged
      rw [hstaged] at hrun hclean
      obtain ⟨others, hothers, hnone⟩ := (ih { s with tree := t₁ }).mpr ⟨t', hrest, rfl⟩
      refine ⟨report ++ others, ?_, ?_⟩
      · refine run_bind_eq_ok.mpr ⟨report, _, hrun, run_bind_eq_ok.mpr ⟨others, _, hothers, rfl⟩⟩
      · show report.troubles ++ others.troubles = []
        rw [hclean.mpr rfl, hnone, List.append_nil]

theorem generator_stageLoaders_eq_ok {root : Path} {loaders : Nat} :
    (Pxe.generator ctx : Generator σ).stageLoaders root s = (.ok loaders, s') ↔
      ∃ t', Pxe.stageLoaders ctx root s.tree = (.ok loaders, t') ∧ s' = { s with tree := t' } := by
  have hstage : (Pxe.generator ctx : Generator σ).stageLoaders root =
    .ofChange (Pxe.stageLoaders ctx root) := rfl
  rw [hstage, Work.ofChange_eq_ok]

theorem generator_copyImages_eq_ok {count : Nat} :
    (Pxe.generator ctx : Generator σ).copyImages.outcome s = (.ok (.ok count), s') ↔
      ∃ t', Pxe.copyImages ctx s.tree = (.ok count, t') ∧ s' = { s with tree := t' } := by
  have hcopy : (Pxe.generator ctx : Generator σ).copyImages = .ofChange (Pxe.copyImages ctx) := rfl
  rw [hcopy, ← Work.ofChange_eq_ok, Work.outcome]
  rcases (Work.ofChange (Pxe.copyImages ctx) : Work σ Nat) s with ⟨r, s₁⟩
  constructor
  · intro h
    cases h
    rfl
  · intro h
    cases h
    rfl

/-- A full pass that runs to its end goes through its stages, each on the site that the one before
it left. -/
theorem full_eq_ok {g : Generator σ} {report : SyncReport} : full ctx g s = (.ok report, s') ↔
    ∃ loaders s₁ distros s₂ images s₃ checksum,
      g.stageLoaders ctx.settings.bootRoot s = (.ok loaders, s₁) ∧
      syncDistros ctx g ctx.registry.distros s₁ = (.ok distros, s₂) ∧
      g.copyImages.outcome s₂ = (.ok images, s₃) ∧
      ending g ctx.registry.hosts s₃ = (.ok checksum, s') ∧
      report = fullReport ctx loaders distros images checksum := by
  rw [full_eq]
  constructor
  · intro h
    obtain ⟨loaders, s₁, hstage, h₁⟩ := run_bind_eq_ok.mp h
    obtain ⟨distros, s₂, hall, h₂⟩ := run_bind_eq_ok.mp h₁
    obtain ⟨images, s₃, hcopy, h₃⟩ := run_bind_eq_ok.mp h₂
    obtain ⟨checksum, s₄, hending, h₄⟩ := run_bind_eq_ok.mp h₃
    cases h₄
    exact ⟨loaders, s₁, distros, s₂, images, s₃, checksum, hstage, hall, hcopy, hending, rfl⟩
  · rintro ⟨loaders, s₁, distros, s₂, images, s₃, checksum, hstage, hall, hcopy, hending, rfl⟩
    refine run_bind_eq_ok.mpr ⟨loaders, s₁, hstage, run_bind_eq_ok.mpr ⟨distros, s₂, hall, ?_⟩⟩
    exact run_bind_eq_ok.mpr ⟨images, s₃, hcopy, run_bind_eq_ok.mpr ⟨checksum, s', hending, rfl⟩⟩

section Clean

variable {loaders : Nat} {distros : SyncReport} {images : Except SyncError Nat} {checksum : String}

theorem troubles_fullReport : (fullReport ctx loaders distros images checksum).troubles =
    distros.troubles ++ (imagesPart images).troubles := by
  show (([] ++ distros.troubles) ++ (imagesPart images).troubles) ++ [] = _
  rw [List.nil_append, List.append_nil]

/-- Where a full pass records nothing, the distributions made no trouble and the images were
staged. -/
theorem clean_of_hasErrors
    (h : (fullReport ctx loaders distros images checksum).hasErrors = false) :
    distros.troubles = [] ∧ ∃ count, images = .ok count := by
  rw [SyncReport.hasErrors, Bool.or_eq_false_iff, troubles_fullReport] at h
  obtain ⟨hdistros, himages⟩ := List.append_eq_nil_iff.mp (by simpa using h.1)
  refine ⟨hdistros, ?_⟩
  cases images with
  | error e => cases himages
  | ok count => exact ⟨count, rfl⟩

theorem hasErrors_of_clean (hrun : syncDistros ctx (Pxe.generator ctx : Generator σ)
      ctx.registry.distros s = (.ok distros, s')) (hnone : distros.troubles = []) (count : Nat) :
    (fullReport ctx loaders distros (.ok count) checksum).hasErrors = false := by
  obtain ⟨runs, s₁, report, -, hreports, hlogs⟩ :=
    logs_syncDistros ctx (Pxe.generator ctx : Generator σ) ctx.registry.distros s
  rw [hlogs.run] at hrun
  cases hrun
  have hiff : (fullReport ctx loaders distros (.ok count) checksum).hasErrors = true ↔
      (fullReport ctx loaders distros (.ok count) checksum).troubles ≠ [] :=
    (fullReport_spec hreports loaders (.ok count) checksum).2.2.2
  rw [← Bool.not_eq_true, hiff, not_not, troubles_fullReport, hnone]
  rfl

end Clean

/-- A full pass over hosts without templates and distributions without declared files runs to its
end without trouble exactly if all of its steps succeed, and then leaves what they leave. -/
theorem full_clean_iff (hdistros : ∀ d ∈ ctx.registry.distros, DeclaresNoFiles ctx d)
    (hhosts : ∀ host ∈ ctx.registry.hosts, host.templateFiles.isEmpty = true) :
    (∃ report, full ctx (Pxe.generator ctx) s = (.ok report, s') ∧ report.hasErrors = false) ↔
      ∃ menu t', Pxe.computeMenu ctx = .ok menu ∧
        runSteps (Pxe.passSteps ctx menu) s.tree = (.ok (), t') ∧ s' = { s with tree := t' } := by
  have hloaders := Pxe.performs_stageLoaders ctx
  have himages := Pxe.performs_copyImages ctx
  constructor
  · rintro ⟨report, hrun, hnone⟩
    obtain ⟨loaders, s₁, distros, s₂, images, s₃, checksum, hstage, hall, hcopy, hending, rfl⟩ :=
      full_eq_ok.mp hrun
    obtain ⟨hclean, count, rfl⟩ := clean_of_hasErrors hnone
    obtain ⟨t₁, hrun₁, rfl⟩ := generator_stageLoaders_eq_ok.mp hstage
    obtain ⟨t₂, hrun₂, rfl⟩ := (syncDistros_clean_iff hdistros).mp ⟨distros, hall, hclean⟩
    obtain ⟨t₃, hrun₃, rfl⟩ := generator_copyImages_eq_ok.mp hcopy
    obtain ⟨menu, t₄, hmenu, -, hrun₄, rfl⟩ := (ending_iff hhosts).mp hending
    refine ⟨menu, t₄, hmenu, ?_, rfl⟩
    simp only [Pxe.passSteps, runSteps_append_eq_ok]
    exact ⟨t₃, ⟨t₂, ⟨t₁, hloaders.ok_iff.mp ⟨loaders, hrun₁⟩, hrun₂⟩,
      himages.ok_iff.mp ⟨count, hrun₃⟩⟩, hrun₄⟩
  · rintro ⟨menu, t₄, hmenu, hsteps, rfl⟩
    simp only [Pxe.passSteps, runSteps_append_eq_ok] at hsteps
    obtain ⟨t₃, ⟨t₂, ⟨t₁, hrun₁, hrun₂⟩, hrun₃⟩, hrun₄⟩ := hsteps
    obtain ⟨loaders, hrun₁⟩ := hloaders.ok_iff.mpr hrun₁
    obtain ⟨distros, hall, hnone⟩ :=
      (syncDistros_clean_iff (s := { s with tree := t₁ }) hdistros).mpr ⟨t₂, hrun₂, rfl⟩
    obtain ⟨count, hrun₃⟩ := himages.ok_iff.mpr hrun₃
    have hending := (ending_iff (s := { s with tree := t₃ }) hhosts).mpr
      ⟨menu, t₄, hmenu, rfl, hrun₄, rfl⟩
    refine ⟨_, full_eq_ok.mpr ⟨loaders, _, distros, _, .ok count, _, _,
      generator_stageLoaders_eq_ok.mpr ⟨t₁, hrun₁, rfl⟩, hall,
      generator_copyImages_eq_ok.mpr ⟨t₃, hrun₃, rfl⟩, hending, rfl⟩, ?_⟩
    exact hasErrors_of_clean hall hnone count

/-! ## A small server -/

/-- A server with one distribution, a host that boots it, a host that boots from its own disk, and a
loader that is not there. -/
def smallContext : Context :=
  .standard { tftpRoot := "b", loadersDirectory := "l", loaders := ["p"], menuTitle := "" }
    { distros := [{ name := "d", kernel := "k", initrd := "i" }]
      hosts := [{ name := "h", distro := "d", interfaces := [⟨"eth0", some "AA:01", none⟩] },
        { name := "g", distro := "d", netboot := false,
          interfaces := [⟨"eth0", some "AA:02", none⟩] }] } false

def smallTree : FileTree :=
  let t := (FileTree.empty [] "7").put "k" [] (.file "K".toUTF8)
  let t := t.put "i" [] (.file "I".toUTF8)
  let t := t.put "b" [] .directory
  let t := t.put "images" ["b"] .directory
  let t := t.put "d" ["images", "b"] .directory
  t.put "pxelinux.cfg" ["b"] .directory

def smallMenu : Menu where
  title := ""
  entries := [⟨"d", .distro, "/images/d/k", "/images/d/i", ""⟩,
    ⟨"h", .host, "/images/d/k", "/images/d/i", ""⟩]

theorem computeMenu_small : Pxe.computeMenu smallContext = .ok smallMenu := by decide +kernel

theorem runSteps_small : runSteps (Pxe.passSteps smallContext smallMenu) smallTree =
    (.ok (), (runSteps (Pxe.passSteps smallContext smallMenu) smallTree).2) :=
  eq_of_fst (by decide +kernel)

theorem declaresNoFiles_small : ∀ d ∈ smallContext.registry.distros,
    DeclaresNoFiles smallContext d :=
  List.forall_mem_singleton.mpr ⟨_, rfl, by decide +kernel⟩

theorem templateFiles_small : ∀ host ∈ smallContext.registry.hosts,
    host.templateFiles.isEmpty = true := by decide +kernel

/-- Its pass is without trouble. -/
theorem exists_full_small : ∃ report s', full smallContext (Pxe.generator smallContext)
    (⟨smallTree, ()⟩ : Site Unit) = (.ok report, s') ∧ report.hasErrors = false := by
  obtain ⟨report, hrun, hclean⟩ := (full_clean_iff (s := (⟨smallTree, ()⟩ : Site Unit))
    declaresNoFiles_small templateFiles_small).mpr
      ⟨smallMenu, _, computeMenu_small, runSteps_small, rfl⟩
  exact ⟨report, _, hrun, hclean⟩

end Sync

end BootTree

/-
  Which errors a pass can end with.

  A pass over a registry that was built by additions looks up only what is there: every host finds
  its distribution and its entry in the menu, every view can be made, and the renderer that leaves
  unknown names alone has a text for every template.  What is left are the faults of the file system,
  and for a partial pass a blank or an ambiguous identifier (`lookups_succeed`).

  `FailsOnly` is proved of each call that can stop a pass, from the changes of the file tree upwards,
  for the trees of one process, whose locks decide which faults there can be.  The calls about
  distributions and images may fail in other ways, but these failures are recorded and stop nothing.
-/
import BootTree.Proofs.Sync.Copier
import BootTree.Proofs.Sync.Isolation
import BootTree.Proofs.Sync.Menu
import BootTree.Proofs.Sync.Steps

namespace BootTree

variable {process : Process}

/-! ## Faults of the file system -/

/-- No lock is refused, and none cannot be given back: a lock is waited for until it is had. -/
def Process.LocksHold (process : Process) : Prop := ∀ path, process.locking path = .held

/-- An error of a pass for which the file system gives a cause. -/
def SyncError.IsIo (e : SyncError) : Prop := ∃ path cause, e = .file (.io path cause)

/-- An error of a pass for which the file system gives a cause, or that of a lock which failed. -/
def SyncError.IsFault (process : Process) (e : SyncError) : Prop :=
  ∃ fault, e = .file fault ∧ fault.IsFault process

/-- Where no lock fails, a fault has a cause. -/
theorem SyncError.IsFault.isIo {e : SyncError} (h : e.IsFault process) (hlocks : process.LocksHold) :
    e.IsIo := by
  obtain ⟨fault, rfl, hfault⟩ := h
  rcases hfault with ⟨path, cause, rfl⟩ | ⟨path, -, hfailed⟩
  · exact ⟨path, cause, rfl⟩
  · exact absurd (hlocks path) hfailed

theorem ensureDirectory_failsOnly (p : Path) :
    FailsOnly (·.process = process) (FileError.IsFault process) (ensureDirectory p) := by
  refine ⟨fun t ht => (ensureDirectory_adds p t).process.trans ht, fun t t' e _ h => ?_⟩
  rw [ensureDirectory, run_get_bind] at h
  split at h
  · cases h
  · obtain ⟨cause, he⟩ := makeDirectories_error h
    exact .inl ⟨p.text, cause, he⟩

theorem writeText_failsOnly (p : Path) (content : String) :
    FailsOnly (·.process = process) (FileError.IsFault process) (writeText p content) := by
  refine ⟨fun t ht => (base_of_writeAtomic rfl).2.trans ht, fun t t' e ht h => ?_⟩
  have hfault := (writeAtomic_eq_error h).1
  rwa [ht] at hfault

namespace FailsOnly

variable {ε ε' α σ : Type} {I : FileTree → Prop} {P : ε → Prop}

/-- Reading from the tree fails as what is read does. -/
theorem inspect {f : FileTree → Except ε α} (h : ∀ t e, f t = .error e → P e) :
    FailsOnly I P (Change.inspect f) :=
  ⟨fun _ ht => ht, fun t _ e _ he => h t e (Change.inspect_eq.mp he).1⟩

theorem mapError {f : ε → ε'} {Q : ε' → Prop} {x : Change ε α} (hx : FailsOnly I P x)
    (hf : ∀ e, P e → Q (f e)) : FailsOnly I Q (Change.mapError f x) := by
  refine ⟨fun t ht => ?_, fun t t' e' ht h => ?_⟩
  · rw [Change.mapError_snd]
    exact hx.keeps t ht
  · obtain ⟨e, he, rfl⟩ := Change.mapError_eq_error.mp h
    exact hf e (hx.errors t t' e ht he)

theorem ofFiles {x : Change FileError α} (h : FailsOnly I (FileError.IsFault process) x) :
    FailsOnly I (SyncError.IsFault process) (Pxe.ofFiles x) :=
  h.mapError fun e he => ⟨e, rfl, he⟩

theorem ofChange {Q : SyncError → Prop} {x : Change SyncError α} (h : FailsOnly I Q x) :
    FailsOnly (fun s => I s.tree) Q (Work.ofChange x : Work σ α) := by
  refine ⟨fun s hs => h.keeps s.tree hs, fun s s' e hs he => ?_⟩
  rcases hx : x s.tree with ⟨result, t⟩
  rw [Work.ofChange, hx] at he
  cases he
  exact h.errors s.tree t e hs hx

/-- Work whose error is a result like any other does not fail. -/
theorem outcome {J : Site σ → Prop} {Q : SyncError → Prop} {w : Work σ α}
    (hw : ∀ s, J s → J (w s).2) : FailsOnly J Q w.outcome := by
  refine ⟨hw, fun s s' e _ h => ?_⟩
  cases congrArg Prod.fst h

end FailsOnly

/-! ## The calls -/

namespace Pxe

theorem regenerateMenu_failsOnly (ctx : Context) (menu : Menu) :
    FailsOnly (·.process = process) (SyncError.IsFault process) (regenerateMenu ctx menu) :=
  .bind (.ofFiles (writeText_failsOnly _ _)) fun _ _ _ _ => .pure _

/-- A loader is copied only if it is a file, and then only the file system can fail. -/
theorem stageLoader_failsOnly (directory root : Path) (count : Nat) (loader : String) :
    FailsOnly (·.process = process) (SyncError.IsFault process)
      (stageLoader directory root count loader) := by
  refine ⟨fun t ht => ?_, fun t t' e _ h => ?_⟩
  · exact ((performs_stageLoader directory root count loader).process t).trans ht
  rw [stageLoader, run_get_bind] at h
  split at h
  · next hfile =>
    rcases run_bind_eq_error.mp h with h | ⟨status, t₁, -, h⟩
    · obtain ⟨e', hcopy, rfl⟩ := Change.mapError_eq_error.mp h
      obtain ⟨-, hio⟩ := copyIfChanged_eq_error hfile hcopy
      exact ⟨e', rfl, .inl hio⟩
    · cases status <;> cases h
  · cases h

theorem stageLoaders_failsOnly (ctx : Context) (root : Path) :
    FailsOnly (·.process = process) (SyncError.IsFault process) (stageLoaders ctx root) :=
  .bind (.ofFiles (ensureDirectory_failsOnly root)) fun _ _ _ _ =>
    .foldlM (fun count loader _ => stageLoader_failsOnly _ root count loader) 0

/-- The boot files of a host can be written where the host has its entry, if it needs one. -/
theorem writeHostConfig_failsOnly (ctx : Context) {host : Host} {menu : Menu}
    (h : host.netboot = true → (menu.hostEntry? host.name).isSome = true) :
    FailsOnly (·.process = process) (SyncError.IsFault process) (writeHostConfig ctx host menu) := by
  have hconfig : ∃ content, hostConfig host menu = .ok content := by
    rw [hostConfig]
    split
    · next hnet =>
      obtain ⟨e, he⟩ := Option.isSome_iff_exists.mp (h hnet)
      rw [he]
      exact ⟨entryConfig e, rfl⟩
    · exact ⟨localConfig, rfl⟩
  obtain ⟨content, hcontent⟩ := hconfig
  refine .bind (.inspect fun t e he => ?_) fun content' _ _ _ =>
    .forM fun name _ => .ofFiles (writeText_failsOnly _ content')
  rw [hcontent] at he
  cases he

section Standard

variable (settings : Settings) {r : Registry}

/-- A template of a host fails only with its file. -/
theorem writeHostTemplate_failsOnly (vars : Fields) (entry : String × String) :
    FailsOnly (·.process = process) (SyncError.IsFault process)
      (writeHostTemplate (.standard settings r false) vars entry) := by
  have hrender : ∀ template, FailsOnly (·.process = process) (SyncError.IsFault process)
      (Change.inspect fun _ => (Context.standard settings r false).renderer.render template vars) := by
    intro template
    obtain ⟨text, htext⟩ := Renderer.render_lenient template vars
    refine .inspect fun _ e he => ?_
    rw [show (Context.standard settings r false).renderer.render template vars = .ok text
      from htext] at he
    cases he
  refine .bind (hrender entry.2) fun source _ _ _ => .bind (.inspect fun t e he => ?_)
    fun template _ _ _ => .bind (hrender template) fun rendered _ _ _ =>
      .bind (hrender entry.1) fun destination _ _ _ => .ofFiles (writeText_failsOnly _ rendered)
  obtain ⟨e', hread, rfl⟩ := mapError_eq_error.mp he
  obtain ⟨cause, -, rfl⟩ := mapError_eq_error.mp hread
  exact ⟨_, rfl, .inl ⟨_, cause, rfl⟩⟩

theorem writeHostTemplates_failsOnly (hr : r.Valid) {host : Host} (hhost : host ∈ r.hosts) :
    FailsOnly (·.process = process) (SyncError.IsFault process)
      (writeHostTemplates (.standard settings r false) host) := by
  rw [writeHostTemplates]
  split
  · exact .pure 0
  · obtain ⟨d, hd⟩ := hr.findDistro? hhost
    obtain ⟨view, hview⟩ := Resolver.blend_host settings hd false
    refine .bind (.inspect fun _ e he => ?_) fun view' _ _ _ =>
      .bind (.forM fun entry _ => writeHostTemplate_failsOnly settings _ entry) fun _ _ _ _ => .pure _
    obtain ⟨e', he', -⟩ := mapError_eq_error.mp he
    rw [show (Context.standard settings r false).resolver.blend (.host host) false = .ok view
      from hview] at he'
    cases he'

end Standard

end Pxe

/-! ## Passes -/

namespace Sync

variable {σ : Type} (settings : Settings) {r : Registry}

theorem computeMenu_run {ctx : Context} {menu : Menu} (h : Pxe.computeMenu ctx = .ok menu)
    (s : Site σ) : (Pxe.generator ctx : Generator σ).computeMenu s = (.ok menu, s) :=
  congrArg (fun result => (result, s)) h

/-- The end of a pass over hosts of the registry. -/
theorem ending_failsOnly (hr : r.Valid) {hosts : List Host}
    (hhosts : ∀ host ∈ hosts, host ∈ r.hosts) :
    FailsOnly (·.tree.process = process) (SyncError.IsFault process)
      (ending (Pxe.generator (.standard settings r false) : Generator σ) hosts) := by
  obtain ⟨menu, distroEntries, hostEntries, hmenu, hlists⟩ := Pxe.exists_lists settings hr
  have hsync : FailsOnly (·.tree.process = process) (SyncError.IsFault process)
      (syncHosts (Pxe.generator (.standard settings r false) : Generator σ) menu hosts) := by
    induction hosts with
    | nil => exact .pure ()
    | cons host rest ih =>
      have hhost : host ∈ r.hosts := hhosts host List.mem_cons_self
      have hentry : host.netboot = true → (menu.hostEntry? host.name).isSome = true := by
        intro hnet
        obtain ⟨e, -, he⟩ := hlists.hostEntry?_eq hr hhost hnet
        rw [he]
        rfl
      refine .bind (.bind (.pure menu) fun menu' _ _ h => ?_) fun _ _ _ _ =>
        ih fun other hother => hhosts other (List.mem_cons_of_mem host hother)
      cases h
      exact .bind (.ofChange (Pxe.writeHostConfig_failsOnly _ hentry)) fun _ _ _ _ =>
        .bind (.ofChange (Pxe.writeHostTemplates_failsOnly settings hr hhost)) fun _ _ _ _ => .pure ()
  refine .bind ⟨fun s hs => ?_, fun s s' e _ he => ?_⟩ fun menu' s s' h => ?_
  · rw [computeMenu_run hmenu]
    exact hs
  · rw [computeMenu_run hmenu] at he
    cases he
  · rw [computeMenu_run hmenu] at h
    cases h
    exact .bind hsync fun _ _ _ _ => .ofChange (Pxe.regenerateMenu_failsOnly _ _)

theorem process_copyDistroFiles (ctx : Context) (distro : Distro) (t : FileTree) :
    (copyDistroFiles ctx distro t).2.process = t.process := by
  rcases copyDistroFiles_cases ctx distro t with ⟨e, hrun⟩ | ⟨report, t', hrun, hcopies⟩
  · rw [hrun]
  · rw [hrun]
    exact hcopies.keeps.process

theorem DistroPhase.process_eq {ctx : Context} {distros : List Distro} {s s' : Site σ}
    {runs : List DistroRun} (h : DistroPhase ctx (Pxe.generator ctx) distros s runs s') :
    s'.tree.process = s.tree.process := by
  induction h with
  | nil => rfl
  | @cons distro rest s s₁ s' t staged copies runs hstaged hcopies _ ih =>
    have hfirst : s₁.tree.process = s.tree.process := by
      have hkept := (Pxe.performs_copyDistroImages ctx distro).process s.tree
      rwa [show s₁ = _ from (congrArg Prod.snd hstaged).symm]
    have hsecond : t.process = s₁.tree.process := by
      have hkept := process_copyDistroFiles ctx distro s₁.tree
      rwa [hcopies] at hkept
    exact ih.trans (hsecond.trans hfirst)

/-- Going through the distributions does not fail, whatever comes of them. -/
theorem syncDistros_failsOnly (ctx : Context) (distros : List Distro) (P : SyncError → Prop) :
    FailsOnly (·.tree.process = process) P
      (syncDistros ctx (Pxe.generator ctx : Generator σ) distros) := by
  refine ⟨fun s hs => ?_, fun s s' e _ h => ?_⟩
  · obtain ⟨runs, s₁, report, hphase, -, hlogs⟩ := logs_syncDistros ctx (Pxe.generator ctx) distros s
    rw [hlogs.run]
    exact hphase.process_eq.trans hs
  · obtain ⟨runs, s₁, report, -, -, hlogs⟩ := logs_syncDistros ctx (Pxe.generator ctx) distros s
    rw [hlogs.run] at h
    cases h

theorem full_failsOnly (hr : r.Valid) :
    FailsOnly (·.tree.process = process) (SyncError.IsFault process)
      (full (.standard settings r false)
        (Pxe.generator (.standard settings r false) : Generator σ)) := by
  have himages : ∀ s : Site σ, s.tree.process = process →
      ((Pxe.generator (.standard settings r false) : Generator σ).copyImages s).2.tree.process =
        process :=
    fun s hs => ((Pxe.performs_copyImages (.standard settings r false)).process s.tree).trans hs
  rw [full_eq]
  exact .bind (.ofChange (Pxe.stageLoaders_failsOnly _ _)) fun _ _ _ _ =>
    .bind (syncDistros_failsOnly _ _ _) fun _ _ _ _ => .bind (.outcome himages) fun _ _ _ _ =>
      .bind (ending_failsOnly settings hr fun _ hhost => hhost) fun _ _ _ _ => .pure _

/-! ## Identifiers -/

theorem mem_of_hostOf? {identifier : String} {host : Host}
    (h : hostOf? r identifier = some host) : host ∈ r.hosts := by
  rw [hostOf?, Registry.findHost] at h
  split at h
  · next only honly =>
    split at honly
    · cases honly
    · next single hmatching =>
      have hmem : single ∈ r.hostsMatching identifier := by
        rw [hmatching]
        exact List.mem_singleton_self single
      cases honly
      cases h
      exact (List.mem_filter.mp hmem).1
    · cases honly
  · cases h

/-- Identifiers lead to hosts of the registry, unless one is blank or ambiguous. -/
theorem checkIdentifiers_cases (r : Registry) (identifiers : List String) :
    (∃ hosts skipped, checkIdentifiers r identifiers = .ok (hosts, skipped) ∧
      ∀ host ∈ hosts, host ∈ r.hosts) ∨
    (∃ index, checkIdentifiers r identifiers = .error (.blankIdentifier index)) ∨
    ∃ identifier count, checkIdentifiers r identifiers = .error (.ambiguousHost identifier count) := by
  rw [checkIdentifiers]
  split
  · next index _ => exact .inr (.inl ⟨index, rfl⟩)
  · have hresolve := resolveHosts_spec r identifiers
    split at hresolve
    · next identifier _ => exact .inr (.inr ⟨identifier, _, hresolve⟩)
    · obtain ⟨skipped, hresolve⟩ := hresolve
      refine .inl ⟨_, skipped, hresolve, fun host hhost => ?_⟩
      obtain ⟨identifier, -, hof⟩ := List.mem_filterMap.mp hhost
      exact mem_of_hostOf? hof

/-- What a partial pass can end with besides the faults of the file system. -/
def IsRefusal (e : SyncError) : Prop :=
  (∃ index, e = .blankIdentifier index) ∨ ∃ identifier count, e = .ambiguousHost identifier count

/-- A pass that is refused fails with the refusal alone. -/
theorem refused_failsOnly {ctx : Context} {identifiers : List String} {e : SyncError}
    {I : Site σ → Prop} {P : SyncError → Prop}
    (h : checkIdentifiers ctx.registry identifiers = .error e) (he : P e) (g : Generator σ) :
    FailsOnly I P (partialPass ctx g identifiers) := by
  refine ⟨fun s hs => ?_, fun s s' e' _ hrun => ?_⟩
  · rw [partialPass_of_error h]
    exact hs
  · rw [partialPass_of_error h] at hrun
    cases hrun
    exact he

theorem partialPass_failsOnly (hr : r.Valid) (identifiers : List String) :
    FailsOnly (·.tree.process = process) (fun e => e.IsFault process ∨ IsRefusal e)
      (partialPass (.standard settings r false)
        (Pxe.generator (.standard settings r false) : Generator σ) identifiers) := by
  rcases checkIdentifiers_cases r identifiers with
    ⟨hosts, skipped, hcheck, hhosts⟩ | ⟨index, hcheck⟩ | ⟨identifier, count, hcheck⟩
  · rw [partialPass_of_ok hcheck]
    exact .bind ((ending_failsOnly settings hr hhosts).mono fun _ => .inl) fun _ _ _ _ => .pure _
  · exact refused_failsOnly hcheck (.inr (.inl ⟨index, rfl⟩)) _
  · exact refused_failsOnly hcheck (.inr (.inr ⟨identifier, count, rfl⟩)) _

/-- Over a registry that was built by additions, the menu can always be made: it has one entry for
each distribution and then one for each host that boots from the net, in the order of the registry,
and under the name of such a host the entry that was made from this host.

So no look-up of a pass fails.  A full pass ends only with a fault of the file system: a cause that
it gives, or a lock that it refuses.  A partial one ends also with a blank or an ambiguous identifier.
Where locks are waited for until they are had, only the causes are left. -/
theorem lookups_succeed (settings : Settings) (calls : List Addition) (s : Site σ) :
    let ctx := Context.standard settings (Addition.runAll calls .empty) false
    let g : Generator σ := Pxe.generator ctx
    let process := s.tree.process
    (∃ menu, g.computeMenu s = (.ok menu, s) ∧
      (∃ distros hosts, Pxe.Lists ctx menu distros hosts) ∧
      menu.entries.map MenuEntry.subject =
        ctx.registry.distros.map (fun d => (.distro, d.name)) ++
          (ctx.registry.hosts.filter Host.netboot).map (fun host => (.host, host.name)) ∧
      ∀ host ∈ ctx.registry.hosts, host.netboot = true →
        ∃ e, Pxe.hostEntry ctx host = .ok e ∧ menu.hostEntry? host.name = some e) ∧
    (∀ s' e, full ctx g s = (.error e, s') →
      e.IsFault process ∧ (process.LocksHold → e.IsIo)) ∧
    ∀ identifiers s' e, partialPass ctx g identifiers s = (.error e, s') →
      (e.IsFault process ∨ IsRefusal e) ∧ (process.LocksHold → e.IsIo ∨ IsRefusal e) := by
  intro ctx g process
  have hvalid : ctx.registry.Valid := Addition.runAll_valid calls Registry.valid_empty
  refine ⟨?_, fun s' e h => ?_, fun identifiers s' e h => ?_⟩
  · obtain ⟨menu, distros, hosts, hmenu, hlists⟩ := Pxe.exists_lists settings hvalid
    exact ⟨menu, computeMenu_run hmenu s, ⟨distros, hosts, hlists⟩, hlists.subjects,
      fun host hhost hnet => hlists.hostEntry?_eq hvalid hhost hnet⟩
  · have hfault := (full_failsOnly settings hvalid).errors s s' e rfl h
    exact ⟨hfault, hfault.isIo⟩
  · have hends := (partialPass_failsOnly settings hvalid identifiers).errors s s' e rfl h
    exact ⟨hends, fun hlocks => hends.imp_left fun hfault => hfault.isIo hlocks⟩

/-! ### Passes that end with a fault -/

/-- A server with a distribution and a host that boots it. -/
def bootContext : Context :=
  .standard { tftpRoot := "boot", loaders := [], menuTitle := "" }
    (Addition.runAll [.distro { name := "d", kernel := "k", initrd := "i" },
      .host { name := "h", distro := "d" }] .empty) false

/-- Where a file stands in the place of the boot root, the pass ends with the cause of that. -/
theorem lookups_succeed_obstructed :
    let s : Site Unit := ⟨(FileTree.empty [] "17").put "boot" [] (.file .empty), ()⟩
    s.tree.process.LocksHold ∧
    ∃ e s', full bootContext (Pxe.generator bootContext) s = (.error e, s') ∧ e.IsIo := by
  intro s
  have hlocks : s.tree.process.LocksHold := fun _ => rfl
  have hrun : full bootContext (Pxe.generator bootContext) s =
      (.error (.file (.io "boot" .alreadyExists)),
        (full bootContext (Pxe.generator bootContext) s).2) :=
    eq_of_fst (by decide +kernel)
  exact ⟨hlocks, _, _, hrun, ((lookups_succeed _ _ s).2.1 _ _ hrun).2 hlocks⟩

/-- A process that is refused every lock. -/
def lockless : Process := ⟨"18", by decide, fun _ => .refused⟩

/-- It comes no further than the first boot file, and that is the menu here. -/
example : (full bootContext (Pxe.generator bootContext)
    (⟨{ FileTree.empty [] "18" with process := lockless }, ()⟩ : Site Unit)).1 =
      .error (.file (.lockFailed "boot/pxelinux.cfg/default")) := by
  decide +kernel

end Sync

end BootTree

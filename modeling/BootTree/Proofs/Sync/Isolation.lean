/-
  What stops a full pass, and what it reports of the failures that do not.

  The distributions are gone through in turn, and each leaves a site for the next one whatever comes
  of it (`DistroPhase`).  Their part of the report lists what went wrong with them in order, and
  staging the images adds what went wrong there.  Then the pass ends as a partial one does, so the
  only failures that stop it are those of the boot loaders, of the menu and of the hosts
  (`full_calls`).
-/
import BootTree.Proofs.Sync.Calls

namespace BootTree.Sync

variable {σ : Type}

/-! ## The distributions -/

/-- What became of a distribution: staging its images, and copying its files. -/
structure DistroRun where
  distro : Distro
  staged : Except SyncError Unit
  copies : Except SyncError CopyReport

namespace DistroRun

/-- What went wrong, in order. -/
def troubles (run : DistroRun) : List Trouble :=
  (match run.staged with
    | .ok () => []
    | .error e => [.distro run.distro.name e]) ++
  match run.copies with
    | .ok report => report.failures.map .copy
    | .error e => [.distro run.distro.name e]

/-- The one call for a distribution. -/
def event (run : DistroRun) : Event := ⟨.copyDistroImages run.distro, failureOf run.staged⟩

end DistroRun

/-- The distributions gone through in turn: each is staged on the site that the one before it left,
and its files are copied on the tree that staging left, whatever came of either. -/
inductive DistroPhase (ctx : Context) (g : Generator σ) :
    List Distro → Site σ → List DistroRun → Site σ → Prop where
  | nil {s : Site σ} : DistroPhase ctx g [] s [] s
  | cons {distro : Distro} {rest : List Distro} {s s₁ s' : Site σ} {t : FileTree}
      {staged : Except SyncError Unit} {copies : Except SyncError CopyReport}
      {runs : List DistroRun} :
      g.copyDistroImages distro s = (staged, s₁) →
      copyDistroFiles ctx distro s₁.tree = (copies, t) →
      DistroPhase ctx g rest { s₁ with tree := t } runs s' →
      DistroPhase ctx g (distro :: rest) s (⟨distro, staged, copies⟩ :: runs) s'

/-- What the distributions add to the report. -/
structure Reports (runs : List DistroRun) (report : SyncReport) : Prop where
  troubles : report.troubles = runs.flatMap DistroRun.troubles
  distros : report.distros = runs.filterMap fun run => run.copies.toOption
  hostsSynced : report.hostsSynced = 0

/-- One distribution is staged and copied, and nothing of it is an error. -/
theorem logs_syncDistro (ctx : Context) (g : Generator σ) (distro : Distro) (s : Site σ) :
    ∃ staged s₁ copies t report,
      g.copyDistroImages distro s = (staged, s₁) ∧
      copyDistroFiles ctx distro s₁.tree = (copies, t) ∧
      Reports [⟨distro, staged, copies⟩] report ∧
      Logs (syncDistro ctx g.traced distro) (syncDistro ctx g distro) s { s₁ with tree := t }
        (.ok report) [⟨.copyDistroImages distro, failureOf staged⟩] := by
  have hstage := Logs.call (.copyDistroImages distro) (g.copyDistroImages distro) s
  rcases hstaged : g.copyDistroImages distro s with ⟨staged, s₁⟩
  rw [hstaged] at hstage
  have hcopy := Logs.ofChange (copyDistroFiles ctx distro) s₁
  rcases hcopies : copyDistroFiles ctx distro s₁.tree with ⟨copies, t⟩
  rw [hcopies] at hcopy
  refine ⟨staged, s₁, copies, t, _, rfl, hcopies, ?_,
    hstage.outcome.bind (hcopy.outcome.bind (.pure _ _))⟩
  cases staged with
  | error e =>
    cases copies with
    | error e' => exact ⟨rfl, rfl, rfl⟩
    | ok r => exact ⟨(List.append_nil _).symm, rfl, rfl⟩
  | ok u =>
    cases copies with
    | error e' => exact ⟨rfl, rfl, rfl⟩
    | ok r => exact ⟨(List.append_nil _).symm, rfl, rfl⟩

/-- All distributions are gone through, and nothing of them is an error. -/
theorem logs_syncDistros (ctx : Context) (g : Generator σ) (distros : List Distro) (s : Site σ) :
    ∃ runs s' report, DistroPhase ctx g distros s runs s' ∧ Reports runs report ∧
      Logs (syncDistros ctx g.traced distros) (syncDistros ctx g distros) s s' (.ok report)
        (runs.map DistroRun.event) := by
  induction distros generalizing s with
  | nil => exact ⟨[], s, {}, .nil, ⟨rfl, rfl, rfl⟩, .pure _ s⟩
  | cons distro rest ih =>
    obtain ⟨staged, s₁, copies, t, report, hstaged, hcopies, hreport, hlogs⟩ :=
      logs_syncDistro ctx g distro s
    obtain ⟨runs, s', reports, hphase, hreports, hlogs'⟩ := ih { s₁ with tree := t }
    refine ⟨_, s', report ++ reports, .cons hstaged hcopies hphase, ?_, ?_⟩
    · refine ⟨?_, ?_, ?_⟩
      · show report.troubles ++ reports.troubles = _
        rw [hreport.troubles, hreports.troubles, ← List.flatMap_append, List.singleton_append]
      · show report.distros ++ reports.distros = _
        rw [hreport.distros, hreports.distros, ← List.filterMap_append, List.singleton_append]
      · show report.hostsSynced + reports.hostsSynced = _
        rw [hreport.hostsSynced, hreports.hostsSynced]
    · have hevents : (⟨distro, staged, copies⟩ :: runs).map DistroRun.event =
          [⟨.copyDistroImages distro, failureOf staged⟩] ++ (runs.map DistroRun.event ++ []) := by
        rw [List.append_nil]
        rfl
      rw [hevents, syncDistros, syncDistros]
      exact hlogs.bind (hlogs'.bind (.pure (report ++ reports) s'))

/-- A copy that was not made is among the troubles, so a report without troubles has only clean
reports of distributions. -/
theorem Reports.isClean {runs : List DistroRun} {report : SyncReport} (h : Reports runs report)
    (hnone : report.troubles = []) : ∀ c ∈ report.distros, c.isClean = true := by
  intro c hc
  rw [h.distros, List.mem_filterMap] at hc
  obtain ⟨run, hrun, hcopies⟩ := hc
  rw [h.troubles, List.flatMap_eq_nil_iff] at hnone
  have htroubles := (List.append_eq_nil_iff.mp (hnone run hrun)).2
  cases hresult : run.copies with
  | error e =>
    rw [hresult] at hcopies
    cases hcopies
  | ok r =>
    rw [hresult] at hcopies htroubles
    cases hcopies
    rw [CopyReport.isClean, List.isEmpty_iff]
    exact List.map_eq_nil_iff.mp htroubles

/-! ## A full pass -/

/-- The report of a full pass, from what its stages gave. -/
def fullReport (ctx : Context) (loaders : Nat) (distros : SyncReport)
    (images : Except SyncError Nat) (checksum : String) : SyncReport :=
  ({ actions := [.stagedLoaders loaders] } : SyncReport) ++ distros ++ imagesPart images ++
    { actions := [.wroteHosts ctx.registry.hosts.length, .regeneratedMenu]
      hostsSynced := ctx.registry.hosts.length
      menuChecksum? := some checksum }

theorem full_eq (ctx : Context) (g : Generator σ) : full ctx g = (do
    let loaders ← g.stageLoaders ctx.settings.bootRoot
    let distros ← syncDistros ctx g ctx.registry.distros
    let images ← g.copyImages.outcome
    let checksum ← ending g ctx.registry.hosts
    pure (fullReport ctx loaders distros images checksum)) := by
  rw [full]
  simp only [ending, bind_assoc]
  rfl

theorem troubles_imagesPart (images : Except SyncError Nat) :
    (imagesPart images).troubles = (failureOf images).toList.map .images := by
  cases images <;> rfl

/-- The report of a full pass lists the troubles of the distributions and of the images. -/
theorem fullReport_spec {ctx : Context} {runs : List DistroRun} {distros : SyncReport}
    (h : Reports runs distros) (loaders : Nat) (images : Except SyncError Nat)
    (checksum : String) :
    (fullReport ctx loaders distros images checksum).troubles =
        runs.flatMap DistroRun.troubles ++ (failureOf images).toList.map .images ∧
      (fullReport ctx loaders distros images checksum).distros =
        runs.filterMap (fun run => run.copies.toOption) ∧
      (fullReport ctx loaders distros images checksum).hostsSynced =
        ctx.registry.hosts.length ∧
      ((fullReport ctx loaders distros images checksum).hasErrors = true ↔
        (fullReport ctx loaders distros images checksum).troubles ≠ []) := by
  have htroubles : (fullReport ctx loaders distros images checksum).troubles =
      distros.troubles ++ (imagesPart images).troubles := by
    show (([] ++ distros.troubles) ++ (imagesPart images).troubles) ++ [] = _
    rw [List.nil_append, List.append_nil]
  have hdistros : (fullReport ctx loaders distros images checksum).distros = distros.distros := by
    show (([] ++ distros.distros) ++ (imagesPart images).distros) ++ [] = _
    cases images with
    | ok count => simp [imagesPart]
    | error e => simp [imagesPart]
  refine ⟨?_, ?_, ?_, ?_⟩
  · rw [htroubles, h.troubles, troubles_imagesPart]
  · rw [hdistros, h.distros]
  · show ((0 + distros.hostsSynced) + (imagesPart images).hostsSynced) + _ = _
    rw [h.hostsSynced]
    cases images with
    | ok count => simp [imagesPart]
    | error e => simp [imagesPart]
  · rw [SyncReport.hasErrors, hdistros, htroubles]
    constructor
    · intro herrors hnone
      have hclean := h.isClean (List.append_eq_nil_iff.mp hnone).1
      rw [hnone] at herrors
      simp only [List.isEmpty_nil, Bool.not_true, Bool.false_or, List.any_eq_true] at herrors
      obtain ⟨c, hc, hdirty⟩ := herrors
      rw [hclean c hc] at hdirty
      cases hdirty
    · intro hsome
      have : (distros.troubles ++ (imagesPart images).troubles).isEmpty = false := by
        simpa [List.isEmpty_iff] using hsome
      rw [this]
      rfl

/-- What the stages of a full pass gave and left, once the boot loaders are staged, and the calls
that it ended with. -/
structure Stages (σ : Type) where
  loaders : Nat
  staged : Site σ
  runs : List DistroRun
  copied : Site σ
  images : Except SyncError Nat
  rest : Site σ
  menu : Menu
  last : List Event

/-- A full pass that came past the boot loaders, with its result and its calls: all distributions
and the images are gone through, whatever comes of them, and the calls after these follow the plan
for the menu and the hosts. -/
structure FullPass (ctx : Context) (g : Generator σ) (s : Site σ) (r : Except SyncError SyncReport)
    (events : List Event) (p : Stages σ) : Prop where
  loaders : g.stageLoaders ctx.settings.bootRoot s = (.ok p.loaders, p.staged)
  distros : DistroPhase ctx g ctx.registry.distros p.staged p.runs p.copied
  images : g.copyImages p.copied = (p.images, p.rest)
  menu : ∀ m s', g.computeMenu p.rest = (.ok m, s') → m = p.menu
  last : Follows (endingCalls p.menu ctx.registry.hosts) p.last (failureOf r)
  events : events = (⟨.stageLoaders ctx.settings.bootRoot, none⟩ :: p.runs.map DistroRun.event) ++
    [⟨.copyImages, failureOf p.images⟩] ++ p.last
  report : ∀ report, r = .ok report →
    report.troubles =
      p.runs.flatMap DistroRun.troubles ++ (failureOf p.images).toList.map .images ∧
    report.distros = p.runs.filterMap (fun run => run.copies.toOption) ∧
    report.hostsSynced = ctx.registry.hosts.length ∧
    (report.hasErrors = true ↔ report.troubles ≠ [])

/-- A full pass fails with the boot loaders, or goes through all its stages. -/
theorem full_cases (ctx : Context) (g : Generator σ) (s : Site σ) :
    ∃ r s' events, Logs (full ctx g.traced) (full ctx g) s s' r events ∧
      ((∃ e, g.stageLoaders ctx.settings.bootRoot s = (.error e, s') ∧ r = .error e ∧
          events = [⟨.stageLoaders ctx.settings.bootRoot, some e⟩]) ∨
        ∃ p, FullPass ctx g s r events p) := by
  rw [full_eq, full_eq]
  have hloaders := Logs.call (.stageLoaders ctx.settings.bootRoot)
    (g.stageLoaders ctx.settings.bootRoot) s
  rcases hstaged : g.stageLoaders ctx.settings.bootRoot s with ⟨r₀, s₁⟩
  rw [hstaged] at hloaders
  cases r₀ with
  | error e => exact ⟨_, s₁, _, hloaders.bind_error, .inl ⟨e, rfl, rfl, rfl⟩⟩
  | ok loaders =>
    obtain ⟨runs, s₂, distros, hphase, hreports, hdistros⟩ :=
      logs_syncDistros ctx g ctx.registry.distros s₁
    have hcopy := Logs.call .copyImages g.copyImages s₂
    rcases himages : g.copyImages s₂ with ⟨images, s₃⟩
    rw [himages] at hcopy
    obtain ⟨menu, hmenu, r, s', last, hlast, hfollows⟩ :=
      carriesOut_ending g ctx.registry.hosts s₃
    refine ⟨_, s', _, hloaders.bind (hdistros.bind (hcopy.outcome.bind (hlast.bind_pure _))),
      .inr ⟨⟨loaders, s₁, runs, s₂, images, s₃, menu, last⟩, ?_⟩⟩
    refine ⟨hstaged, hphase, himages, hmenu, ?_, ?_, ?_⟩
    · rw [failureOf_map]
      exact hfollows
    · simp [failureOf]
    · intro report hreport
      cases r with
      | error e => cases hreport
      | ok checksum =>
        cases hreport
        exact fullReport_spec hreports loaders images checksum

/-! ## What stops a full pass -/

/-- Whether a call is about a distribution or the images. -/
def isIsolated : Call → Bool
  | .copyDistroImages _ => true
  | .copyImages => true
  | _ => false

/-- The calls at the end of a pass are about the menu and the hosts. -/
theorem isIsolated_of_mem_endingCalls {menu : Menu} {hosts : List Host} {call : Call}
    (h : call ∈ endingCalls menu hosts) : isIsolated call = false := by
  rw [endingCalls, List.mem_append, List.mem_cons, List.mem_flatMap, List.mem_singleton] at h
  rcases h with (rfl | ⟨host, -, h⟩) | rfl
  · rfl
  · rw [hostCalls, List.mem_cons, List.mem_singleton] at h
    rcases h with rfl | rfl
    · rfl
    · rfl
  · rfl

/-- The menu is written by the very last call. -/
theorem regenerateMenu_not_mem_dropLast (menu m : Menu) (hosts : List Host) :
    Call.regenerateMenu m ∉ (endingCalls menu hosts).dropLast := by
  rw [endingCalls, List.dropLast_concat]
  intro h
  rcases List.mem_cons.mp h with h | h
  · cases h
  · obtain ⟨host, -, h⟩ := List.mem_flatMap.mp h
    simp [hostCalls] at h

namespace FullPass

variable {ctx : Context} {g : Generator σ} {s : Site σ} {r : Except SyncError SyncReport}
  {events : List Event} {p : Stages σ}

/-- Before the ending, only a call about a distribution or the images may have failed, and the menu
is not written. -/
theorem before_last (h : FullPass ctx g s r events p) {event : Event} (hevent : event ∈ events) :
    (isIsolated event.call = false → event.failure? = none) ∧
      (∀ menu, event.call ≠ .regenerateMenu menu) ∨ event ∈ p.last := by
  rw [h.events] at hevent
  simp only [List.mem_append, List.mem_cons, List.mem_map, List.not_mem_nil, or_false] at hevent
  rcases hevent with ((rfl | ⟨run, -, rfl⟩) | rfl) | hlast
  · exact .inl ⟨fun _ => rfl, nofun⟩
  · exact .inl ⟨nofun, nofun⟩
  · exact .inl ⟨nofun, nofun⟩
  · exact .inr hlast

/-- A full pass gives its report exactly if no call failed but those about distributions and images.
-/
theorem isOk_iff (h : FullPass ctx g s r events p) : (∃ report, r = .ok report) ↔
    ∀ event ∈ events, isIsolated event.call = false → event.failure? = none := by
  have hlast := h.last
  cases r with
  | ok report =>
    refine ⟨fun _ event hevent hstops => ?_, fun _ => ⟨report, rfl⟩⟩
    rcases h.before_last hevent with ⟨hbefore, -⟩ | hevent
    · exact hbefore hstops
    · exact hlast.succeeded event hevent
  | error e =>
    refine ⟨fun ⟨_, hok⟩ => (nomatch hok), fun hnone => ?_⟩
    obtain ⟨before, call, hevents, hcall, -⟩ := hlast.failed
    have hmem : (⟨call, some e⟩ : Event) ∈ events := by
      rw [h.events, hevents]
      simp
    have := hnone _ hmem (isIsolated_of_mem_endingCalls hcall)
    cases this

/-- Where a full pass fails, the menu was not written unless that is what failed. -/
theorem regenerateMenu_last (h : FullPass ctx g s r events p) {e : SyncError} (hr : r = .error e)
    {menu : Menu} {failure? : Option SyncError}
    (hmem : ⟨.regenerateMenu menu, failure?⟩ ∈ events) :
    events.getLast? = some ⟨.regenerateMenu menu, some e⟩ := by
  have hlast := h.last
  rw [hr] at hlast
  obtain ⟨before, call, hevents, -, hbefore⟩ := hlast.failed
  rcases h.before_last hmem with ⟨-, hother⟩ | hmem
  · exact absurd rfl (hother menu)
  · rw [hevents] at hmem
    rcases List.mem_append.mp hmem with hmem | hmem
    · exact absurd (hbefore _ hmem) (regenerateMenu_not_mem_dropLast p.menu menu _)
    · cases List.mem_singleton.mp hmem
      rw [h.events, hevents, ← List.append_assoc, List.getLast?_concat]

end FullPass

/-- A full pass stages the boot loaders and stops if that fails.  Otherwise it goes through all
distributions and the images, whatever comes of them, and ends with the menu and the hosts, where it
stops after the first call that fails.

So it runs to its end exactly if no call failed but those about distributions and images, and its
report lists what went wrong with these, in order.  Where it fails, the menu was not written unless
that is what failed. -/
theorem full_calls (ctx : Context) (g : Generator σ) (s : Site σ) :
    ∃ r s' events, Logs (full ctx g.traced) (full ctx g) s s' r events ∧
      ((∃ e, g.stageLoaders ctx.settings.bootRoot s = (.error e, s') ∧ r = .error e ∧
          events = [⟨.stageLoaders ctx.settings.bootRoot, some e⟩]) ∨
        ∃ p, FullPass ctx g s r events p) ∧
      ((∃ report, r = .ok report) ↔
        ∀ event ∈ events, isIsolated event.call = false → event.failure? = none) ∧
      ∀ e, r = .error e → ∀ menu failure?, ⟨.regenerateMenu menu, failure?⟩ ∈ events →
        events.getLast? = some ⟨.regenerateMenu menu, some e⟩ := by
  obtain ⟨r, s', events, hlogs, hcases⟩ := full_cases ctx g s
  refine ⟨r, s', events, hlogs, hcases, ?_⟩
  rcases hcases with ⟨e, -, rfl, rfl⟩ | ⟨p, hpass⟩
  · constructor
    · refine ⟨fun ⟨_, h⟩ => (nomatch h), fun h => ?_⟩
      have := h _ List.mem_cons_self rfl
      cases this
    · intro e' _ menu failure? hmem
      cases List.mem_singleton.mp hmem
  · exact ⟨hpass.isOk_iff, fun e he menu failure? hmem => hpass.regenerateMenu_last he hmem⟩

end BootTree.Sync

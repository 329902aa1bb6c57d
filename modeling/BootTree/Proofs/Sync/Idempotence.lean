/-
  A full pass that is repeated.

  A pass without trouble is a list of steps that succeed (`full_clean_iff`), and steps that succeeded
  succeed again, on the tree that they left, and end where they ended (`exists_mirror`).  What has to
  be shown of a pass is that its steps leave its sources alone, which is assumed of the files that it
  writes, and that no directory comes to stand where a temporary file was.  Only boot files have
  temporary files and they are stored last, so this is a matter of their paths (`BootFilesApart`,
  `unobstructed_passSteps`).  It is so in both directions: where one of these paths leads through the
  temporary file of another one, the first pass leaves a directory there, on which the second one
  stops (`bootFilesApart_of_again`).  A host with two odd addresses is enough for that
  (`full_not_idempotent`).
-/
import BootTree.Proofs.Sync.BootFiles
import BootTree.Proofs.Sync.Mirror
import BootTree.Proofs.Sync.Runs

namespace BootTree

variable {t t' : FileTree} {ctx : Context} {menu : Menu}

/-- Two trees with the same files and directories. -/
structure FileTree.Same (t u : FileTree) : Prop where
  base : u.base = t.base
  process : u.process = t.process
  get? : ∀ q, u.get? q = t.get? q

/-- The path of a native text never goes up. -/
def NeverUp (text : String) : Prop := ".." ∉ Trail.parts (Path.ofText text).text

instance (text : String) : Decidable (NeverUp text) := inferInstanceAs (Decidable (_ ∉ _))

theorem Trail.mem_parts_join {p : Path} {s part : String}
    (h : part ∈ parts (p.join s).text) : part ∈ parts p.text ∨ part ∈ parts (Path.ofText s).text := by
  rw [Path.join] at h
  split at h
  · exact .inr h
  · split at h
    · next hslash =>
      rw [Path.endsInSlash, decide_eq_true_eq, List.getLast?_eq_some_iff] at hslash
      obtain ⟨before, hbefore⟩ := hslash
      have htext : p.text = String.ofList before ++ "/" := by
        rw [← String.toList_inj, hbefore]
        simp
      dsimp only at h
      rw [htext, parts_append] at h
      rw [htext, parts_slash]
      exact (List.mem_append.mp h).imp_left fun hmem => List.mem_append_left _ hmem
    · dsimp only at h
      rw [parts_append] at h
      exact List.mem_append.mp h

/-- A loader whose directory and name never go up has a path that does not. -/
theorem NeverUp.join {directory loader : String} (hdirectory : NeverUp directory)
    (hloader : NeverUp loader) :
    ".." ∉ (Trail.ofText ((Path.ofText directory).join loader).text).segments := by
  intro hmem
  have hparts : ".." ∈ Trail.parts ((Path.ofText directory).join loader).text := by
    rw [Trail.parts_eq]
    exact List.mem_append_right _ hmem
  rcases Trail.mem_parts_join hparts with hmem | hmem
  · exact hdirectory hmem
  · exact hloader hmem

namespace Pxe

/-! ## The steps of a pass -/

/-- The paths of the files that a pass stages. -/
def sourcePaths (ctx : Context) : List Path :=
  ctx.settings.loaders.map (fun loader => (Path.ofText ctx.settings.loadersDirectory).join loader) ++
    ctx.registry.distros.flatMap (fun d => [.ofText d.kernel, .ofText d.initrd]) ++
    ctx.registry.images.map fun image => .ofText image.file

/-- What the end of a pass does is to store, or to stop. -/
theorem mem_endingSteps_cases {hosts : List Host} {step : FileStep}
    (h : step ∈ endingSteps ctx menu hosts) :
    (∃ p content, step = .store p content) ∨ ∃ e, step = .stop e := by
  rcases List.mem_append.mp h with h | h
  · obtain ⟨host, -, h⟩ := List.mem_flatMap.mp h
    rw [hostSteps] at h
    split at h
    · next content hcontent =>
      obtain ⟨name, -, hstep⟩ := List.mem_map.mp h
      exact .inl ⟨_, _, hstep.symm⟩
    · next e he => exact .inr ⟨e, List.mem_singleton.mp h⟩
  · exact .inl ⟨_, _, List.mem_singleton.mp h⟩

/-- What a pass does before its end is to make directories and to stage loaders, which may be
missing, and artifacts, which must be there. -/
theorem mem_passSteps {step : FileStep} (h : step ∈ passSteps ctx menu) :
    (∃ p, step = .directory p) ∨
    (∃ loader ∈ ctx.settings.loaders, ∃ destination, step =
      .stage ((Path.ofText ctx.settings.loadersDirectory).join loader) destination none) ∨
    (∃ source ∈ sourcePaths ctx, ∃ destination e, step = .stage source destination (some e)) ∨
    step ∈ endingSteps ctx menu ctx.registry.hosts := by
  simp only [passSteps, loaderSteps, List.mem_append, List.mem_cons, List.mem_map,
    List.mem_flatMap] at h
  obtain (((rfl | ⟨loader, hloader, rfl⟩) | ⟨d, hd, h⟩) | ⟨image, himage, h⟩) | h := h
  · exact .inl ⟨_, rfl⟩
  · exact .inr (.inl ⟨loader, hloader, _, rfl⟩)
  · have hsource : ∀ artifact ∈ [Path.ofText d.kernel, .ofText d.initrd],
        artifact ∈ sourcePaths ctx := fun artifact hmem => List.mem_append_left _
      (List.mem_append_right _ (List.mem_flatMap.mpr ⟨d, hd, hmem⟩))
    simp only [distroSteps, artifactStep, List.mem_cons, List.not_mem_nil, or_false] at h
    rcases h with rfl | rfl | rfl
    · exact .inl ⟨_, rfl⟩
    · exact .inr (.inr (.inl ⟨_, hsource _ List.mem_cons_self, _, _, rfl⟩))
    · exact .inr (.inr (.inl
        ⟨_, hsource _ (List.mem_cons_of_mem _ List.mem_cons_self), _, _, rfl⟩))
  · simp only [imageSteps, artifactStep, List.mem_cons, List.not_mem_nil, or_false] at h
    rcases h with rfl | rfl
    · exact .inl ⟨_, rfl⟩
    · refine .inr (.inr (.inl ⟨_, List.mem_append_right _ ?_, _, _, rfl⟩))
      exact List.mem_map.mpr ⟨image, himage, rfl⟩
  · exact .inr (.inr (.inr h))

/-- What a pass stages is a source, and only a loader may be missing. -/
theorem stage_mem_passSteps {source destination : Path} {missing? : Option SyncError}
    (h : .stage source destination missing? ∈ passSteps ctx menu) :
    source ∈ sourcePaths ctx ∧ (missing? = none → ∃ loader ∈ ctx.settings.loaders,
      source = (Path.ofText ctx.settings.loadersDirectory).join loader) := by
  rcases mem_passSteps h with ⟨p, hp⟩ | ⟨loader, hloader, q, hstage⟩ | ⟨other, hother, q, e, hstage⟩ |
    hending
  · cases hp
  · cases hstage
    have hmem : (Path.ofText ctx.settings.loadersDirectory).join loader ∈ sourcePaths ctx :=
      List.mem_append_left _ (List.mem_append_left _ (List.mem_map.mpr ⟨loader, hloader, rfl⟩))
    exact ⟨hmem, fun _ => ⟨loader, hloader, rfl⟩⟩
  · cases hstage
    exact ⟨hother, nofun⟩
  · rcases mem_endingSteps_cases hending with ⟨p, content, hstore⟩ | ⟨e, hstop⟩
    · cases hstore
    · cases hstop

/-- What a pass stores is a boot file. -/
theorem store_mem_passSteps {p : Path} {content : String}
    (h : .store p content ∈ passSteps ctx menu) :
    .store p content ∈ endingSteps ctx menu ctx.registry.hosts := by
  rcases mem_passSteps h with ⟨q, hq⟩ | ⟨loader, -, q, hstage⟩ | ⟨other, -, q, e, hstage⟩ | hending
  · cases hq
  · cases hstage
  · cases hstage
  · exact hending

theorem BootFilesApart.congr (h : BootFilesApart ctx t) (hbase : t'.base = t.base)
    (hprocess : t'.process = t.process) : BootFilesApart ctx t' := by
  intro name hname other hother
  rw [hprocess, FileTree.place_congr hbase, FileTree.through_congr hbase]
  exact h name hname other hother

/-- After a pass no directory is where it had a temporary file. -/
theorem unobstructed_passSteps (hapart : BootFilesApart ctx t)
    (hrun : runSteps (passSteps ctx menu) t = (.ok (), t')) :
    Unobstructed t' (passSteps ctx menu) := by
  rw [passSteps, runSteps_append_eq_ok] at hrun
  obtain ⟨t₁, hbefore, hending⟩ := hrun
  have hframe := changesOnly_runSteps hbefore
  have hstores := storesApart_endingSteps (hapart.congr hframe.base hframe.process) hending
  exact fun p content hmem =>
    unobstructed_of_runSteps hending hstores p content (store_mem_passSteps hmem)

/-- A pass that succeeds twice has its boot files apart. -/
theorem bootFilesApart_of_again {u : FileTree}
    (hrun : runSteps (passSteps ctx menu) t = (.ok (), t'))
    (hagain : runSteps (passSteps ctx menu) t' = (.ok (), u)) : BootFilesApart ctx t := by
  have hframe := changesOnly_runSteps hrun
  have hclear := unobstructed_of_ok hagain
  rw [passSteps, runSteps_append_eq_ok] at hrun
  obtain ⟨t₁, hbefore, hending⟩ := hrun
  have hbase := (changesOnly_runSteps hbefore).base
  intro name hname other hother hthrough
  obtain ⟨content, hmem⟩ := exists_store_of_mem_allBootNames hending hname
  obtain ⟨content', hmem'⟩ := exists_store_of_mem_allBootNames hending hother
  -- the second pass finds the directory that the first one made on its way to the other file
  have hdirectory := get?_of_store_mem hending hmem' ((FileTree.through_congr hbase).mpr hthrough)
  refine hclear _ content (List.mem_append_right _ hmem) ?_
  rw [hframe.process, FileTree.place_congr hframe.base]
  exact hdirectory

/-- The sources of a pass are left alone if it writes none of them.  Only loaders may be missing, so
only their paths must not go up. -/
theorem sourceKept_passSteps
    (hup : NeverUp ctx.settings.loadersDirectory ∧ ∀ loader ∈ ctx.settings.loaders, NeverUp loader)
    (hsources : ∀ source ∈ sourcePaths ctx, t.place source.text ∉ written (passSteps ctx menu) t) :
    ∀ step ∈ passSteps ctx menu, step.SourceKept t (written (passSteps ctx menu) t) := by
  rintro step hmem source destination missing? rfl
  obtain ⟨hsource, hloader⟩ := stage_mem_passSteps hmem
  refine ⟨hsources source hsource, fun hnone => ?_⟩
  obtain ⟨loader, hlisted, rfl⟩ := hloader hnone
  exact hup.1.join (hup.2 loader hlisted)

/-- The steps of a pass succeed again on the tree that they left, and leave it as it is, exactly if
the boot files are apart. -/
theorem runSteps_passSteps_again_iff
    (hup : NeverUp ctx.settings.loadersDirectory ∧ ∀ loader ∈ ctx.settings.loaders, NeverUp loader)
    (hsources : ∀ source ∈ sourcePaths ctx, t.place source.text ∉ written (passSteps ctx menu) t)
    (hrun : runSteps (passSteps ctx menu) t = (.ok (), t')) :
    BootFilesApart ctx t ↔ ∃ u, runSteps (passSteps ctx menu) t' = (.ok (), u) ∧ t'.Same u := by
  constructor
  · intro hapart
    have hframe := changesOnly_runSteps hrun
    -- the second run starts on the tree that the first one left, and ends in a mirror of it
    obtain ⟨u, hagain, hmirrors⟩ := exists_mirror hrun (unobstructed_passSteps hapart hrun)
      (sourceKept_passSteps hup hsources) (.start hframe.base hframe.process)
    exact ⟨u, hagain, hmirrors.base, hmirrors.process, hmirrors.get?_eq⟩
  · rintro ⟨u, hagain, -⟩
    exact bootFilesApart_of_again hrun hagain

/-- Boot files whose names have no slashes are never in each other's way. -/
theorem bootFilesApart_of_isPlain (hup : NeverUp ctx.settings.tftpRoot)
    (hplain : ∀ name ∈ allBootNames ctx.registry.hosts, Path.IsPlain name) (t : FileTree) :
    BootFilesApart ctx t := by
  intro name hname other hother hthrough
  obtain ⟨front, ⟨back, hsplit⟩, hq⟩ := prefix_of_through hthrough (hplain other hother)
  rw [place_temporaryPath_bootPath t (hplain name hname)] at hq
  -- the place would be around the directory of the boot files, but it is in there
  have hback : ".." ∉ back := by
    have hsegments : ".." ∉ configSegments ctx := NeverUp.join hup (by decide +kernel)
    rw [← hsplit] at hsegments
    exact fun hmem => hsegments (List.mem_append_right _ hmem)
  have haround := FileTree.suffix_walk hback
    (FileTree.walk (t.origin (Trail.ofText (configDirectory ctx.settings).text)) front)
  rw [← FileTree.walk_append, hsplit, ← hq] at haround
  exact absurd haround.length_le (Nat.not_succ_le_self _)

end Pxe

/-! ## The pass again -/

namespace Sync

variable {σ : Type} {s s' : Site σ} {report : SyncReport}

/-- The report of a full pass counts the hosts and has the fingerprint of the menu. -/
theorem full_report (hhosts : ∀ host ∈ ctx.registry.hosts, host.templateFiles.isEmpty = true)
    (h : full ctx (Pxe.generator ctx) s = (.ok report, s')) :
    report.hostsSynced = ctx.registry.hosts.length ∧ ∃ menu, Pxe.computeMenu ctx = .ok menu ∧
      report.menuChecksum? = some (Sha256.fingerprint menu.render.toUTF8) := by
  obtain ⟨loaders, s₁, distros, s₂, images, s₃, checksum, -, hall, -, hending, rfl⟩ :=
    full_eq_ok.mp h
  obtain ⟨menu, t', hmenu, rfl, -, -⟩ := (ending_iff hhosts).mp hending
  obtain ⟨runs, s₁', distros', -, hreports, hlogs⟩ :=
    logs_syncDistros ctx (Pxe.generator ctx : Generator σ) ctx.registry.distros s₁
  rw [hlogs.run] at hall
  cases hall
  exact ⟨(fullReport_spec hreports loaders images _).2.2.1, menu, hmenu, rfl⟩

/-- Where a full pass is idempotent.  No distribution declares files and no host has templates, the
paths of the loaders never go up, and the pass writes none of the files that it stages.  A pass that
ran to its end without trouble then does so again on the tree that it left, with the same number of
hosts and the same menu, and leaves that tree as it is, exactly if its boot files are apart.

Every boot file is written again, through its temporary file, so a directory must not have come to
stand where that was.  It takes an address with slashes in it that spells the tag of the process to
make one there (`Pxe.bootFilesApart_of_isPlain`). -/
theorem full_idempotent
    (hdistros : ∀ d ∈ ctx.registry.distros, DeclaresNoFiles ctx d)
    (hhosts : ∀ host ∈ ctx.registry.hosts, host.templateFiles.isEmpty = true)
    (hup : NeverUp ctx.settings.loadersDirectory ∧ ∀ loader ∈ ctx.settings.loaders, NeverUp loader)
    (hsources : ∀ menu, Pxe.computeMenu ctx = .ok menu → ∀ source ∈ Pxe.sourcePaths ctx,
      s.tree.place source.text ∉ written (Pxe.passSteps ctx menu) s.tree)
    (hrun : full ctx (Pxe.generator ctx) s = (.ok report, s'))
    (hclean : report.hasErrors = false) :
    Pxe.BootFilesApart ctx s.tree ↔
      ∃ report' s'', full ctx (Pxe.generator ctx) s' = (.ok report', s'') ∧
        report'.hasErrors = false ∧ report'.hostsSynced = report.hostsSynced ∧
        report'.menuChecksum? = report.menuChecksum? ∧
        s'.tree.Same s''.tree ∧ s''.memory = s'.memory := by
  obtain ⟨menu, t', hmenu, hsteps, rfl⟩ := (full_clean_iff hdistros hhosts).mp ⟨report, hrun, hclean⟩
  rw [Pxe.runSteps_passSteps_again_iff hup (hsources menu hmenu) hsteps]
  constructor
  · rintro ⟨u, hagain, hsame⟩
    obtain ⟨report', hrun', hclean'⟩ :=
      (full_clean_iff (s := { s with tree := t' }) hdistros hhosts).mpr ⟨menu, u, hmenu, hagain, rfl⟩
    obtain ⟨hcount, first, hfirst, hchecksum⟩ := full_report hhosts hrun
    obtain ⟨hcount', second, hsecond, hchecksum'⟩ := full_report hhosts hrun'
    -- both passes make the menu from the same records
    rw [hfirst] at hsecond
    cases hsecond
    exact ⟨report', _, hrun', hclean', hcount'.trans hcount.symm,
      hchecksum'.trans hchecksum.symm, hsame, rfl⟩
  · rintro ⟨report', s'', hrun', hclean', -, -, hsame, -⟩
    obtain ⟨menu', u, hmenu', hagain, rfl⟩ :=
      (full_clean_iff hdistros hhosts).mp ⟨report', hrun', hclean'⟩
    rw [hmenu] at hmenu'
    cases hmenu'
    exact ⟨u, hagain, hsame⟩

/-- A pass that writes below one directory only writes none of the files that it stages from
elsewhere. -/
theorem sources_not_written {t t' : FileTree} (top : String)
    (hrun : runSteps (Pxe.passSteps ctx menu) t = (.ok (), t'))
    (hdestinations : ∀ step ∈ Pxe.passSteps ctx menu,
      ∀ q ∈ step.destinations t, q.getLast? = some top)
    (hsources : ∀ source ∈ Pxe.sourcePaths ctx, (t.place source.text).getLast? ≠ some top) :
    ∀ source ∈ Pxe.sourcePaths ctx,
      t.place source.text ∉ written (Pxe.passSteps ctx menu) t := by
  intro source hsource hwritten
  obtain ⟨step, hstep, hmem⟩ := exists_destination_of_mem_written hrun hwritten
  exact hsources source hsource (hdestinations step hstep _ hmem)

theorem destinations_small : ∀ step ∈ Pxe.passSteps smallContext smallMenu,
    ∀ q ∈ step.destinations smallTree, q.getLast? = some "b" := by decide +kernel

theorem sourcePaths_small : ∀ source ∈ Pxe.sourcePaths smallContext,
    (smallTree.place source.text).getLast? ≠ some "b" := by decide +kernel

theorem sources_small : ∀ source ∈ Pxe.sourcePaths smallContext,
    smallTree.place source.text ∉ written (Pxe.passSteps smallContext smallMenu) smallTree :=
  sources_not_written "b" runSteps_small destinations_small sourcePaths_small

theorem isPlain_small : ∀ name ∈ Pxe.allBootNames smallContext.registry.hosts,
    Path.IsPlain name := by
  have hnames : Pxe.allBootNames smallContext.registry.hosts = ["01-aa-01", "01-aa-02", "default"] := by
    decide +kernel
  rw [hnames]
  simp only [List.forall_mem_cons]
  refine ⟨?_, ?_, Pxe.isPlain_default, fun _ hmem => nomatch hmem⟩
  · exact ⟨⟨by decide, by decide, by decide⟩, by decide, by decide⟩
  · exact ⟨⟨by decide, by decide, by decide⟩, by decide, by decide⟩

/-- The pass of a small server is without trouble, and then it is so again. -/
theorem small_twice : ∃ report s', full smallContext (Pxe.generator smallContext)
      (⟨smallTree, ()⟩ : Site Unit) = (.ok report, s') ∧ report.hasErrors = false ∧
    ∃ report' s'', full smallContext (Pxe.generator smallContext) s' = (.ok report', s'') ∧
      report'.hasErrors = false ∧ report'.hostsSynced = report.hostsSynced ∧
      report'.menuChecksum? = report.menuChecksum? ∧
      s'.tree.Same s''.tree ∧ s''.memory = s'.memory := by
  obtain ⟨report, s', hrun, hclean⟩ := exists_full_small
  refine ⟨report, s', hrun, hclean, (full_idempotent declaresNoFiles_small templateFiles_small
    ⟨by decide +kernel, by decide +kernel⟩ ?_ hrun hclean).mp
      (Pxe.bootFilesApart_of_isPlain (by decide +kernel) isPlain_small _)⟩
  intro menu hmenu
  rw [← Except.ok.inj (computeMenu_small.symm.trans hmenu)]
  exact sources_small

/-! ### Boot files in each other's way -/

/-- A server with one host, which boots from its own disk.  Its second address leads through the
temporary file of the first one, for a process with the tag `19`. -/
def crossingContext : Context :=
  .standard { tftpRoot := "b", loadersDirectory := "l", loaders := ["p"], menuTitle := "" }
    { distros := [{ name := "d", kernel := "k", initrd := "i" }]
      hosts := [{ name := "h", distro := "d", netboot := false,
                  interfaces := [⟨"eth0", some "a/x", none⟩,
                    ⟨"eth1", some "a/.x.19.tmp/y", none⟩] }] } false

def crossingTree : FileTree :=
  let t := (FileTree.empty [] "19").put "k" [] (.file "K".toUTF8)
  let t := t.put "i" [] (.file "I".toUTF8)
  let t := t.put "b" [] .directory
  let t := t.put "images" ["b"] .directory
  let t := t.put "d" ["images", "b"] .directory
  let t := t.put "pxelinux.cfg" ["b"] .directory
  t.put "01-a" ["pxelinux.cfg", "b"] .directory

def crossingMenu : Menu where
  title := ""
  entries := [⟨"d", .distro, "/images/d/k", "/images/d/i", ""⟩]

theorem computeMenu_crossing : Pxe.computeMenu crossingContext = .ok crossingMenu := by
  decide +kernel

theorem runSteps_crossing : runSteps (Pxe.passSteps crossingContext crossingMenu) crossingTree =
    (.ok (), (runSteps (Pxe.passSteps crossingContext crossingMenu) crossingTree).2) :=
  eq_of_fst (by decide +kernel)

theorem destinations_crossing : ∀ step ∈ Pxe.passSteps crossingContext crossingMenu,
    ∀ q ∈ step.destinations crossingTree, q.getLast? = some "b" := by decide +kernel

theorem sourcePaths_crossing : ∀ source ∈ Pxe.sourcePaths crossingContext,
    (crossingTree.place source.text).getLast? ≠ some "b" := by decide +kernel

theorem sources_crossing : ∀ source ∈ Pxe.sourcePaths crossingContext,
    crossingTree.place source.text ∉
      written (Pxe.passSteps crossingContext crossingMenu) crossingTree :=
  sources_not_written "b" runSteps_crossing destinations_crossing sourcePaths_crossing

/-- The path of the second boot file leads through the temporary file of the first one. -/
theorem not_bootFilesApart_crossing : ¬ Pxe.BootFilesApart crossingContext crossingTree := by
  intro hapart
  refine hapart "01-a/x" (by decide +kernel) "01-a/.x.19.tmp/y" (by decide +kernel) ?_
  exact ⟨["b", "pxelinux.cfg", "01-a", ".x.19.tmp"], ["y"], by decide +kernel, by decide,
    by decide +kernel⟩

/-- A full pass need not be idempotent, though nothing declares files or has templates, none of the
paths and addresses goes up, and the pass writes none of its sources. -/
theorem full_not_idempotent :
    (∀ d ∈ crossingContext.registry.distros, DeclaresNoFiles crossingContext d) ∧
    (∀ host ∈ crossingContext.registry.hosts, host.templateFiles.isEmpty = true) ∧
    (NeverUp crossingContext.settings.tftpRoot ∧
      NeverUp crossingContext.settings.loadersDirectory ∧
      (∀ loader ∈ crossingContext.settings.loaders, NeverUp loader) ∧
      (∀ d ∈ crossingContext.registry.distros, NeverUp d.kernel ∧ NeverUp d.initrd) ∧
      ∀ host ∈ crossingContext.registry.hosts, ∀ i ∈ host.interfaces,
        ∀ address ∈ i.macAddress, NeverUp address) ∧
    (∀ menu, Pxe.computeMenu crossingContext = .ok menu →
      ∀ source ∈ Pxe.sourcePaths crossingContext, crossingTree.place source.text ∉
        written (Pxe.passSteps crossingContext menu) crossingTree) ∧
    ∃ report s', full crossingContext (Pxe.generator crossingContext)
        (⟨crossingTree, ()⟩ : Site Unit) = (.ok report, s') ∧ report.hasErrors = false ∧
      ¬ ∃ report' s'', full crossingContext (Pxe.generator crossingContext) s' =
        (.ok report', s'') ∧ report'.hasErrors = false := by
  have hdistros : ∀ d ∈ crossingContext.registry.distros, DeclaresNoFiles crossingContext d :=
    List.forall_mem_singleton.mpr ⟨_, rfl, by decide +kernel⟩
  have hhosts : ∀ host ∈ crossingContext.registry.hosts, host.templateFiles.isEmpty = true := by
    decide +kernel
  refine ⟨hdistros, hhosts, ⟨by decide +kernel, by decide +kernel, by decide +kernel,
    by decide +kernel, by decide +kernel⟩, ?_, ?_⟩
  · intro menu hmenu
    rw [← Except.ok.inj (computeMenu_crossing.symm.trans hmenu)]
    exact sources_crossing
  · obtain ⟨report, hrun, hclean⟩ := (full_clean_iff (s := (⟨crossingTree, ()⟩ : Site Unit))
      hdistros hhosts).mpr ⟨crossingMenu, _, computeMenu_crossing, runSteps_crossing, rfl⟩
    refine ⟨report, _, hrun, hclean, fun hagain => not_bootFilesApart_crossing ?_⟩
    obtain ⟨report', s'', hrun', hclean'⟩ := hagain
    obtain ⟨menu, u, hmenu, hsteps, -⟩ :=
      (full_clean_iff hdistros hhosts).mp ⟨report', hrun', hclean'⟩
    rw [← Except.ok.inj (computeMenu_crossing.symm.trans hmenu)] at hsteps
    exact Pxe.bootFilesApart_of_again runSteps_crossing hsteps

end Sync

end BootTree

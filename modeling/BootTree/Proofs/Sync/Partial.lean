/-
  A partial pass after a full one.

  Where no address has a slash in it, the boot files stand side by side in one directory, and none of
  them has the name of a temporary file.  So storing one of them leaves the others at rest
  (`atRest_of_store`), and of those with one name the last one decides the content
  (`atRest_of_last_store`).  At the end of a pass all of its boot files are at rest, if those of one
  name have one content (`atRest_of_store_mem`).  A partial pass stores some of them again, in any
  order and any number of times, which changes nothing.
-/
import BootTree.Proofs.Registry.BootFileName
import BootTree.Proofs.Sync.BootFiles
import BootTree.Proofs.Sync.Failures
import BootTree.Proofs.Sync.Runs

namespace BootTree

variable {ctx : Context} {menu : Menu} {t t' final : FileTree}

namespace Pxe

variable {name other : String}

/-! ## Boot files side by side -/

theorem place_bootPath (t : FileTree) (h : IsBootFileName name) :
    t.place (bootPath ctx name).text = name :: t.place (configDirectory ctx.settings).text :=
  FileTree.place_join_of_isPlain h.plain

theorem eq_of_bootPath_eq (hname : IsBootFileName name) (hother : IsBootFileName other)
    (h : bootPath ctx name = bootPath ctx other) : name = other := by
  have htext := congrArg Path.text h
  rw [text_bootPath, text_bootPath, Path.text_ofText hname.plain.backslash,
    Path.text_ofText hother.plain.backslash] at htext
  have hlist := congrArg String.toList htext
  rw [String.toList_append, String.toList_append (s := _ ++ "/")] at hlist
  exact String.toList_inj.mp (List.append_cancel_left hlist)

/-- A boot file stays at rest when a boot file is stored, be it another one or this one with the same
content. -/
theorem atRest_of_store {content content' : ByteArray} (h : AtRest (bootPath ctx name) content t)
    (hname : IsBootFileName name) (hother : IsBootFileName other) (hthere : HasConfigDirectory ctx t)
    (hrun : writeAtomic (bootPath ctx other) content' t = (.ok (), t'))
    (hsame : name = other → content' = content) : AtRest (bootPath ctx name) content t' := by
  have hstored := stored_of_writeAtomic_ok hrun
  by_cases heq : name = other
  · subst heq
    rw [← hsame rfl]
    exact hstored.atRest
  · have hplace : ∀ text, t'.place text = t.place text := FileTree.place_congr hstored.base
    have hfile : t'.bytesAt (t.place (bootPath ctx name).text) =
        t.bytesAt (t.place (bootPath ctx name).text) := by
      refine hstored.changesOnly.bytesAt ?_
      rw [place_bootPath t hname, place_bootPath t hother, place_temporaryPath_bootPath t hother.plain]
      simp [heq, hname.ne_temporaryName]
    have hgone : t'.get? (t.place (temporaryPath t.process (bootPath ctx name))) = none := by
      by_cases hsame : t.place (temporaryPath t.process (bootPath ctx name)) =
          t.place (temporaryPath t.process (bootPath ctx other))
      · rw [hsame, hstored.gone]
      · have hne : t.place (temporaryPath t.process (bootPath ctx name)) ≠
            t.place (bootPath ctx other).text := by
          rw [place_temporaryPath_bootPath t hname.plain, place_bootPath t hother]
          exact fun he => hother.ne_temporaryName _ _ (List.cons.inj he).1.symm
        rcases hstored.others _ hne hsame with hkept | ⟨-, hmade⟩
        · rw [hkept, h.gone]
        · -- a directory would have been made there, but the directory of the boot files was there
          have hthere' := get?_of_store hother.plain hrun hthere hmade
          rw [h.gone] at hthere'
          cases hthere'
    refine ⟨?_, h.parents.mono hstored.directories, ?_, ?_, ?_⟩
    · rw [hstored.process]
      exact h.locking
    · exact hstored.directories.read hfile h.read
    · rw [hstored.process]
      refine h.temporary.mono hstored.directories ?_
      rw [hgone]
      exact nofun
    · rw [hstored.process, hplace, hgone]

/-! ## Storing them all -/

/-- Steps that store boot files with such names, those of one name with one content. -/
structure StoresSideBySide (ctx : Context) (steps : List FileStep) : Prop where
  names : ∀ step ∈ steps, ∃ name content,
    step = .store (bootPath ctx name) content ∧ IsBootFileName name
  contents : ∀ p content content',
    .store p content ∈ steps → .store p content' ∈ steps → content' = content

/-- A boot file that is at rest stays so while boot files are stored. -/
theorem atRest_of_runSteps {content : String} {steps : List FileStep}
    (h : AtRest (bootPath ctx name) content.toUTF8 t) (hname : IsBootFileName name)
    (hsteps : ∀ step ∈ steps, ∃ name content,
      step = .store (bootPath ctx name) content ∧ IsBootFileName name)
    (hsame : ∀ content', .store (bootPath ctx name) content' ∈ steps → content' = content)
    (hthere : HasConfigDirectory ctx t) (hrun : runSteps steps t = (.ok (), final)) :
    AtRest (bootPath ctx name) content.toUTF8 final := by
  induction steps generalizing t with
  | nil =>
    cases hrun
    exact h
  | cons step rest ih =>
    obtain ⟨t₁, hstep, hrest⟩ := runSteps_cons_eq_ok.mp hrun
    obtain ⟨⟨other, content', rfl, hother⟩, hlater⟩ := List.forall_mem_cons.mp hsteps
    have hwrite := FileStep.run_store_eq_ok.mp hstep
    have hkept := atRest_of_store h hname hother hthere hwrite fun heq => by
      subst heq
      rw [hsame content' List.mem_cons_self]
    exact ih hkept hlater (fun content' hmem => hsame content' (List.mem_cons_of_mem _ hmem))
      (hthere.mono (FileStep.hasDirectories hstep)) hrest

/-- After a boot file was stored it is at rest, if no store behind gives it another content. -/
theorem atRest_of_last_store {content : String} {before behind : List FileStep}
    (hname : IsBootFileName name)
    (hbehind : ∀ step ∈ behind, ∃ name content,
      step = .store (bootPath ctx name) content ∧ IsBootFileName name)
    (hsame : ∀ content', .store (bootPath ctx name) content' ∈ behind → content' = content)
    (hrun : runSteps (before ++ .store (bootPath ctx name) content :: behind) t =
      (.ok (), final)) :
    AtRest (bootPath ctx name) content.toUTF8 final := by
  obtain ⟨t₁, -, hlater⟩ := runSteps_append_eq_ok.mp hrun
  obtain ⟨t₂, hstep, hrest⟩ := runSteps_cons_eq_ok.mp hlater
  have hstored := stored_of_writeAtomic_ok (FileStep.run_store_eq_ok.mp hstep)
  have hthere : HasConfigDirectory ctx t₂ := hasConfigDirectory_of_locate hstored.writable.locate
  exact atRest_of_runSteps hstored.atRest hname hbehind hsame hthere hrest

/-- After boot files were stored they are all at rest. -/
theorem atRest_of_store_mem {p : Path} {content : String} {steps : List FileStep}
    (hsteps : StoresSideBySide ctx steps) (hrun : runSteps steps t = (.ok (), final))
    (hmem : .store p content ∈ steps) : AtRest p content.toUTF8 final := by
  obtain ⟨name, text, heq, hname⟩ := hsteps.names _ hmem
  cases heq
  obtain ⟨before, behind, rfl⟩ := List.append_of_mem hmem
  have hbehind : ∀ step ∈ behind,
      step ∈ before ++ .store (bootPath ctx name) content :: behind := fun step hstep =>
    List.mem_append_right _ (List.mem_cons_of_mem _ hstep)
  refine atRest_of_last_store hname (fun step hstep => hsteps.names step (hbehind step hstep)) ?_ hrun
  exact fun content' hstep => hsteps.contents _ content content' hmem (hbehind _ hstep)

/-- Storing again what is at rest does nothing. -/
theorem runSteps_of_atRest {steps : List FileStep}
    (h : ∀ step ∈ steps, ∃ p content, step = .store p content ∧ AtRest p content.toUTF8 t) :
    runSteps steps t = (.ok (), t) := by
  induction steps with
  | nil => rfl
  | cons step rest ih =>
    obtain ⟨p, content, rfl, hrest⟩ := h step List.mem_cons_self
    refine runSteps_cons_eq_ok.mpr ⟨t, FileStep.run_store_eq_ok.mpr hrest.writeAtomic_eq, ?_⟩
    exact ih fun step' hmem => h step' (List.mem_cons_of_mem _ hmem)

/-! ## The ending of a pass -/

/-- The addresses of a host have no slashes. -/
def HasPlainAddresses (host : Host) : Prop :=
  ∀ i ∈ host.interfaces, ∀ mac, i.macAddress = some mac → '/' ∉ mac.toList ∧ '\\' ∉ mac.toList

/-- No two hosts have a boot file in common. -/
def HaveOwnBootFiles (hosts : List Host) : Prop :=
  ∀ host ∈ hosts, ∀ host' ∈ hosts, host ≠ host' →
    ∀ name ∈ bootFileNames host, name ∉ bootFileNames host'

theorem isBootFileName_of_mem {host : Host} (h : HasPlainAddresses host)
    (hname : name ∈ bootFileNames host) : IsBootFileName name := by
  obtain ⟨i, hi, hnamed⟩ := List.mem_filterMap.mp hname
  exact Interface.isBootFileName hnamed (h i hi)

/-- The menu is not stored where a boot file of a host is. -/
theorem default_not_mem (host : Host) : "default" ∉ bootFileNames host := by
  intro hname
  obtain ⟨i, -, hnamed⟩ := List.mem_filterMap.mp hname
  obtain ⟨mac, address, -, htext, -⟩ := Interface.bootFileName?_eq_some hnamed
  have hlist := congrArg String.toList htext
  rw [String.toList_append] at hlist
  cases hlist

namespace BootFile

variable {hosts : List Host} {content content' : String}

theorem isBootFileName (h : BootFile menu hosts name content)
    (hplain : ∀ host ∈ hosts, HasPlainAddresses host) : IsBootFileName name := by
  cases h with
  | host hhost _ hname => exact isBootFileName_of_mem (hplain _ hhost) hname
  | menu => exact ⟨isPlain_default, by decide⟩

/-- A name has one content. -/
theorem unique (h : BootFile menu hosts name content) (h' : BootFile menu hosts name content')
    (hown : HaveOwnBootFiles hosts) : content' = content := by
  cases h with
  | @host first _ _ hhost hcontent hname =>
    cases h' with
    | @host second _ _ hhost' hcontent' hname' =>
      -- a name that two hosts had in common would be one of a single host
      have hsame : first = second := by
        by_contra hne
        exact hown first hhost second hhost' hne name hname hname'
      rw [hsame] at hcontent
      exact Except.ok.inj (hcontent'.symm.trans hcontent)
    | menu => exact absurd hname (default_not_mem first)
  | menu =>
    cases h' with
    | @host second _ _ hhost' hcontent' hname' => exact absurd hname' (default_not_mem second)
    | menu => rfl

end BootFile

/-- The end of a pass stores boot files side by side. -/
theorem storesSideBySide_endingSteps {hosts : List Host}
    (hplain : ∀ host ∈ hosts, HasPlainAddresses host) (hown : HaveOwnBootFiles hosts)
    (hrun : runSteps (endingSteps ctx menu hosts) t = (.ok (), final)) :
    StoresSideBySide ctx (endingSteps ctx menu hosts) := by
  refine ⟨fun step hmem => ?_, fun p content content' hmem hmem' => ?_⟩
  · obtain ⟨name, content, rfl, hfile⟩ := mem_endingSteps hrun hmem
    exact ⟨name, content, rfl, hfile.isBootFileName hplain⟩
  · obtain ⟨name, _, hstore, hfile⟩ := mem_endingSteps hrun hmem
    obtain ⟨other, _, hstore', hfile'⟩ := mem_endingSteps hrun hmem'
    obtain ⟨hpath, rfl⟩ := FileStep.store.inj hstore
    obtain ⟨hpath', rfl⟩ := FileStep.store.inj hstore'
    have hname : name = other := eq_of_bootPath_eq (hfile.isBootFileName hplain)
      (hfile'.isBootFileName hplain) (hpath.symm.trans hpath')
    subst hname
    exact hfile.unique hfile' hown

/-- What the end of a pass stores for some of the hosts it stores for all. -/
theorem endingSteps_subset {hosts some : List Host} (h : ∀ host ∈ some, host ∈ hosts) :
    endingSteps ctx menu some ⊆ endingSteps ctx menu hosts := by
  intro step hmem
  rcases List.mem_append.mp hmem with hmem | hmem
  · obtain ⟨host, hhost, hstep⟩ := List.mem_flatMap.mp hmem
    exact List.mem_append_left _ (List.mem_flatMap.mpr ⟨host, h host hhost, hstep⟩)
  · exact List.mem_append_right _ hmem

/-- The end of a pass for some of the hosts does nothing after the one for all of them. -/
theorem runSteps_endingSteps_again {hosts some : List Host}
    (hplain : ∀ host ∈ hosts, HasPlainAddresses host) (hown : HaveOwnBootFiles hosts)
    (hrun : runSteps (endingSteps ctx menu hosts) t = (.ok (), final))
    (hsome : ∀ host ∈ some, host ∈ hosts) :
    runSteps (endingSteps ctx menu some) final = (.ok (), final) := by
  have hside := storesSideBySide_endingSteps hplain hown hrun
  refine runSteps_of_atRest fun step hmem => ?_
  have hall := endingSteps_subset hsome hmem
  obtain ⟨name, content, rfl, -⟩ := hside.names step hall
  exact ⟨_, content, rfl, atRest_of_store_mem hside hrun hall⟩

end Pxe

/-! ## A partial pass -/

namespace Sync

variable {σ : Type} {s s' : Site σ} {report : SyncReport}

theorem checkIdentifiers_eq_ok {registry : Registry} {identifiers : List String}
    (hblank : ∀ identifier ∈ identifiers, isBlankIdentifier identifier = false)
    (hmany : ∀ identifier ∈ identifiers, isAmbiguous registry identifier = false) :
    ∃ skipped, checkIdentifiers registry identifiers =
      .ok (identifiers.filterMap (hostOf? registry), skipped) := by
  have hfirst : identifiers.findIdx? isBlankIdentifier = none :=
    List.findIdx?_eq_none_iff.mpr hblank
  have hresolve := resolveHosts_spec registry identifiers
  rw [List.find?_eq_none.mpr fun identifier hmem => by simp [hmany identifier hmem]] at hresolve
  obtain ⟨skipped, hresolve⟩ := hresolve
  refine ⟨skipped, ?_⟩
  rw [checkIdentifiers, hfirst]
  exact hresolve

/-- A partial pass agrees with a full one.  Where no host has templates, no address has a slash in it
and no two hosts have a boot file in common, a partial pass over any hosts, named in any order and as
often as one likes, runs to its end on what a full pass left, with the same menu, and leaves
everything as it is.  The full pass may have recorded trouble with distributions and images. -/
theorem partialPass_after_full
    (hhosts : ∀ host ∈ ctx.registry.hosts, host.templateFiles.isEmpty = true)
    (hplain : ∀ host ∈ ctx.registry.hosts, Pxe.HasPlainAddresses host)
    (hown : Pxe.HaveOwnBootFiles ctx.registry.hosts)
    (hrun : full ctx (Pxe.generator ctx) s = (.ok report, s')) {identifiers : List String}
    (hblank : ∀ identifier ∈ identifiers, isBlankIdentifier identifier = false)
    (hmany : ∀ identifier ∈ identifiers, isAmbiguous ctx.registry identifier = false) :
    ∃ report', partialPass ctx (Pxe.generator ctx) identifiers s' = (.ok report', s') ∧
      report'.menuChecksum? = report.menuChecksum? := by
  -- whatever trouble there was came before the ending, which went through
  obtain ⟨loaders, s₁, distros, s₂, images, s₃, checksum, -, -, -, hending, rfl⟩ :=
    full_eq_ok.mp hrun
  obtain ⟨menu, t', hmenu, rfl, hsteps, rfl⟩ := (ending_iff hhosts).mp hending
  obtain ⟨skipped, hcheck⟩ := checkIdentifiers_eq_ok hblank hmany
  have hsome : ∀ host ∈ identifiers.filterMap (hostOf? ctx.registry), host ∈ ctx.registry.hosts := by
    intro host hhost
    obtain ⟨identifier, -, hof⟩ := List.mem_filterMap.mp hhost
    exact mem_of_hostOf? hof
  have hagain := (ending_iff (σ := σ) (s := { s₃ with tree := t' })
    fun host hhost => hhosts host (hsome host hhost)).mpr
      ⟨menu, t', hmenu, rfl, Pxe.runSteps_endingSteps_again hplain hown hsteps hsome, rfl⟩
  rw [partialPass_of_ok hcheck]
  exact ⟨_, run_bind_eq_ok.mpr ⟨_, _, hagain, rfl⟩, rfl⟩

theorem hasPlainAddresses_small : ∀ host ∈ smallContext.registry.hosts,
    Pxe.HasPlainAddresses host := by
  intro host hhost i hi mac hmac
  rcases List.mem_pair.mp hhost with rfl | rfl
  · cases List.mem_singleton.mp hi
    cases hmac
    decide
  · cases List.mem_singleton.mp hi
    cases hmac
    decide

/-- The first host of the small server is named twice, and one name leads nowhere. -/
theorem small_partialPass_after_full : ∃ report s', full smallContext (Pxe.generator smallContext)
      (⟨smallTree, ()⟩ : Site Unit) = (.ok report, s') ∧
    ∃ report', partialPass smallContext (Pxe.generator smallContext) ["h", "nobody", "h"] s' =
        (.ok report', s') ∧ report'.menuChecksum? = report.menuChecksum? := by
  obtain ⟨report, s', hrun, -⟩ := exists_full_small
  exact ⟨report, s', hrun, partialPass_after_full templateFiles_small hasPlainAddresses_small
    (by unfold Pxe.HaveOwnBootFiles; decide +kernel) hrun (by decide +kernel) (by decide +kernel)⟩

end Sync

end BootTree

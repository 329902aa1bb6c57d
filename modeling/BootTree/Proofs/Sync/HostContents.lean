/-
  What the boot files of the hosts hold after a pass.

  A pass writes the boot files of its hosts in turn, and two hosts may have one in common: the addresses
  that differ in case or in their separators lead to one name.

  1. **The last host** — the hosts of a pass, cut at the last one that has the name (`lastHost?`): none
     of the hosts behind it has the name.

  2. **The last store** — so the store that this host has at the name is the last one there, the menu
     has another name, and what is stored last stays (`read_of_endingSteps`).

  3. **The pass** — whatever a pass that runs to its end is about, it closes with these stores, and each
     of its boot files holds the configuration of the last of its hosts that has the name
     (`pass_leaves_host_files`).
-/
import BootTree.Proofs.Sync.Menu
import BootTree.Proofs.Sync.MenuFile

namespace BootTree

namespace Pxe

variable {ctx : Context} {menu : Menu} {hosts : List Host} {host last : Host}
  {name content : String} {t final : FileTree}

/-! ## The last host -/

/-- The last of some hosts that has a boot file of this name. -/
def lastHost? (hosts : List Host) (name : String) : Option Host :=
  hosts.reverse.find? fun host => name ∈ bootFileNames host

theorem lastHost?_eq_some : lastHost? hosts name = some last ↔ name ∈ bootFileNames last ∧
    ∃ before behind, hosts = before ++ last :: behind ∧
      ∀ host ∈ behind, name ∉ bootFileNames host := by
  rw [lastHost?, List.find?_eq_some_iff_append, decide_eq_true_eq]
  refine and_congr_right fun _ => ?_
  constructor
  · rintro ⟨later, earlier, hsplit, hlater⟩
    refine ⟨earlier.reverse, later.reverse, ?_, fun host hhost => ?_⟩
    · rw [← List.reverse_reverse hosts, hsplit]
      simp
    · simpa using hlater host (List.mem_reverse.mp hhost)
  · rintro ⟨before, behind, rfl, hbehind⟩
    refine ⟨behind.reverse, before.reverse, by simp, fun host hhost => ?_⟩
    simpa using hbehind host (List.mem_reverse.mp hhost)

/-- A name that some of the hosts has leads to a last one that has it. -/
theorem exists_lastHost (hhost : host ∈ hosts) (hname : name ∈ bootFileNames host) :
    ∃ last, lastHost? hosts name = some last := by
  have hsome : (lastHost? hosts name).isSome := by
    rw [lastHost?, List.find?_isSome]
    exact ⟨host, List.mem_reverse.mpr hhost, by simpa using hname⟩
  exact Option.isSome_iff_exists.mp hsome

/-! ## The last store -/

/-- The hosts of an ending that succeeds have their configurations. -/
theorem exists_hostConfig (hrun : runSteps (endingSteps ctx menu hosts) t = (.ok (), final))
    (hhost : host ∈ hosts) : ∃ content, hostConfig host menu = .ok content := by
  cases hconfig : hostConfig host menu with
  | ok content => exact ⟨content, rfl⟩
  | error e =>
    -- the ending would stop at this host
    have hstop : FileStep.stop e ∈ endingSteps ctx menu hosts := by
      refine List.mem_append_left _ (List.mem_flatMap.mpr ⟨host, hhost, ?_⟩)
      rw [hostSteps, hconfig]
      exact List.mem_cons_self
    exact absurd hstop (stop_not_mem_of_runSteps hrun e)

/-- An ending that is cut at a boot file of one of its hosts. -/
theorem endingSteps_split (ctx : Context) (before behind : List Host) {front back : List String}
    (hconfig : hostConfig last menu = .ok content)
    (hnames : bootFileNames last = front ++ name :: back) :
    ∃ earlier, endingSteps ctx menu (before ++ last :: behind) =
      earlier ++ .store (bootPath ctx name) content ::
        ((back.map fun name => .store (bootPath ctx name) content) ++
          endingSteps ctx menu behind) := by
  refine ⟨before.flatMap (hostSteps ctx menu) ++
    front.map fun name => .store (bootPath ctx name) content, ?_⟩
  have hlast : hostSteps ctx menu last =
      (bootFileNames last).map fun name => .store (bootPath ctx name) content := by
    rw [hostSteps, hconfig]
  simp only [endingSteps, List.flatMap_append, List.flatMap_cons, hlast, hnames, List.map_append,
    List.map_cons, List.append_assoc, List.cons_append]

/-- Hosts without a name store nothing under it, and neither does the menu. -/
theorem store_not_mem_endingSteps (hplain : ∀ host ∈ hosts, HasPlainAddresses host)
    (hrun : runSteps (endingSteps ctx menu hosts) t = (.ok (), final)) (hname : IsBootFileName name)
    (hhosts : ∀ host ∈ hosts, name ∉ bootFileNames host) (hmenu : name ≠ "default") :
    .store (bootPath ctx name) content ∉ endingSteps ctx menu hosts := by
  intro hmem
  obtain ⟨other, _, hstore, hfile⟩ := mem_endingSteps hrun hmem
  obtain ⟨hpath, -⟩ := FileStep.store.inj hstore
  obtain rfl := eq_of_bootPath_eq hname (hfile.isBootFileName hplain) hpath
  cases hfile with
  | host hhost _ hnamed => exact hhosts _ hhost hnamed
  | menu => exact hmenu rfl

/-- After the ending of a pass a boot file has the configuration of the last host with its name. -/
theorem read_of_endingSteps (hplain : ∀ host ∈ hosts, HasPlainAddresses host)
    (hrun : runSteps (endingSteps ctx menu hosts) t = (.ok (), final))
    (hlast : lastHost? hosts name = some last) : ∃ content, hostConfig last menu = .ok content ∧
      final.read (bootPath ctx name).text = .ok content.toUTF8 := by
  obtain ⟨hnamed, before, behind, rfl, hbehind⟩ := lastHost?_eq_some.mp hlast
  have hmem : last ∈ before ++ last :: behind := List.mem_append_right _ List.mem_cons_self
  have hname : IsBootFileName name := isBootFileName_of_mem (hplain last hmem) hnamed
  have hmenu : name ≠ "default" := fun h => default_not_mem last (h ▸ hnamed)
  have hstores : ∀ step ∈ endingSteps ctx menu (before ++ last :: behind), ∃ name content,
      step = .store (bootPath ctx name) content ∧ IsBootFileName name := by
    intro step hstep
    obtain ⟨other, text, rfl, hfile⟩ := mem_endingSteps hrun hstep
    exact ⟨other, text, rfl, hfile.isBootFileName hplain⟩
  obtain ⟨content, hconfig⟩ := exists_hostConfig hrun hmem
  obtain ⟨front, back, hnames⟩ := List.append_of_mem hnamed
  obtain ⟨earlier, hsplit⟩ := endingSteps_split ctx before behind hconfig hnames
  rw [hsplit] at hrun hstores
  refine ⟨content, hconfig, ?_⟩
  have hrest : AtRest (bootPath ctx name) content.toUTF8 final := by
    refine atRest_of_last_store hname (fun step hstep => ?_) (fun content' hstep => ?_) hrun
    · exact hstores step (List.mem_append_right _ (List.mem_cons_of_mem _ hstep))
    · rcases List.mem_append.mp hstep with hsame | hlater
      · obtain ⟨other, -, hstore⟩ := List.mem_map.mp hsame
        exact (FileStep.store.inj hstore).2.symm
      · -- what is left is an ending itself, for the hosts behind
        obtain ⟨_, -, hrun⟩ := runSteps_append_eq_ok.mp hrun
        obtain ⟨_, -, hrun⟩ := runSteps_cons_eq_ok.mp hrun
        obtain ⟨_, -, hrun⟩ := runSteps_append_eq_ok.mp hrun
        have hplain' : ∀ host ∈ behind, HasPlainAddresses host := fun host hhost =>
          hplain host (List.mem_append_right _ (List.mem_cons_of_mem _ hhost))
        exact absurd hlater (store_not_mem_endingSteps hplain' hrun hname hbehind hmenu)
  exact hrest.read

/-! ## The texts -/

/-- The menu has this entry for a host.  In a valid registry it was made from the host, and not from
another one of its name. -/
structure IsEntryOf (ctx : Context) (menu : Menu) (host : Host) (e : MenuEntry) : Prop where
  found : menu.hostEntry? host.name = some e
  made : ctx.registry.Valid → hostEntry ctx host = .ok e

/-- The text of the boot files of a host: what boots the entry that the menu has for it, or its own
disk if it does not boot from the net. -/
inductive HostText (ctx : Context) (menu : Menu) (host : Host) : String → Prop where
  | entry (e : MenuEntry) : host.netboot = true → IsEntryOf ctx menu host e →
      HostText ctx menu host ("DEFAULT " ++ e.label ++ "\nPROMPT 0\nTIMEOUT 0\n\n" ++ e.block)
  | disk : host.netboot = false →
      HostText ctx menu host "DEFAULT local\nPROMPT 0\nTIMEOUT 0\n\nLABEL local\n\tLOCALBOOT 0\n"

theorem hostText_of_hostConfig (hmenu : computeMenu ctx = .ok menu)
    (hhost : host ∈ ctx.registry.hosts) (h : hostConfig host menu = .ok content) :
    HostText ctx menu host content := by
  rw [hostConfig] at h
  by_cases hnet : host.netboot = true
  · rw [if_pos hnet] at h
    split at h
    · next e hfound =>
      cases h
      refine .entry e hnet ⟨hfound, fun hvalid => ?_⟩
      obtain ⟨-, distros, entries, hlists⟩ := computeMenu_eq_ok.mp hmenu
      obtain ⟨made, hmade, hfound'⟩ := hlists.hostEntry?_eq hvalid hhost hnet
      rw [hfound] at hfound'
      cases hfound'
      exact hmade
    · cases h
  · rw [if_neg hnet] at h
    cases h
    exact .disk (by simpa using hnet)

end Pxe

/-! ## The pass -/

namespace Sync

variable {σ : Type} {ctx : Context} {s s' : Site σ} {report : SyncReport}

theorem mem_processed {scope : Scope} {host : Host} (h : host ∈ processed ctx.registry scope) :
    host ∈ ctx.registry.hosts := by
  cases scope with
  | everything => exact h
  | hosts identifiers =>
    obtain ⟨identifier, -, hof⟩ := List.mem_filterMap.mp h
    exact mem_of_hostOf? hof

/-- Boot files have the right content.  A pass that runs to its end, over everything or over some
hosts, where none of its hosts has templates and no address of theirs has a slash in it, leaves in
each of their boot files the configuration of the last of them that has one of this name, whatever
was there before. -/
theorem pass_leaves_host_files (scope : Scope)
    (hhosts : ∀ host ∈ processed ctx.registry scope, host.templateFiles.isEmpty = true)
    (hplain : ∀ host ∈ processed ctx.registry scope, Pxe.HasPlainAddresses host)
    (hrun : pass ctx (Pxe.generator ctx) scope s = (.ok report, s')) :
    ∃ menu, Pxe.computeMenu ctx = .ok menu ∧
      ∀ host ∈ processed ctx.registry scope, ∀ name ∈ Pxe.bootFileNames host,
        ∃ last content, Pxe.lastHost? (processed ctx.registry scope) name = some last ∧
          Pxe.HostText ctx menu last content ∧
          s'.tree.textAt ((Pxe.configDirectory ctx.settings).join name) = .ok content := by
  obtain ⟨s₁, checksum, hending, -⟩ := exists_ending hrun
  obtain ⟨menu, t', hmenu, -, hsteps, rfl⟩ := (ending_iff hhosts).mp hending
  refine ⟨menu, hmenu, fun host hhost name hname => ?_⟩
  obtain ⟨last, hlast⟩ := Pxe.exists_lastHost hhost hname
  obtain ⟨content, hconfig, hread⟩ := Pxe.read_of_endingSteps hplain hsteps hlast
  obtain ⟨-, before, behind, hsplit, -⟩ := Pxe.lastHost?_eq_some.mp hlast
  have hprocessed : last ∈ processed ctx.registry scope := by
    rw [hsplit]
    exact List.mem_append_right _ List.mem_cons_self
  have htext : Pxe.HostText ctx menu last content :=
    Pxe.hostText_of_hostConfig hmenu (mem_processed hprocessed) hconfig
  exact ⟨last, content, hlast, htext, textAt_of_read hread⟩

/-- A server with two hosts that have a boot file in common. -/
def sharedContext : Context :=
  .standard { tftpRoot := "b" }
    { distros := [{ name := "d", kernel := "k", initrd := "i" }]
      hosts := [{ name := "h", distro := "d", interfaces := [⟨"eth0", some "AA:01", none⟩] },
        { name := "g", distro := "d", netboot := false,
          interfaces := [⟨"eth0", some "aa-01", none⟩] }] } false

/-- A pass that is about both of them. -/
def sharedScope : Scope := .hosts ["h", "g"]

theorem exists_pass_shared : ∃ report s', pass sharedContext (Pxe.generator sharedContext)
    sharedScope (⟨FileTree.empty [] "12", ()⟩ : Site Unit) = (.ok report, s') :=
  exists_of_isOk (by decide +kernel)

theorem hasPlainAddresses_shared : ∀ host ∈ processed sharedContext.registry sharedScope,
    Pxe.HasPlainAddresses host := by
  intro host hhost i hi mac hmac
  have hregistered : host ∈ sharedContext.registry.hosts := mem_processed hhost
  rcases List.mem_pair.mp hregistered with rfl | rfl
  · cases List.mem_singleton.mp hi
    cases hmac
    decide
  · cases List.mem_singleton.mp hi
    cases hmac
    decide

/-- The file that the two hosts have in common is the one of the second host, which comes last. -/
theorem shared_pass_leaves_host_files : ∃ report s', pass sharedContext
      (Pxe.generator sharedContext) sharedScope (⟨FileTree.empty [] "12", ()⟩ : Site Unit) =
        (.ok report, s') ∧
    ∃ menu, Pxe.computeMenu sharedContext = .ok menu ∧
      ∀ host ∈ processed sharedContext.registry sharedScope, ∀ name ∈ Pxe.bootFileNames host,
        ∃ last content,
          Pxe.lastHost? (processed sharedContext.registry sharedScope) name = some last ∧
          Pxe.HostText sharedContext menu last content ∧
          s'.tree.textAt ((Pxe.configDirectory sharedContext.settings).join name) =
            .ok content := by
  obtain ⟨report, s', hrun⟩ := exists_pass_shared
  exact ⟨report, s', hrun,
    pass_leaves_host_files sharedScope (by decide +kernel) hasPlainAddresses_shared hrun⟩

example : (Pxe.lastHost? (processed sharedContext.registry sharedScope) "01-aa-01").map
    Host.name = some "g" := by decide +kernel

end Sync

end BootTree

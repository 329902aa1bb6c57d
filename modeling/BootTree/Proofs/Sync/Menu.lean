/-
  The menu of a registry, entry by entry and label by label.

  1. **Entries** — a menu that is made lists one entry for each distribution and then one for each
     host that boots from the net, both in the order of the registry (`computeMenu_eq_ok`).  In a
     valid registry every host finds its distribution, and the renderer that leaves unknown names
     alone has a text for every template, so the menu is always made (`exists_lists`) and a host
     finds the entry that was made for it (`Lists.hostEntry?_eq`).

  2. **Labels** — the label of a host is its name behind a prefix.  Names are compared only within
     their kind when records are added, so the prefix alone does not keep the labels apart: they are
     distinct exactly if no distribution has the label of a host or that of the local disk as its
     name (`nodup_labels_iff`).
-/
import Mathlib.Data.List.Nodup
import BootTree.Proofs.Registry.Additions
import BootTree.Sync.Pxe

namespace BootTree

/-! ## Texts and views -/

/-- Where names without a value may stay, the pieces of any template have a text. -/
theorem Template.renderPieces_lenient (vars : Fields) (extra : Option Fields) (ps : List Piece) :
    ∃ text, renderPieces false vars extra ps = .ok text := by
  induction ps with
  | nil => exact ⟨[], rfl⟩
  | cons p rest ih =>
    obtain ⟨tail, ih⟩ := ih
    cases p with
    | literal text =>
      rw [renderPieces, ih]
      exact ⟨text ++ tail, rfl⟩
    | hole body =>
      rw [renderPieces, ih]
      cases resolve vars extra (holeName body) with
      | some v => exact ⟨_, rfl⟩
      | none => exact ⟨_, rfl⟩

theorem Renderer.render_lenient (template : String) (vars : Fields) :
    ∃ text, (placeholders false).render template vars = .ok text := by
  obtain ⟨text, htext⟩ := Template.renderPieces_lenient vars none (Template.pieces none template.toList)
  refine ⟨String.ofList text, mapError_eq_ok.mpr ?_⟩
  rw [Template.render, htext]
  rfl

/-- A view on a distribution can always be made. -/
theorem Resolver.blend_distro (settings : Settings) (r : Registry) (d : Distro) (collapsed : Bool) :
    ∃ view, (inheritance settings r).blend (.distro d) collapsed = .ok view := ⟨_, rfl⟩

/-- A view on a host can be made where its distribution is there. -/
theorem Resolver.blend_host (settings : Settings) {r : Registry} {h : Host} {d : Distro}
    (hd : r.findDistro? h.distro = some d) (collapsed : Bool) :
    ∃ view, (inheritance settings r).blend (.host h) collapsed = .ok view := by
  have hlayers : blendLayers settings r (.host h) =
      .ok (Fields.merge (Fields.merge settings.layer d.layer) h.layer) := by
    rw [blendLayers, hd]
  exact ⟨_, bind_eq_ok.mpr ⟨_, hlayers, rfl⟩⟩

/-- In a valid registry every host finds its distribution. -/
theorem Registry.Valid.findDistro? {r : Registry} (hr : r.Valid) {h : Host} (hh : h ∈ r.hosts) :
    ∃ d, r.findDistro? h.distro = some d := by
  obtain ⟨d, hd, hname⟩ := hr.distroOfHost h hh
  exact Option.isSome_iff_exists.mp
    (findDistro?_isSome.mpr (List.mem_map.mpr ⟨d, hd, hname⟩))

/-! ## Entries -/

/-- What an entry is for: the kind and the name of its record. -/
def MenuEntry.subject (e : MenuEntry) : EntryKind × String := (e.kind, e.name)

namespace Pxe

variable {ctx : Context} {menu : Menu}

/-- An entry has the name and the kind that it is made for, and leads to the staged files of its
distribution. -/
theorem menuEntry_eq_ok {renderer : Renderer} {kind : EntryKind} {name : String} {d : Distro}
    {view : Blended} {e : MenuEntry} (h : menuEntry renderer kind name d view = .ok e) :
    e.kind = kind ∧ e.name = name ∧ e.kernel = imagePath d.name d.kernel ∧
      e.initrd = imagePath d.name d.initrd := by
  obtain ⟨append, -, h⟩ := bind_eq_ok.mp h
  cases h
  exact ⟨rfl, rfl, rfl, rfl⟩

theorem distroEntry_eq_ok {d : Distro} {e : MenuEntry} (h : distroEntry ctx d = .ok e) :
    e.kind = .distro ∧ e.name = d.name ∧ e.kernel = imagePath d.name d.kernel ∧
      e.initrd = imagePath d.name d.initrd := by
  obtain ⟨view, -, h⟩ := bind_eq_ok.mp h
  exact menuEntry_eq_ok h

theorem hostEntry_eq_ok {h : Host} {e : MenuEntry} (he : hostEntry ctx h = .ok e) :
    e.kind = .host ∧ e.name = h.name := by
  rw [hostEntry] at he
  split at he
  · cases he
  · next d hd =>
    obtain ⟨view, -, he⟩ := bind_eq_ok.mp he
    have hentry := menuEntry_eq_ok he
    exact ⟨hentry.1, hentry.2.1⟩

/-- What a menu lists: entries of all distributions, then of the hosts that boot from the net, each
made from its record. -/
structure Lists (ctx : Context) (menu : Menu) (distros hosts : List MenuEntry) : Prop where
  entries : menu.entries = distros ++ hosts
  distros : List.Forall₂ (fun d e => distroEntry ctx d = .ok e) ctx.registry.distros distros
  hosts : List.Forall₂ (fun h e => hostEntry ctx h = .ok e)
    (ctx.registry.hosts.filter Host.netboot) hosts

theorem computeMenu_eq_ok : computeMenu ctx = .ok menu ↔
    menu.title = ctx.settings.menuTitle ∧ ∃ distros hosts, Lists ctx menu distros hosts := by
  rw [computeMenu, bind_eq_ok]
  constructor
  · rintro ⟨distros, hdistros, h⟩
    obtain ⟨hosts, hhosts, h⟩ := bind_eq_ok.mp h
    cases h
    exact ⟨rfl, distros, hosts, rfl, mapM_eq_ok.mp hdistros, mapM_eq_ok.mp hhosts⟩
  · rintro ⟨htitle, distros, hosts, hentries, hdistros, hhosts⟩
    refine ⟨distros, mapM_eq_ok.mpr hdistros, bind_eq_ok.mpr ⟨hosts, mapM_eq_ok.mpr hhosts, ?_⟩⟩
    rw [← htitle, ← hentries]

namespace Lists

variable {distros hosts : List MenuEntry}

/-- One entry for each distribution and then one for each host that boots from the net, in the order
of the registry. -/
theorem subjects (h : Lists ctx menu distros hosts) : menu.entries.map MenuEntry.subject =
    ctx.registry.distros.map (fun d => (.distro, d.name)) ++
      (ctx.registry.hosts.filter Host.netboot).map fun host => (.host, host.name) := by
  have hdistros : distros.map MenuEntry.subject =
      ctx.registry.distros.map fun d => (.distro, d.name) :=
    map_eq_of_forall₂ h.distros fun d e he =>
      Prod.ext (distroEntry_eq_ok he).1 (distroEntry_eq_ok he).2.1
  have hhosts : hosts.map MenuEntry.subject =
      (ctx.registry.hosts.filter Host.netboot).map fun host => (.host, host.name) :=
    map_eq_of_forall₂ h.hosts fun host e he =>
      Prod.ext (hostEntry_eq_ok he).1 (hostEntry_eq_ok he).2
  rw [h.entries, List.map_append, hdistros, hhosts]

/-- The entry of a name that a host has is the one that was made from this host: no distribution's
entry counts, and no other host has the name. -/
theorem hostEntry?_eq (h : Lists ctx menu distros hosts) (hr : ctx.registry.Valid) {host : Host}
    (hmem : host ∈ ctx.registry.hosts) (hnet : host.netboot = true) :
    ∃ e, hostEntry ctx host = .ok e ∧ menu.hostEntry? host.name = some e := by
  obtain ⟨e, he, hmade⟩ := exists_of_mem_left h.hosts (List.mem_filter.mpr ⟨hmem, hnet⟩)
  refine ⟨e, hmade, ?_⟩
  have hfits : (e.kind = .host && e.name = host.name) = true := by
    simpa using hostEntry_eq_ok hmade
  obtain ⟨found, hfound⟩ : ∃ found, menu.hostEntry? host.name = some found := by
    refine Option.isSome_iff_exists.mp (List.find?_isSome.mpr ⟨e, ?_, hfits⟩)
    rw [h.entries]
    exact List.mem_append_right _ he
  have hkind : found.kind = .host ∧ found.name = host.name := by
    simpa using List.find?_some hfound
  have hlisted : found ∈ distros ++ hosts := h.entries ▸ List.mem_of_find?_eq_some hfound
  rcases List.mem_append.mp hlisted with hdistro | hhost
  · obtain ⟨d, -, hmade'⟩ := exists_of_mem_right h.distros hdistro
    rw [(distroEntry_eq_ok hmade').1] at hkind
    cases hkind.1
  · obtain ⟨other, hother, hmade'⟩ := exists_of_mem_right h.hosts hhost
    have hsame : other = host := List.inj_on_of_nodup_map hr.hostsNodup
      (List.mem_filter.mp hother).1 hmem ((hostEntry_eq_ok hmade').2.symm.trans hkind.2)
    rw [hsame, hmade] at hmade'
    rw [hfound, Except.ok.inj hmade']

end Lists

/-! ## Making the menu -/

section Standard

variable (settings : Settings) {r : Registry}

theorem exists_menuEntry (kind : EntryKind) (name : String) (d : Distro) (view : Blended) :
    ∃ e, menuEntry (.placeholders false) kind name d view = .ok e := by
  obtain ⟨append, happend⟩ :=
    Renderer.render_lenient ((view.text? "kernel_options").getD "") view.values
  exact ⟨_, bind_eq_ok.mpr ⟨append, happend, rfl⟩⟩

theorem exists_distroEntry (d : Distro) :
    ∃ e, distroEntry (.standard settings r false) d = .ok e := by
  obtain ⟨view, hview⟩ := Resolver.blend_distro settings r d true
  obtain ⟨e, he⟩ := exists_menuEntry .distro d.name d view
  exact ⟨e, bind_eq_ok.mpr ⟨view, mapError_eq_ok.mpr hview, he⟩⟩

theorem exists_hostEntry (hr : r.Valid) {h : Host} (hh : h ∈ r.hosts) :
    ∃ e, hostEntry (.standard settings r false) h = .ok e := by
  obtain ⟨d, hd⟩ := hr.findDistro? hh
  obtain ⟨view, hview⟩ := Resolver.blend_host settings hd true
  obtain ⟨e, he⟩ := exists_menuEntry .host h.name d view
  refine ⟨e, ?_⟩
  rw [hostEntry, show (Context.standard settings r false).registry.findDistro? h.distro = some d
    from hd]
  exact bind_eq_ok.mpr ⟨view, mapError_eq_ok.mpr hview, he⟩

/-- In a valid registry every record has its entry, so the menu can be made. -/
theorem exists_lists (hr : r.Valid) : ∃ menu distros hosts,
    computeMenu (.standard settings r false) = .ok menu ∧
      Lists (.standard settings r false) menu distros hosts := by
  have hdistros : ∃ es, r.distros.mapM (distroEntry (.standard settings r false)) = .ok es :=
    exists_mapM_eq_ok fun d _ => exists_distroEntry settings d
  have hhosts : ∃ es, (r.hosts.filter Host.netboot).mapM
      (hostEntry (.standard settings r false)) = .ok es :=
    exists_mapM_eq_ok fun h hh => exists_hostEntry settings hr (List.mem_filter.mp hh).1
  obtain ⟨distros, hdistros⟩ := hdistros
  obtain ⟨hosts, hhosts⟩ := hhosts
  have hlists : Lists (.standard settings r false) ⟨settings.menuTitle, distros ++ hosts⟩ distros
      hosts := ⟨rfl, mapM_eq_ok.mp hdistros, mapM_eq_ok.mp hhosts⟩
  exact ⟨_, distros, hosts, computeMenu_eq_ok.mpr ⟨rfl, distros, hosts, hlists⟩, hlists⟩

end Standard

end Pxe

/-! ## Labels -/

/-- The label of a host. -/
def Host.label (h : Host) : String := "host-" ++ h.name

/-- The label of an entry of a kind with a name. -/
def labelOf : EntryKind × String → String
  | (.distro, name) => name
  | (.host, name) => "host-" ++ name

/-- All labels that a menu defines, the one of the local disk first. -/
def Menu.labels (m : Menu) : List String := "local" :: m.entries.map MenuEntry.label

namespace Pxe

variable {ctx : Context} {menu : Menu}

theorem Lists.labels {distros hosts : List MenuEntry} (h : Lists ctx menu distros hosts) :
    menu.labels = "local" :: (ctx.registry.distros.map Distro.name ++
      (ctx.registry.hosts.filter Host.netboot).map Host.label) := by
  have hlabel : MenuEntry.label = labelOf ∘ MenuEntry.subject := by
    funext e
    cases hkind : e.kind <;> simp [MenuEntry.label, MenuEntry.subject, labelOf, hkind]
  rw [Menu.labels, hlabel, ← List.map_map, h.subjects, List.map_append, List.map_map, List.map_map]
  rfl

/-- The labels of hosts differ where the hosts do. -/
theorem nodup_hostLabels {hosts : List Host} (h : (hosts.map Host.name).Nodup) (p : Host → Bool) :
    ((hosts.filter p).map Host.label).Nodup := by
  have hnames : ((hosts.filter p).map Host.name).Nodup :=
    h.sublist (List.filter_sublist.map Host.name)
  have hlabels : (hosts.filter p).map Host.label =
      ((hosts.filter p).map Host.name).map fun name => "host-" ++ name := by
    rw [List.map_map]
    rfl
  rw [hlabels]
  refine hnames.map fun a b hab => String.toList_inj.mp ?_
  simpa using congrArg String.toList hab

theorem label_ne_local (h : Host) : h.label ≠ "local" := by
  intro he
  have := congrArg (fun s => s.toList.head?) he
  simp [Host.label] at this

/-- The labels of the menu of a registry that was built by additions are distinct exactly if no
distribution is named like the local disk, or like the label of a host that boots from the net. -/
theorem nodup_labels_iff {calls : List Addition}
    (hregistry : ctx.registry = Addition.runAll calls .empty) (hmenu : computeMenu ctx = .ok menu) :
    menu.labels.Nodup ↔ "local" ∉ ctx.registry.distros.map Distro.name ∧
      ∀ h ∈ ctx.registry.hosts, h.netboot = true →
        h.label ∉ ctx.registry.distros.map Distro.name := by
  have hvalid : ctx.registry.Valid := hregistry ▸ Addition.runAll_valid calls Registry.valid_empty
  obtain ⟨-, distros, hosts, hlists⟩ := computeMenu_eq_ok.mp hmenu
  have hhosts := nodup_hostLabels hvalid.hostsNodup Host.netboot
  rw [hlists.labels, List.nodup_cons, List.nodup_append]
  constructor
  · rintro ⟨hlocal, -, -, hapart⟩
    refine ⟨fun hmem => hlocal (List.mem_append_left _ hmem), fun h hh hnet hmem => ?_⟩
    exact hapart _ hmem _ (List.mem_map_of_mem (List.mem_filter.mpr ⟨hh, hnet⟩)) rfl
  · rintro ⟨hlocal, hapart⟩
    refine ⟨fun hmem => ?_, hvalid.distrosNodup, hhosts, fun a ha b hb hab => ?_⟩
    · rcases List.mem_append.mp hmem with hmem | hmem
      · exact hlocal hmem
      · obtain ⟨h, -, hlabel⟩ := List.mem_map.mp hmem
        exact label_ne_local h hlabel
    · obtain ⟨h, hh, rfl⟩ := List.mem_map.mp hb
      obtain ⟨hh, hnet⟩ := List.mem_filter.mp hh
      exact hapart h hh hnet (hab ▸ ha)

/-- Calls that add a distribution and a host that boots it. -/
def oneHostCalls (distro host : String) : List Addition := [
  .distro { name := distro, kernel := "vmlinuz", initrd := "initrd.img" },
  .host { name := host, distro }]

/-- The menu that these calls lead to. -/
def oneHostMenu (distro host : String) : Menu where
  title := "Network Boot Menu"
  entries := [
    ⟨distro, .distro, imagePath distro "vmlinuz", imagePath distro "initrd.img", ""⟩,
    ⟨host, .host, imagePath distro "vmlinuz", imagePath distro "initrd.img", ""⟩]

/-- A distribution and a host may well have the same name. -/
theorem nodup_labels_same_name : (oneHostMenu "web01" "web01").labels.Nodup :=
  have hregistry : (Context.standard {} (Addition.runAll (oneHostCalls "web01" "web01") .empty)
      false).registry = Addition.runAll (oneHostCalls "web01" "web01") .empty := rfl
  (nodup_labels_iff hregistry (by decide +kernel)).mpr (by decide +kernel)

/-- But a distribution may have the label of a host as its name, and nothing refuses it. -/
theorem labels_may_collide : ¬ ∀ (settings : Settings) (d : Distro) (h : Host) (r r' : Registry)
    (menu : Menu), Registry.addDistro d .empty = (.ok (), r) →
      Registry.addHost h r = (.ok (), r') →
      computeMenu (.standard settings r' false) = .ok menu → menu.labels.Nodup := by
  intro hall
  have hnodup := hall {} _ _ _ _ (oneHostMenu "host-web01" "web01")
    (rfl : Registry.addDistro
      { name := "host-web01", kernel := "vmlinuz", initrd := "initrd.img" } .empty = _)
    (rfl : Registry.addHost { name := "web01", distro := "host-web01" } _ = _) (by decide +kernel)
  revert hnodup
  decide +kernel

example : (oneHostMenu "host-web01" "web01").labels = ["local", "host-web01", "host-web01"] := by
  decide

end Pxe

end BootTree

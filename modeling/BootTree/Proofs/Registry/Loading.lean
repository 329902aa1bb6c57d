/-
  Which registry documents are accepted.

  1. **Lists of records** — records that are added one by one are accepted together exactly if each
     of them is good by itself and no two of them, or one of them and one that was there, have a name
     in common (`forM_eq_ok`).

  2. **Documents** — distributions come before hosts, so a document is accepted exactly if its
     records make a valid registry, which it then is (`check_eq_ok`).  This says nothing of the order
     within a list, so a document may list its records in any order (`Rearranges.valid`).
-/
import BootTree.Proofs.Fields
import BootTree.Proofs.Registry.Additions

namespace BootTree.Registry

/-! ## Lists of records -/

section Lists

variable {α σ ε : Type} {name : α → String} {good : α → Prop}
  {add : α → ExceptT ε (StateM σ) Unit}

/-- Records come to the end of a list one by one, where each must be good and have a new name. -/
theorem forM_eq_ok (records : List α → σ)
    (hadd : ∀ done x s', add x (records done) = (.ok (), s') ↔
      good x ∧ name x ∉ done.map name ∧ s' = records (done ++ [x]))
    (xs : List α) {done : List α} (hdone : (done.map name).Nodup) {s' : σ} :
    xs.forM add (records done) = (.ok (), s') ↔
      (∀ x ∈ xs, good x) ∧ ((done ++ xs).map name).Nodup ∧ s' = records (done ++ xs) := by
  induction xs generalizing done with
  | nil =>
    rw [List.append_nil, show [].forM add (records done) = (.ok (), records done) from rfl]
    exact ⟨fun h => ⟨nofun, hdone, (congrArg Prod.snd h).symm⟩, fun ⟨_, _, h⟩ => by rw [h]⟩
  | cons x rest ih =>
    have happend : done ++ x :: rest = done ++ [x] ++ rest := List.append_cons done x rest
    rw [run_forM_cons_eq_ok, happend, List.forall_mem_cons]
    constructor
    · rintro ⟨s₁, hfirst, hrest⟩
      obtain ⟨hgood, hnew, rfl⟩ := (hadd done x s₁).mp hfirst
      obtain ⟨hall, hnodup, rfl⟩ :=
        (ih (Addition.nodup_map_append_singleton hdone hnew)).mp hrest
      exact ⟨⟨hgood, hall⟩, hnodup, rfl⟩
    · rintro ⟨⟨hgood, hall⟩, hnodup, rfl⟩
      have hfirst : ((done ++ [x]).map name).Nodup := by
        rw [List.map_append] at hnodup
        exact (List.nodup_append.mp hnodup).1
      exact ⟨_, (hadd done x _).mpr ⟨hgood, not_mem_of_nodup_append hfirst, rfl⟩,
        (ih hfirst).mpr ⟨hall, hnodup, rfl⟩⟩

/-- Where none was there before, the records are all that there are. -/
theorem forM_nil_eq_ok (records : List α → σ)
    (hadd : ∀ done x s', add x (records done) = (.ok (), s') ↔
      good x ∧ name x ∉ done.map name ∧ s' = records (done ++ [x]))
    (xs : List α) {s' : σ} : xs.forM add (records []) = (.ok (), s') ↔
      (∀ x ∈ xs, good x) ∧ (xs.map name).Nodup ∧ s' = records xs := by
  have hnone : (([] : List α).map name).Nodup := List.nodup_nil
  exact forM_eq_ok records hadd xs hnone

end Lists

/-! ## Documents -/

variable {r records records' : Registry}

theorem addDistro_eq_ok {d : Distro} {r' : Registry} : addDistro d r = (.ok (), r') ↔
    isValidName d.name = true ∧ d.name ∉ r.distros.map Distro.name ∧
      r' = { r with distros := r.distros ++ [d] } :=
  (Addition.run_eq_ok : (Addition.distro d).run r = (.ok (), r') ↔ _).trans and_assoc

theorem addHost_eq_ok {host : Host} {r' : Registry} : addHost host r = (.ok (), r') ↔
    (isValidName host.name = true ∧ host.distro ∈ r.distros.map Distro.name) ∧
      host.name ∉ r.hosts.map Host.name ∧ r' = { r with hosts := r.hosts ++ [host] } := by
  rw [show addHost host r = (Addition.host host).run r from rfl, Addition.run_eq_ok]
  constructor
  · rintro ⟨⟨hname, hnew, hthere⟩, rfl⟩
    exact ⟨⟨hname, hthere⟩, hnew, rfl⟩
  · rintro ⟨⟨hname, hthere⟩, hnew, rfl⟩
    exact ⟨⟨hname, hnew, hthere⟩, rfl⟩

theorem addImage_eq_ok {image : Image} {r' : Registry} : addImage image r = (.ok (), r') ↔
    isValidName image.name = true ∧ image.name ∉ r.images.map Image.name ∧
      r' = { r with images := r.images ++ [image] } :=
  (Addition.run_eq_ok : (Addition.image image).run r = (.ok (), r') ↔ _).trans and_assoc

/-- The records of a valid registry are added to the empty one, and only those. -/
theorem addAll_eq_ok : addAll records empty = (.ok (), r) ↔ records.Valid ∧ r = records := by
  obtain ⟨distros, hosts, images⟩ := records
  have hdistros : ∀ r₁, distros.forM addDistro empty = (.ok (), r₁) ↔
      (∀ d ∈ distros, isValidName d.name = true) ∧ (distros.map Distro.name).Nodup ∧
        r₁ = { distros } :=
    fun r₁ => forM_nil_eq_ok (fun done => ({ distros := done } : Registry))
      (fun _ _ _ => addDistro_eq_ok) distros
  have hhosts : ∀ r₂, hosts.forM addHost ({ distros } : Registry) = (.ok (), r₂) ↔
      (∀ h ∈ hosts, isValidName h.name = true ∧ h.distro ∈ distros.map Distro.name) ∧
        (hosts.map Host.name).Nodup ∧ r₂ = { distros, hosts } :=
    fun r₂ => forM_nil_eq_ok (fun done => ({ distros, hosts := done } : Registry))
      (fun _ _ _ => addHost_eq_ok) hosts
  have himages : ∀ r₃, images.forM addImage ({ distros, hosts } : Registry) = (.ok (), r₃) ↔
      (∀ i ∈ images, isValidName i.name = true) ∧ (images.map Image.name).Nodup ∧
        r₃ = { distros, hosts, images } :=
    fun r₃ => forM_nil_eq_ok (fun done => ({ distros, hosts, images := done } : Registry))
      (fun _ _ _ => addImage_eq_ok) images
  rw [addAll, run_bind_eq_ok]
  constructor
  · rintro ⟨u₁, r₁, h₁, h⟩
    obtain ⟨hdistroNames, hdistrosNodup, rfl⟩ := (hdistros r₁).mp h₁
    obtain ⟨u₂, r₂, h₂, h₃⟩ := run_bind_eq_ok.mp h
    obtain ⟨hgood, hhostsNodup, rfl⟩ := (hhosts r₂).mp h₂
    obtain ⟨himageNames, himagesNodup, rfl⟩ := (himages r).mp h₃
    exact ⟨{
      distroNames := hdistroNames
      hostNames := fun h hh => (hgood h hh).1
      imageNames := himageNames
      distrosNodup := hdistrosNodup
      hostsNodup := hhostsNodup
      imagesNodup := himagesNodup
      distroOfHost := fun h hh => List.mem_map.mp (hgood h hh).2 }, rfl⟩
  · rintro ⟨hvalid, rfl⟩
    refine ⟨(), _, (hdistros _).mpr ⟨hvalid.distroNames, hvalid.distrosNodup, rfl⟩, ?_⟩
    refine run_bind_eq_ok.mpr ⟨(), _, (hhosts _).mpr ⟨fun h hh => ?_, hvalid.hostsNodup, rfl⟩, ?_⟩
    · exact ⟨hvalid.hostNames h hh, List.mem_map.mpr (hvalid.distroOfHost h hh)⟩
    · exact (himages _).mpr ⟨hvalid.imageNames, hvalid.imagesNodup, rfl⟩

/-- A document is accepted exactly if its records make a valid registry, and gives this registry. -/
theorem check_eq_ok : records.check = .ok r ↔ records.Valid ∧ r = records := by
  rw [← addAll_eq_ok, check]
  rcases addAll records empty with ⟨result, r'⟩
  cases result with
  | error e =>
    refine ⟨nofun, fun h => ?_⟩
    cases congrArg Prod.fst h
  | ok u =>
    refine ⟨fun h => ?_, fun h => ?_⟩
    · cases h
      rfl
    · cases h
      rfl

/-- The same records in other orders. -/
structure Rearranges (records records' : Registry) : Prop where
  distros : records.distros.Perm records'.distros
  hosts : records.hosts.Perm records'.hosts
  images : records.images.Perm records'.images

theorem Rearranges.symm (h : records.Rearranges records') : records'.Rearranges records :=
  ⟨h.distros.symm, h.hosts.symm, h.images.symm⟩

theorem Rearranges.valid (h : records.Rearranges records') (hvalid : records.Valid) :
    records'.Valid where
  distroNames d hd := hvalid.distroNames d (h.distros.mem_iff.mpr hd)
  hostNames host hhost := hvalid.hostNames host (h.hosts.mem_iff.mpr hhost)
  imageNames i hi := hvalid.imageNames i (h.images.mem_iff.mpr hi)
  distrosNodup := (h.distros.map Distro.name).nodup_iff.mp hvalid.distrosNodup
  hostsNodup := (h.hosts.map Host.name).nodup_iff.mp hvalid.hostsNodup
  imagesNodup := (h.images.map Image.name).nodup_iff.mp hvalid.imagesNodup
  distroOfHost host hhost := by
    obtain ⟨d, hd, hname⟩ := hvalid.distroOfHost host (h.hosts.mem_iff.mpr hhost)
    exact ⟨d, h.distros.mem_iff.mp hd, hname⟩

end BootTree.Registry

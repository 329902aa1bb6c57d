/-
  Registries that are built by adding records.

  1. **The calls** — `Addition` is one call that adds a record, `Addition.run` makes it on a
     registry.  Every check comes before the record is put in its place (`refuseIf_bind`), so an
     accepted record comes to the end of its list, and a refused one leaves the registry
     (`Addition.run_cases`).

  2. **The invariant** — `Registry.Valid` relates the three lists: names are valid, no two records
     of a kind share one, and the distribution of every host is there.  One call keeps it
     (`Addition.run_valid`), so it holds after any number of calls, refused ones among them
     (`runAll_valid`).
-/
import BootTree.Proofs.Outcome
import BootTree.Registry.Registry

namespace BootTree

namespace Registry

/-! ## The invariant -/

/-- A registry whose records can be told apart by valid names, and whose hosts have their
distributions. -/
structure Valid (r : Registry) : Prop where
  distroNames : ∀ d ∈ r.distros, isValidName d.name = true
  hostNames : ∀ h ∈ r.hosts, isValidName h.name = true
  imageNames : ∀ i ∈ r.images, isValidName i.name = true
  distrosNodup : (r.distros.map Distro.name).Nodup
  hostsNodup : (r.hosts.map Host.name).Nodup
  imagesNodup : (r.images.map Image.name).Nodup
  distroOfHost : ∀ h ∈ r.hosts, ∃ d ∈ r.distros, d.name = h.distro

theorem valid_empty : empty.Valid where
  distroNames := nofun
  hostNames := nofun
  imageNames := nofun
  distrosNodup := List.nodup_nil
  hostsNodup := List.nodup_nil
  imagesNodup := List.nodup_nil
  distroOfHost := nofun

theorem findDistro?_isSome {r : Registry} {name : String} :
    (r.findDistro? name).isSome = true ↔ name ∈ r.distros.map Distro.name := by
  simp [findDistro?, List.mem_map]

theorem findDistro?_isNone {r : Registry} {name : String} :
    (r.findDistro? name).isNone = true ↔ name ∉ r.distros.map Distro.name := by
  simp [findDistro?, List.mem_map]

theorem any_name_eq {α : Type} {records : List α} {f : α → String} {name : String} :
    (records.any fun x => f x = name) = true ↔ name ∈ records.map f := by
  simp [List.mem_map]

/-- A check either ends the change, and then nothing was done, or does nothing. -/
theorem refuseIf_bind (test : Registry → Bool) (e : RegistryError) (rest : Unit → Change Unit)
    (r : Registry) :
    (refuseIf test e >>= rest) r = if test r = true then (.error e, r) else rest () r := by
  rw [refuseIf, run_bind, run_get_bind]
  cases test r <;> rfl

theorem checkName_bind (kind : RecordKind) (name : String) (rest : Unit → Change Unit)
    (r : Registry) : (checkName kind name >>= rest) r =
      if isValidName name = true then rest () r else (.error (.invalidName kind name), r) := by
  rw [checkName, refuseIf_bind]
  cases isValidName name <;> rfl

/-- A record with a valid name that passes a test goes on to the rest; any other one is refused. -/
theorem checked_cases (kind : RecordKind) (name : String) (test : Registry → Bool)
    (e : RegistryError) (rest : Unit → Change Unit) (r : Registry) :
    (isValidName name = true ∧ test r = false) ∧
      (checkName kind name >>= fun _ => refuseIf test e >>= rest) r = rest () r ∨
    ¬ (isValidName name = true ∧ test r = false) ∧
      ∃ e', (checkName kind name >>= fun _ => refuseIf test e >>= rest) r = (.error e', r) := by
  rw [checkName_bind, refuseIf_bind]
  by_cases hname : isValidName name = true
  · rw [if_pos hname]
    cases htest : test r with
    | false => exact .inl ⟨⟨hname, rfl⟩, rfl⟩
    | true => exact .inr ⟨fun h => Bool.noConfusion h.2, e, rfl⟩
  · rw [if_neg hname]
    exact .inr ⟨fun h => hname h.1, _, rfl⟩

end Registry

/-! ## The calls -/

/-- A call that adds a record to a registry. -/
inductive Addition where
  | distro (record : Distro)
  | host (record : Host)
  | image (record : Image)

namespace Addition

/-- The registry with the record at the end of its list, and otherwise as it was. -/
def append (call : Addition) (r : Registry) : Registry :=
  match call with
  | distro d => { r with distros := r.distros ++ [d] }
  | host h => { r with hosts := r.hosts ++ [h] }
  | image i => { r with images := r.images ++ [i] }

/-- What a registry accepts: a valid name that is new among the records of its kind, and for a host
a distribution that is there. -/
def Accepted (call : Addition) (r : Registry) : Prop :=
  match call with
  | distro d => isValidName d.name = true ∧ d.name ∉ r.distros.map Distro.name
  | host h => isValidName h.name = true ∧ h.name ∉ r.hosts.map Host.name ∧
      h.distro ∈ r.distros.map Distro.name
  | image i => isValidName i.name = true ∧ i.name ∉ r.images.map Image.name

/-- Makes a call on a registry: what it answers, and the registry afterwards. -/
def run (call : Addition) (r : Registry) : Except RegistryError Unit × Registry :=
  match call with
  | distro d => Registry.addDistro d r
  | host h => Registry.addHost h r
  | image i => Registry.addImage i r

/-- Makes calls one after another, whatever they answer. -/
def runAll (calls : List Addition) (r : Registry) : Registry :=
  calls.foldl (fun r call => (call.run r).2) r

/-- A call is accepted and appends its record, or it is refused and leaves the registry. -/
theorem run_cases (call : Addition) (r : Registry) :
    call.Accepted r ∧ call.run r = (.ok (), call.append r) ∨
    ¬ call.Accepted r ∧ ∃ e, call.run r = (.error e, r) := by
  cases call with
  | distro d =>
    have hfree : (r.findDistro? d.name).isSome = false ↔ d.name ∉ r.distros.map Distro.name := by
      rw [← Bool.not_eq_true, Registry.findDistro?_isSome]
    rcases Registry.checked_cases .distro d.name _ _ _ r with
      ⟨⟨hname, hnew⟩, hrun⟩ | ⟨hrefused, e, hrun⟩
    · exact .inl ⟨⟨hname, hfree.mp hnew⟩, hrun⟩
    · exact .inr ⟨fun h => hrefused ⟨h.1, hfree.mpr h.2⟩, e, hrun⟩
  | host h =>
    have hfree : (r.hosts.any fun other => other.name = h.name) = false ↔
        h.name ∉ r.hosts.map Host.name := by
      rw [← Bool.not_eq_true, Registry.any_name_eq]
    -- behind the two checks that all records pass, the distribution is looked up
    rcases Registry.checked_cases .host h.name _ _ (fun _ => Registry.refuseIf
        (fun r => (r.findDistro? h.distro).isNone) (.unknownDistro h.name h.distro) >>= fun _ =>
          modify fun r => { r with hosts := r.hosts ++ [h] }) r with
      ⟨⟨hname, hnew⟩, hrun⟩ | ⟨hrefused, e, hrun⟩
    · rw [Registry.refuseIf_bind] at hrun
      split at hrun
      · next hmissing =>
        exact .inr ⟨fun h => Registry.findDistro?_isNone.mp hmissing h.2.2, _, hrun⟩
      · next hthere =>
        rw [Registry.findDistro?_isNone, Decidable.not_not] at hthere
        exact .inl ⟨⟨hname, hfree.mp hnew, hthere⟩, hrun⟩
    · exact .inr ⟨fun h => hrefused ⟨h.1, hfree.mpr h.2.1⟩, e, hrun⟩
  | image i =>
    have hfree : (r.images.any fun other => other.name = i.name) = false ↔
        i.name ∉ r.images.map Image.name := by
      rw [← Bool.not_eq_true, Registry.any_name_eq]
    rcases Registry.checked_cases .image i.name _ _ _ r with
      ⟨⟨hname, hnew⟩, hrun⟩ | ⟨hrefused, e, hrun⟩
    · exact .inl ⟨⟨hname, hfree.mp hnew⟩, hrun⟩
    · exact .inr ⟨fun h => hrefused ⟨h.1, hfree.mpr h.2⟩, e, hrun⟩

/-- A record is accepted under exactly these conditions, and comes to the end of its list. -/
theorem run_eq_ok {call : Addition} {r r' : Registry} :
    call.run r = (.ok (), r') ↔ call.Accepted r ∧ r' = call.append r := by
  rcases run_cases call r with ⟨haccepted, hrun⟩ | ⟨hrefused, e, hrun⟩
  · rw [hrun]
    exact ⟨fun h => ⟨haccepted, (congrArg Prod.snd h).symm⟩, fun ⟨_, h⟩ => by rw [h]⟩
  · rw [hrun]
    refine ⟨fun h => ?_, fun ⟨haccepted, _⟩ => absurd haccepted hrefused⟩
    cases congrArg Prod.fst h

/-! ## The invariant along the calls -/

theorem mem_append_singleton {α : Type} {P : α → Prop} {records : List α} {x : α}
    (h : ∀ y ∈ records, P y) (hx : P x) : ∀ y ∈ records ++ [x], P y := by
  intro y hy
  rcases List.mem_append.mp hy with hy | hy
  · exact h y hy
  · rw [List.mem_singleton.mp hy]
    exact hx

theorem nodup_map_append_singleton {α : Type} {f : α → String} {records : List α} {x : α}
    (h : (records.map f).Nodup) (hx : f x ∉ records.map f) : ((records ++ [x]).map f).Nodup := by
  rw [List.map_append, List.map_singleton, List.nodup_append]
  refine ⟨h, List.pairwise_singleton _ _, fun a ha b hb => ?_⟩
  rw [List.mem_singleton.mp hb]
  rintro rfl
  exact hx ha

/-- An accepted record keeps the registry valid. -/
theorem append_valid {call : Addition} {r : Registry} (hr : r.Valid) (h : call.Accepted r) :
    (call.append r).Valid := by
  cases call with
  | distro d =>
    refine { hr with
      distroNames := mem_append_singleton hr.distroNames h.1
      distrosNodup := nodup_map_append_singleton hr.distrosNodup h.2
      distroOfHost := fun host hhost => ?_ }
    -- the distributions that were there are still there
    obtain ⟨d', hd', hname⟩ := hr.distroOfHost host hhost
    exact ⟨d', List.mem_append_left _ hd', hname⟩
  | host host =>
    obtain ⟨hname, hnew, hthere⟩ := h
    exact { hr with
      hostNames := mem_append_singleton hr.hostNames hname
      hostsNodup := nodup_map_append_singleton hr.hostsNodup hnew
      distroOfHost := mem_append_singleton hr.distroOfHost (List.mem_map.mp hthere) }
  | image i =>
    exact { hr with
      imageNames := mem_append_singleton hr.imageNames h.1
      imagesNodup := nodup_map_append_singleton hr.imagesNodup h.2 }

/-- One call keeps a valid registry valid, whatever it answers. -/
theorem run_valid (call : Addition) {r : Registry} (hr : r.Valid) : (call.run r).2.Valid := by
  rcases run_cases call r with ⟨haccepted, hrun⟩ | ⟨-, e, hrun⟩
  · rw [hrun]
    exact append_valid hr haccepted
  · rw [hrun]
    exact hr

theorem runAll_valid (calls : List Addition) {r : Registry} (hr : r.Valid) :
    (runAll calls r).Valid := by
  induction calls generalizing r with
  | nil => exact hr
  | cons call rest ih => exact ih (run_valid call hr)

/-- After any calls on the empty registry, refused ones among them, the registry is valid.  The next
call is accepted exactly under its conditions; then its record comes to the end of its list, and
otherwise the registry stays as it is. -/
theorem runAll_empty (calls : List Addition) :
    (runAll calls .empty).Valid ∧
    ∀ call : Addition,
      (call.Accepted (runAll calls .empty) ∧
        call.run (runAll calls .empty) = (.ok (), call.append (runAll calls .empty))) ∨
      (¬ call.Accepted (runAll calls .empty) ∧
        ∃ e, call.run (runAll calls .empty) = (.error e, runAll calls .empty)) :=
  ⟨runAll_valid calls Registry.valid_empty, fun call => run_cases call _⟩

end Addition

end BootTree

/-
  The two views on a record.

  1. **Collapsing** — a scalar stays, and a list or an object gives way to a text (`Collapses`).  Keys
     have no part in it, so member by member the collapsed view goes with the other one
     (`collapses_members`).

  2. **Keys** — merging takes no key away and brings none in (`mem_keys_merge`).  The layer of a record
     has the free variables in place of the field that holds them, so it has a key of this name only
     through a free variable (`variables_mem_recordLayer`).

  3. **Views** — a view can be made unless a host lacks its distribution (`LacksDistro`), whether it
     is collapsed or not (`blend_agree`).
-/
import BootTree.Blend
import BootTree.Proofs.Fields
import BootTree.Proofs.Outcome

namespace BootTree

/-! ## Collapsing -/

/-- Neither a list nor an object. -/
def Value.IsScalar : Value → Prop
  | .list _ | .object _ => False
  | .null | .bool _ | .number _ | .text _ => True

/-- What a value may become in a collapsed view. -/
inductive Collapses : Value → Value → Prop where
  | scalar {v : Value} : v.IsScalar → Collapses v v
  | list {items : List Value} {s : String} : Collapses (.list items) (.text s)
  | object {members : Fields} {s : String} : Collapses (.object members) (.text s)

theorem collapses_collapse (v : Value) : Collapses v (collapse v) := by
  cases v with
  | list items => exact .list
  | object members => exact .object
  | null | bool | number | text => exact .scalar trivial

theorem Collapses.isScalar {v flat : Value} (h : Collapses v flat) : flat.IsScalar := by
  cases h with
  | scalar hscalar => exact hscalar
  | list | object => exact trivial

theorem Fields.keys_collapse (fields : Fields) : fields.collapse.keys = fields.keys := by
  rw [keys, collapse, List.map_map]
  rfl

theorem collapses_members (fields : Fields) :
    List.Forall₂ (fun m flat => flat.1 = m.1 ∧ Collapses m.2 flat.2) fields fields.collapse := by
  induction fields with
  | nil => exact .nil
  | cons m rest ih => exact .cons ⟨rfl, collapses_collapse m.2⟩ ih

/-- Member by member, the second view is the first one collapsed. -/
structure CollapsesTo (view flat : Blended) : Prop where
  keys : flat.values.keys = view.values.keys
  members : List.Forall₂ (fun m flat => flat.1 = m.1 ∧ Collapses m.2 flat.2)
    view.values flat.values
  scalars : ∀ m ∈ flat.values, m.2.IsScalar

theorem collapsesTo_collapse (fields : Fields) : CollapsesTo ⟨fields⟩ ⟨fields.collapse⟩ where
  keys := fields.keys_collapse
  members := collapses_members fields
  scalars m hm := by
    obtain ⟨old, -, -, hcollapses⟩ := exists_of_mem_right (collapses_members fields) hm
    exact hcollapses.isScalar

/-! ## Keys -/

namespace Fields

variable {key : String} {base upper members : Fields}

theorem mem_keys_insert {k : String} {value : Value} :
    key ∈ (base.insert k value).keys ↔ key ∈ base.keys ∨ key = k := by
  rw [keys_insert]
  split
  · next hold =>
    constructor
    · exact .inl
    · rintro (hkey | rfl)
      · exact hkey
      · exact hold
  · rw [List.mem_append, List.mem_singleton]

theorem mem_keys_insertAll : key ∈ (base.insertAll members).keys ↔
    key ∈ base.keys ∨ key ∈ members.keys := by
  induction members generalizing base with
  | nil => simp [insertAll, keys]
  | cons m rest ih =>
    have hstep : base.insertAll (m :: rest) = (base.insert m.1 m.2).insertAll rest := rfl
    have hkeys : keys (m :: rest) = m.1 :: keys rest := rfl
    rw [hstep, ih, mem_keys_insert, hkeys, List.mem_cons, or_assoc]

/-- Laying members over others takes no key away and brings in none but theirs. -/
theorem mem_keys_merge : key ∈ (merge base upper).keys ↔ key ∈ base.keys ∨ key ∈ keys upper := by
  induction upper generalizing base with
  | nil => simp [merge, keys]
  | cons m rest ih =>
    have hkeys : keys (m :: rest) = m.1 :: keys rest := rfl
    rw [merge_cons, ih, mem_keys_insert, hkeys, List.mem_cons, or_assoc]

theorem mem_keys_erase {k : String} : key ∈ (base.erase k).keys ↔ key ∈ base.keys ∧ key ≠ k := by
  simp [keys, erase]

end Fields

/-- The field that holds the free variables is no key of the layer; the free variables are. -/
theorem variables_mem_recordLayer {record : Value} {free : Fields} :
    "variables" ∈ (recordLayer record free).keys ↔ "variables" ∈ free.keys := by
  rw [recordLayer, Fields.mem_keys_insertAll, Fields.mem_keys_erase]
  simp

theorem Settings.variables_mem_layer (s : Settings) :
    "variables" ∈ s.layer.keys ↔ "variables" ∈ s.templateVariables.keys := by
  rw [layer, Fields.mem_keys_insertAll]
  simp [Fields.keys]

/-! ## Views -/

/-- A host of which the distribution is not there, with the error for it. -/
inductive LacksDistro (registry : Registry) : Entity → RegistryError → Prop where
  | host {h : Host} : registry.findDistro? h.distro = none →
      LacksDistro registry (.host h) (.unknownDistro h.name h.distro)

/-- The free variables that a view takes in: those of the settings, of the distribution, and of the
host if it is a view on one. -/
def freeVariables (settings : Settings) (registry : Registry) : Entity → List Fields
  | .distro d => [settings.templateVariables, d.templateVariables]
  | .host h => settings.templateVariables ::
      ((registry.findDistro? h.distro).map Distro.templateVariables).toList ++
        [h.templateVariables]

section Views

variable {settings : Settings} {registry : Registry} {entity : Entity} {fields : Fields}

theorem blendLayers_eq_error {e : RegistryError} :
    blendLayers settings registry entity = .error e ↔ LacksDistro registry entity e := by
  cases entity with
  | distro d => exact ⟨nofun, nofun⟩
  | host h =>
    rw [blendLayers]
    cases hfind : registry.findDistro? h.distro with
    | some d =>
      refine ⟨nofun, fun hlacks => ?_⟩
      cases hlacks with
      | host hnone =>
        rw [hfind] at hnone
        cases hnone
    | none =>
      constructor
      · intro heq
        cases heq
        exact .host hfind
      · intro hlacks
        cases hlacks
        rfl

theorem variables_mem_blendLayers (h : blendLayers settings registry entity = .ok fields) :
    "variables" ∈ fields.keys ↔
      ∃ free ∈ freeVariables settings registry entity, "variables" ∈ free.keys := by
  cases entity with
  | distro d =>
    cases h
    rw [Fields.mem_keys_merge, settings.variables_mem_layer, Distro.layer,
      variables_mem_recordLayer]
    simp [freeVariables]
  | host host =>
    rw [blendLayers] at h
    split at h
    · next d hfind =>
      cases h
      rw [Fields.mem_keys_merge, Fields.mem_keys_merge, settings.variables_mem_layer, Distro.layer,
        Host.layer, variables_mem_recordLayer, variables_mem_recordLayer]
      simp [freeVariables, hfind, or_assoc]
    · cases h

end Views

/-- A view and the collapsed view agree.  Neither can be made for a host that lacks its distribution,
and both can in all other cases.  Then they have the same keys in the same order, the scalars of the
one are those of the other, and every list or object has become a text.  There is a key `variables` in
them exactly if free variables of that name are given. -/
theorem blend_agree (settings : Settings) (registry : Registry) (entity : Entity) :
    let blend := (Resolver.inheritance settings registry).blend entity
    (∀ collapsed e, blend collapsed = .error e ↔ LacksDistro registry entity e) ∧
    ((∃ e, LacksDistro registry entity e) ∨ ∃ view flat,
      blend false = .ok view ∧ blend true = .ok flat ∧ CollapsesTo view flat ∧
      ∀ either ∈ [view, flat], "variables" ∈ either.values.keys ↔
        ∃ free ∈ freeVariables settings registry entity, "variables" ∈ free.keys) := by
  intro blend
  constructor
  · intro collapsed e
    have hlacks : blendLayers settings registry entity = .error e ↔ LacksDistro registry entity e :=
      blendLayers_eq_error
    rw [← hlacks]
    refine bind_eq_error.trans ⟨?_, .inl⟩
    rintro (hlayers | ⟨fields, -, h⟩)
    · exact hlayers
    · cases h
  · cases hlayers : blendLayers settings registry entity with
    | error e => exact .inl ⟨e, blendLayers_eq_error.mp hlayers⟩
    | ok fields =>
      have hvariables := variables_mem_blendLayers hlayers
      have hmade : ∀ collapsed, blend collapsed =
          .ok ⟨if collapsed then fields.collapse else fields⟩ :=
        fun collapsed => bind_eq_ok.mpr ⟨fields, hlayers, rfl⟩
      refine .inr ⟨⟨fields⟩, ⟨fields.collapse⟩, hmade false, hmade true,
        collapsesTo_collapse fields, ?_⟩
      intro either heither
      rcases List.mem_pair.mp heither with rfl | rfl
      · exact hvariables
      · rw [fields.keys_collapse]
        exact hvariables

/-- A host may name one of its variables so. -/
example :
    let registry : Registry := { distros := [{ name := "d", kernel := "k", initrd := "i" }] }
    let host : Host := { name := "h", distro := "d", templateVariables := [("variables", .list [])] }
    let view := (Resolver.inheritance {} registry).blend (.host host) true
    view.toOption.bind (·.get? "variables") = some (.text "") := by
  decide +kernel

end BootTree

/-
  What stands at a path after one layer was laid over another.

  A path is a list of keys, and leads through objects only (`Value.at?`).  Laying one value over
  another is a recursion over both, so every fact here is an induction on the path; what lies below is
  arbitrary, and where nothing lies below, null may stand for it (`get?_merge_of_some`).

  1. **Where the upper value says something** — a value that is no object stands as it is
     (`at?_overlay_of_plain`) and hides all that was below it (`at?_overlay_of_hidden`); an object is
     merged with the members that the lower value has there (`at?_overlay_of_object`).

  2. **Where it says nothing** — the lower value shows through (`at?_overlay_of_none`).

  3. **Again** — a value that lies over another already changes nothing (`overlay_overlay`).
-/
import BootTree.Proofs.Source

namespace BootTree

/-! ## Paths -/

namespace Value

/-- The members of an object; any other value has none. -/
def members (v : Value) : Fields := v.object?.getD []

/-- The value that a path of keys leads to. -/
def at? (v : Value) : List String → Option Value
  | [] => some v
  | key :: path => (v.members.get? key).bind fun inner => inner.at? path

/-- The members of the object at a path; none where there is no object. -/
def membersAt (v : Value) (path : List String) : Fields := (v.at? path).elim [] members

/-- On the way to the path stands a value that is no object. -/
def Hides (v : Value) (path : List String) : Prop :=
  ∃ q, q <+: path ∧ q ≠ path ∧ ∃ u, v.at? q = some u ∧ u.object? = none

variable {v base : Value} {key : String} {path : List String}

theorem members_of_object?_eq_none (h : v.object? = none) : v.members = [] := by
  rw [members, h]
  rfl

theorem eq_object_of_object?_ne_none (h : v.object? ≠ none) : v = .object v.members := by
  cases v with
  | object => rfl
  | null | bool | number | text | list => exact absurd rfl h

theorem eq_object_of_get?_members {inner : Value} (h : v.members.get? key = some inner) :
    v = .object v.members := by
  refine eq_object_of_object?_ne_none fun hnone => ?_
  rw [members_of_object?_eq_none hnone] at h
  cases h

theorem at?_object_cons (fields : Fields) (key : String) (path : List String) :
    (object fields).at? (key :: path) = (fields.get? key).bind fun inner => inner.at? path := rfl

/-- Nothing is at a path through a value that is no object. -/
theorem at?_cons_of_object?_eq_none (h : v.object? = none) (key : String) (path : List String) :
    v.at? (key :: path) = none := by
  rw [at?, members_of_object?_eq_none h]
  rfl

theorem at?_append (v : Value) (q path : List String) :
    v.at? (q ++ path) = (v.at? q).bind fun u => u.at? path := by
  induction q generalizing v with
  | nil => rfl
  | cons key q ih =>
    rw [List.cons_append, at?, at?]
    cases v.members.get? key with
    | none => rfl
    | some inner => exact ih inner

/-- Where nothing is under the first key, null may stand for it. -/
theorem membersAt_cons (v : Value) (key : String) (path : List String) :
    v.membersAt (key :: path) = ((v.members.get? key).getD .null).membersAt path := by
  rw [membersAt, at?]
  cases v.members.get? key with
  | some inner => rfl
  | none => cases path <;> rfl

theorem Hides.cons {inner : Value} (hget : v.members.get? key = some inner)
    (h : inner.Hides path) : v.Hides (key :: path) := by
  obtain ⟨q, hbegins, hproper, u, hu, hplain⟩ := h
  refine ⟨key :: q, (List.prefix_cons_inj key).mpr hbegins, by simpa using hproper, u, ?_, hplain⟩
  rw [at?, hget]
  exact hu

theorem DistinctKeys.keys {fields : Fields} (h : (Value.object fields).DistinctKeys) :
    fields.keys.Nodup := by
  cases h with
  | object hkeys _ => exact hkeys

theorem DistinctKeys.get? {fields : Fields} (h : (Value.object fields).DistinctKeys) {inner : Value}
    (hget : fields.get? key = some inner) : inner.DistinctKeys := by
  cases h with
  | object _ hvalues => exact hvalues _ (Fields.mem_of_get?_eq_some hget)

theorem DistinctKeys.at? (h : v.DistinctKeys) {u : Value} (hu : v.at? path = some u) :
    u.DistinctKeys := by
  induction path generalizing v with
  | nil =>
    cases hu
    exact h
  | cons key path ih =>
    obtain ⟨inner, hget, hinner⟩ := Option.bind_eq_some_iff.mp hu
    rw [eq_object_of_get?_members hget] at h
    exact ih (h.get? hget) hinner

end Value

/-! ## Members of merged layers -/

namespace Fields

variable {base upper : Fields} {key : String}

/-- The keys of the lower layer, then those that are new. -/
theorem keys_merge_eq_append (h : keys upper |>.Nodup) (base : Fields) :
    (merge base upper).keys = base.keys ++ (keys upper).filter (· ∉ base.keys) := by
  induction upper generalizing base with
  | nil => rw [merge, keys, keys, List.map_nil, List.filter_nil, List.append_nil]
  | cons m rest ih =>
    obtain ⟨key, value⟩ := m
    obtain ⟨hfirst, hrest⟩ := List.nodup_cons.mp h
    have hkeys : keys ((key, value) :: rest) = key :: keys rest := rfl
    rw [merge_cons, ih hrest, keys_insert, hkeys]
    by_cases hmem : key ∈ base.keys
    · rw [if_pos hmem, List.filter_cons_of_neg (by simpa using hmem)]
    · rw [if_neg hmem, List.filter_cons_of_pos (by simpa using hmem), List.append_assoc,
        List.singleton_append]
      congr 2
      refine List.filter_congr fun k hk => ?_
      have hne : k ≠ key := fun he => hfirst (he ▸ hk)
      simp [hne]

theorem merge_of_nodup (h : (base ++ upper).keys.Nodup) : merge base upper = base ++ upper := by
  induction upper generalizing base with
  | nil => rw [merge, List.append_nil]
  | cons m rest ih =>
    obtain ⟨key, value⟩ := m
    have hnew : key ∉ base.keys := not_mem_keys_of_nodup h
    have hsplit : base ++ (key, value) :: rest = base ++ [(key, value)] ++ rest :=
      List.append_cons base _ _
    rw [merge_cons, get?_eq_none_iff.mpr hnew, insert_of_not_mem hnew, hsplit]
    exact ih (hsplit ▸ h)

theorem get?_merge_of_none (h : keys upper |>.Nodup) (hnone : get? upper key = none)
    (base : Fields) : (merge base upper).get? key = base.get? key := by
  rw [get?_merge h, hnone]
  cases base.get? key <;> rfl

theorem get?_merge_of_some (h : keys upper |>.Nodup) {value : Value}
    (hsome : get? upper key = some value) (base : Fields) :
    (merge base upper).get? key = some (((base.get? key).getD .null).overlay value) := by
  rw [get?_merge h, hsome]
  cases base.get? key with
  | some old => rfl
  | none =>
    refine congrArg some ?_
    cases value <;> rfl

theorem insert_of_get? {value : Value} (h : base.get? key = some value) :
    base.insert key value = base := by
  induction base with
  | nil => cases h
  | cons m rest ih =>
    obtain ⟨k, v⟩ := m
    rw [get?] at h
    rw [insert]
    split at h
    · next hk => rw [if_pos hk, Option.some.inj h]
    · next hk => rw [if_neg hk, ih h]

/-- A layer changes nothing if every member of it lies over what is there already. -/
theorem merge_eq_self (h : ∀ m ∈ upper, ∃ old, base.get? m.1 = some old ∧ old.overlay m.2 = old) :
    merge base upper = base := by
  induction upper with
  | nil => rw [merge]
  | cons m rest ih =>
    obtain ⟨hfirst, hrest⟩ := List.forall_mem_cons.mp h
    obtain ⟨old, hget, hover⟩ := hfirst
    rw [merge_cons, hget]
    dsimp only
    rw [hover, insert_of_get? hget]
    exact ih hrest

end Fields

/-! ## Laying over -/

namespace Value

variable {v base : Value} {path : List String}

/-- An object is merged with the members below it. -/
theorem overlay_object {upper : Fields} (h : upper.keys.Nodup) (base : Value) :
    base.overlay (.object upper) = .object (Fields.merge base.members upper) := by
  have hempty : Fields.merge [] upper = upper :=
    Fields.merge_of_nodup (by rwa [List.nil_append])
  cases base with
  | object lower =>
    rw [overlay]
    rfl
  | null | bool | number | text | list => exact congrArg Value.object hempty.symm

/-- A value that is no object stands as it is. -/
theorem overlay_of_object?_eq_none (h : v.object? = none) (base : Value) : base.overlay v = v := by
  cases v with
  | object => cases h
  | null | bool | number | text | list => rfl

theorem at?_overlay_of_plain (h : v.DistinctKeys) {u : Value} (hu : v.at? path = some u)
    (hplain : u.object? = none) (base : Value) : (base.overlay v).at? path = some u := by
  induction path generalizing v base with
  | nil =>
    cases hu
    rw [overlay_of_object?_eq_none hplain, at?]
  | cons key path ih =>
    obtain ⟨inner, hget, hinner⟩ := Option.bind_eq_some_iff.mp hu
    rw [eq_object_of_get?_members hget] at h ⊢
    rw [overlay_object h.keys, at?_object_cons, Fields.get?_merge_of_some h.keys hget]
    exact ih (h.get? hget) hinner _

/-- What lies below a value that is no object cannot be reached any more. -/
theorem at?_overlay_of_hidden (h : v.DistinctKeys) (hhides : v.Hides path) (base : Value) :
    (base.overlay v).at? path = none := by
  obtain ⟨q, ⟨rest, rfl⟩, hproper, u, hu, hplain⟩ := hhides
  rw [at?_append, at?_overlay_of_plain h hu hplain]
  cases rest with
  | nil => exact absurd (List.append_nil q).symm hproper
  | cons key path => exact at?_cons_of_object?_eq_none hplain key path

theorem at?_overlay_of_object (h : v.DistinctKeys) {upper : Fields}
    (hupper : v.at? path = some (.object upper)) (base : Value) :
    (base.overlay v).at? path = some (.object (Fields.merge (base.membersAt path) upper)) := by
  induction path generalizing v base with
  | nil =>
    cases hupper
    rw [overlay_object h.keys, at?]
    rfl
  | cons key path ih =>
    obtain ⟨inner, hget, hinner⟩ := Option.bind_eq_some_iff.mp hupper
    rw [eq_object_of_get?_members hget] at h ⊢
    rw [overlay_object h.keys, at?_object_cons, Fields.get?_merge_of_some h.keys hget,
      membersAt_cons]
    exact ih (h.get? hget) hinner _

theorem at?_overlay_of_none (h : v.DistinctKeys) (hnone : v.at? path = none)
    (hopen : ¬ v.Hides path) (base : Value) : (base.overlay v).at? path = base.at? path := by
  induction path generalizing v base with
  | nil => cases hnone
  | cons key path ih =>
    have hobject : v = .object v.members := eq_object_of_object?_ne_none fun hplain =>
      hopen ⟨[], List.nil_prefix, (List.cons_ne_nil key path).symm, v, rfl, hplain⟩
    rw [hobject] at h ⊢
    rw [overlay_object h.keys, at?_object_cons, at?]
    cases hget : v.members.get? key with
    | none => rw [Fields.get?_merge_of_none h.keys hget]
    | some inner =>
      have hinner : inner.at? path = none := by
        rw [at?, hget] at hnone
        exact hnone
      rw [Fields.get?_merge_of_some h.keys hget, Option.bind_some,
        ih (h.get? hget) hinner (fun hides => hopen (hides.cons hget))]
      cases base.members.get? key with
      | some old => rfl
      | none =>
        -- the path goes on, as something is at its start but nothing at its end
        cases path with
        | nil => cases hinner
        | cons => rfl

theorem overlay_overlay (h : v.DistinctKeys) (base : Value) :
    (base.overlay v).overlay v = base.overlay v := by
  induction h generalizing base with
  | null | bool | number | text | list => rfl
  | @object members hkeys hvalues ih =>
    rw [overlay_object hkeys, overlay_object hkeys]
    refine congrArg Value.object (Fields.merge_eq_self fun m hm => ?_)
    have hget := Fields.get?_eq_some_of_mem hkeys hm
    exact ⟨_, Fields.get?_merge_of_some hkeys hget _, ih m hm _⟩

/-- What is at a path after a value was laid over another one. -/
structure LaidOverAt (base upper result : Value) (path : List String) : Prop where
  /-- A value that is no object stands. -/
  plain : ∀ u, upper.at? path = some u → u.object? = none → result.at? path = some u
  /-- Below such a value nothing is left. -/
  hidden : upper.Hides path → result.at? path = none
  /-- An object has the keys of the object below in their order, then its own new ones in theirs. -/
  object : ∀ members : Fields, upper.at? path = some (.object members) →
    ∃ both : Fields, result.at? path = some (.object both) ∧ both.keys =
      (base.membersAt path).keys ++ members.keys.filter (· ∉ (base.membersAt path).keys)
  /-- Where nothing is said, all is as below. -/
  silent : upper.at? path = none → ¬ upper.Hides path → result.at? path = base.at? path

theorem laidOverAt_overlay (h : v.DistinctKeys) (base : Value) (path : List String) :
    LaidOverAt base v (base.overlay v) path where
  plain _ hu hplain := at?_overlay_of_plain h hu hplain base
  hidden hhides := at?_overlay_of_hidden h hhides base
  object _ hmembers := ⟨_, at?_overlay_of_object h hmembers base,
    Fields.keys_merge_eq_append (h.at? hmembers).keys _⟩
  silent hnone hopen := at?_overlay_of_none h hnone hopen base

end Value

/-- A layer that is merged into another one decides, path by path, what is there, and does so once:
merged a second time it changes nothing, not even the order of the keys. -/
theorem Fields.merge_pathwise {layer : Fields} (h : (Value.object layer).DistinctKeys)
    (base : Fields) :
    (∀ path, Value.LaidOverAt (.object base) (.object layer) (.object (merge base layer)) path) ∧
      merge (merge base layer) layer = merge base layer := by
  have hmerge : (Value.object base).overlay (.object layer) = .object (merge base layer) :=
    Value.overlay_object h.keys _
  refine ⟨fun path => hmerge ▸ Value.laidOverAt_overlay h (.object base) path, ?_⟩
  have hagain := Value.overlay_overlay h (.object base)
  rw [hmerge, Value.overlay_object h.keys] at hagain
  exact Value.object.inj hagain

/-- An object that is hidden by a text, and one that is merged with another. -/
theorem Fields.merge_pathwise_small :
    let lower : Fields := [("owner", .object [("name", .text "a")]),
      ("options", .object [("console", .text "tty0"), ("quiet", .null)])]
    let upper : Fields := [("options", .object [("ip", .text "dhcp"), ("quiet", .bool true)]),
      ("owner", .text "root")]
    (Value.object upper).DistinctKeys ∧
      (Value.object (merge lower upper)).at? ["owner", "name"] = none ∧
      (∃ both : Fields, (Value.object (merge lower upper)).at? ["options"] = some (.object both) ∧
        both.keys = ["console", "quiet", "ip"]) ∧
      merge (merge lower upper) upper = merge lower upper := by
  intro lower upper
  have hoptions : (Value.object [("ip", .text "dhcp"), ("quiet", .bool true)]).DistinctKeys :=
    .object (by decide) (List.forall_mem_cons.mpr
      ⟨.text "dhcp", List.forall_mem_singleton.mpr (.bool true)⟩)
  have hupper : (Value.object upper).DistinctKeys :=
    .object (by decide) (List.forall_mem_cons.mpr
      ⟨hoptions, List.forall_mem_singleton.mpr (.text "root")⟩)
  obtain ⟨hpaths, hagain⟩ := merge_pathwise hupper lower
  exact ⟨hupper, (hpaths _).hidden ⟨["owner"], by decide, by decide, .text "root", rfl, rfl⟩,
    (hpaths ["options"]).object _ rfl, hagain⟩

end BootTree

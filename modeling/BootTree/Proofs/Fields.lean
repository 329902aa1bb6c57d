/-
  Objects and layers.

  A member that is inserted keeps the place of its key, so an object has every key once, in the order
  in which the keys first came (`keys_foldl_merge`).  Under a key a pile of layers has what its layers
  have there, laid over one another (`get?_foldl_merge`).
-/
import BootTree.Source
import Mathlib.Data.List.Nodup

namespace BootTree

/-- Where nothing comes twice, what comes now has not come before. -/
theorem not_mem_of_nodup_append {α β : Type} {f : α → β} {done rest : List α} {x : α}
    (h : ((done ++ x :: rest).map f).Nodup) : f x ∉ done.map f := by
  rw [List.map_append, List.map_cons, List.nodup_middle] at h
  exact fun hmem => (List.nodup_cons.mp h).1 (List.mem_append_left _ hmem)

namespace Fields

variable {fields base upper : Fields} {key k : String} {value : Value}

/-! ## Members by key -/

theorem get?_insert (key : String) (value : Value) (fields : Fields) (k : String) :
    (fields.insert key value).get? k = if k = key then some value else fields.get? k := by
  induction fields with
  | nil => simp only [insert, get?, eq_comm]
  | cons m rest ih =>
    obtain ⟨l, v⟩ := m
    by_cases hl : l = key
    · subst hl
      by_cases hk : k = l
      · subst hk
        simp [insert, get?]
      · simp [insert, get?, hk, Ne.symm hk]
    · by_cases hk : l = k
      · subst hk
        simp [insert, get?, hl]
      · simp [insert, get?, hl, hk, ih]

/-- Erasing a member takes away no other. -/
theorem get?_erase_of_ne (h : key ≠ k) : (fields.erase k).get? key = fields.get? key := by
  induction fields with
  | nil => rfl
  | cons m rest ih =>
    rw [erase] at ih
    rw [erase]
    by_cases hm : m.1 = k
    · have hne : m.1 ≠ key := fun he => h (he.symm.trans hm)
      rw [List.filter_cons_of_neg (by simpa using hm), ih, get?, if_neg hne]
    · rw [List.filter_cons_of_pos (by simpa using hm), get?, get?, ih]

theorem mem_of_get?_eq_some {key : String} {value : Value} :
    ∀ {fields : Fields}, fields.get? key = some value → (key, value) ∈ fields
  | [], h => by cases h
  | (k, v) :: rest, h => by
    rw [get?] at h
    split at h
    · next hk =>
      rw [← hk, ← Option.some.inj h]
      exact List.mem_cons_self
    · exact List.mem_cons_of_mem _ (mem_of_get?_eq_some h)

theorem get?_eq_none_iff : fields.get? key = none ↔ key ∉ fields.keys := by
  induction fields with
  | nil => simp [get?, keys]
  | cons m rest ih =>
    rw [keys] at ih
    rw [get?, keys, List.map_cons, List.mem_cons, not_or, ← ih]
    split
    · next hk => simp [hk]
    · next hk => simp [Ne.symm hk]

/-- An object that has every key once has its members under their keys. -/
theorem get?_eq_some_of_mem (hnodup : fields.keys.Nodup) (h : (key, value) ∈ fields) :
    fields.get? key = some value := by
  induction fields with
  | nil => cases h
  | cons m rest ih =>
    obtain ⟨hfirst, hrest⟩ := List.nodup_cons.mp hnodup
    rw [get?]
    rcases List.mem_cons.mp h with rfl | hmem
    · rw [if_pos rfl]
    · have hne : m.1 ≠ key := fun he => hfirst (he ▸ List.mem_map_of_mem hmem)
      rw [if_neg hne, ih hrest hmem]

/-! ## The keys of what is inserted -/

theorem keys_insert (key : String) (value : Value) (fields : Fields) :
    (fields.insert key value).keys =
      if key ∈ fields.keys then fields.keys else fields.keys ++ [key] := by
  induction fields with
  | nil => rfl
  | cons m rest ih =>
    obtain ⟨l, v⟩ := m
    rw [insert]
    have hcons : ∀ (u : Value) (others : Fields), keys ((l, u) :: others) = l :: others.keys :=
      fun _ _ => rfl
    by_cases hl : l = key
    · simp [keys, hl]
    · rw [if_neg hl, hcons, hcons, ih]
      by_cases hmem : key ∈ keys rest
      · rw [if_pos hmem, if_pos (List.mem_cons_of_mem l hmem)]
      · rw [if_neg hmem, if_neg (List.not_mem_cons_of_ne_of_not_mem (Ne.symm hl) hmem)]
        rfl

/-- A new key comes at the end. -/
theorem insert_of_not_mem (h : key ∉ fields.keys) (value : Value) :
    fields.insert key value = fields ++ [(key, value)] := by
  induction fields with
  | nil => rfl
  | cons m rest ih =>
    obtain ⟨l, v⟩ := m
    have hne : l ≠ key := fun he => h (he ▸ List.mem_cons_self)
    have hrest : key ∉ keys rest := fun hmem => h (List.mem_cons_of_mem l hmem)
    rw [insert, if_neg hne, ih hrest, List.cons_append]

theorem nodup_keys_insert (h : fields.keys.Nodup) : (fields.insert key value).keys.Nodup := by
  rw [keys_insert]
  split
  · exact h
  · next hnew => exact List.nodup_append.mpr ⟨h, List.nodup_singleton key, by
      intro a ha b hb hab
      rw [List.mem_singleton.mp hb] at hab
      exact hnew (hab ▸ ha)⟩

theorem mem_insert {m : String × Value} (h : m ∈ fields.insert key value) :
    m = (key, value) ∨ m ∈ fields := by
  induction fields with
  | nil => exact .inl (List.mem_singleton.mp h)
  | cons first rest ih =>
    obtain ⟨l, v⟩ := first
    rw [insert] at h
    split at h
    · rcases List.mem_cons.mp h with rfl | hmem
      · next hl => exact .inl (by rw [hl])
      · exact .inr (List.mem_cons_of_mem _ hmem)
    · rcases List.mem_cons.mp h with rfl | hmem
      · exact .inr List.mem_cons_self
      · exact (ih hmem).imp_right (List.mem_cons_of_mem _)

theorem nodup_keys_insertAll (h : base.keys.Nodup) (members : Fields) :
    (base.insertAll members).keys.Nodup := by
  induction members generalizing base with
  | nil => exact h
  | cons m rest ih => exact ih (nodup_keys_insert h)

theorem get?_insertAll_of_not_mem {members : Fields} (h : key ∉ members.keys) (base : Fields) :
    (base.insertAll members).get? key = base.get? key := by
  induction members generalizing base with
  | nil => rfl
  | cons m rest ih =>
    rw [keys, List.map_cons, List.mem_cons, not_or] at h
    obtain ⟨hne, hrest⟩ := h
    exact (ih hrest (base.insert m.1 m.2)).trans (by rw [get?_insert, if_neg hne])

/-! ## Layers -/

/-- Values laid over one another, the lowest first. -/
def laidOver : List Value → Option Value
  | [] => none
  | lowest :: others => some (others.foldl Value.overlay lowest)

/-- What is laid over the lower values is laid over what they come to. -/
theorem laidOver_append (lower upper : List Value) :
    laidOver ((laidOver lower).toList ++ upper) = laidOver (lower ++ upper) := by
  cases lower with
  | nil => rfl
  | cons lowest others =>
    rw [List.cons_append, laidOver, laidOver, List.foldl_append]
    rfl

/-- Of two objects the members are merged, else the upper value stands. -/
theorem overlay_cases (base v : Value) :
    (∃ lower upper, base = .object lower ∧ v = .object upper ∧
      base.overlay v = .object (merge lower upper)) ∨ base.overlay v = v := by
  cases v with
  | object upper =>
    cases base with
    | object lower => exact .inl ⟨lower, upper, rfl, rfl, by rw [Value.overlay]⟩
    | null | bool | number | text | list => exact .inr rfl
  | null | bool | number | text | list => exact .inr rfl

theorem merge_cons (base : Fields) (key : String) (value : Value) (rest : Fields) :
    merge base ((key, value) :: rest) =
      merge (base.insert key (match base.get? key with
        | some old => old.overlay value
        | none => value)) rest := by
  cases hget : base.get? key with
  | none => simp only [merge, hget]
  | some old => simp only [merge, hget]

theorem get?_merge (h : keys upper |>.Nodup) (base : Fields) (key : String) :
    (merge base upper).get? key =
      laidOver ((base.get? key).toList ++ (get? upper key).toList) := by
  induction upper generalizing base with
  | nil =>
    rw [merge]
    cases base.get? key <;> rfl
  | cons m rest ih =>
    obtain ⟨l, v⟩ := m
    obtain ⟨hfirst, hrest⟩ := List.nodup_cons.mp h
    rw [merge_cons, ih hrest, get?_insert]
    by_cases hk : key = l
    · -- the rest does not have this key any more
      have hnone : get? rest key = none := get?_eq_none_iff.mpr (hk ▸ hfirst)
      rw [if_pos hk, hnone, get?, if_pos hk.symm, hk]
      cases base.get? l <;> rfl
    · rw [if_neg hk, get?, if_neg (Ne.symm hk)]

theorem nodup_keys_merge (h : base.keys.Nodup) (upper : Fields) : (merge base upper).keys.Nodup := by
  induction upper generalizing base with
  | nil =>
    rw [merge]
    exact h
  | cons m rest ih =>
    rw [merge_cons]
    exact ih (nodup_keys_insert h)

/-- A pile of layers has under a key what its layers have there, laid over one another. -/
theorem get?_foldl_merge {layers : List Fields} (h : ∀ layer ∈ layers, layer.keys.Nodup)
    (base : Fields) (key : String) : (layers.foldl merge base).get? key =
      laidOver ((base :: layers).filterMap fun layer => layer.get? key) := by
  have hcons : ∀ (lowest : Fields) (others : List Fields),
      (lowest :: others).filterMap (fun layer => layer.get? key) =
        (lowest.get? key).toList ++ others.filterMap fun layer => layer.get? key := by
    intro lowest others
    rw [List.filterMap_cons]
    cases lowest.get? key <;> rfl
  induction layers generalizing base with
  | nil =>
    rw [List.foldl_nil, hcons, List.filterMap_nil, List.append_nil]
    cases base.get? key <;> rfl
  | cons layer rest ih =>
    obtain ⟨hlayer, hrest⟩ := List.forall_mem_cons.mp h
    rw [List.foldl_cons, ih hrest, hcons, get?_merge hlayer, laidOver_append, hcons, hcons,
      List.append_assoc]

theorem eraseDups_of_nodup {l : List String} (h : l.Nodup) : l.eraseDups = l := by
  induction l with
  | nil => rfl
  | cons a rest ih =>
    obtain ⟨hfirst, hrest⟩ := List.nodup_cons.mp h
    have hkeep : rest.filter (fun b => !b == a) = rest := by
      refine List.filter_eq_self.mpr fun b hb => ?_
      simpa using fun hba : b = a => hfirst (hba ▸ hb)
    rw [List.eraseDups_cons, hkeep, ih hrest]

theorem keys_merge (h : base.keys.Nodup) (upper : Fields) :
    (merge base upper).keys = (base.keys ++ keys upper).eraseDups := by
  induction upper generalizing base with
  | nil =>
    rw [merge, keys, keys, List.map_nil, List.append_nil]
    exact (eraseDups_of_nodup h).symm
  | cons m rest ih =>
    obtain ⟨key, value⟩ := m
    rw [merge_cons, ih (nodup_keys_insert h), keys_insert]
    by_cases hmem : key ∈ base.keys
    · rw [if_pos hmem, List.eraseDups_append, List.eraseDups_append]
      have hdrop : (key :: keys rest).removeAll base.keys = (keys rest).removeAll base.keys := by
        simp [List.removeAll, hmem]
      exact congrArg (base.keys.eraseDups ++ List.eraseDups ·) hdrop.symm
    · rw [if_neg hmem, List.append_assoc]
      rfl

/-- A pile of layers has the keys of its layers, each once, in the order in which they first come. -/
theorem keys_foldl_merge (h : base.keys.Nodup) (layers : List Fields) :
    (layers.foldl merge base).keys = ((base :: layers).flatMap keys).eraseDups := by
  induction layers generalizing base with
  | nil => simp [eraseDups_of_nodup h]
  | cons layer rest ih =>
    have hkeys := keys_merge h layer
    have hnodup := nodup_keys_merge h layer
    rw [List.foldl_cons, ih hnodup, List.flatMap_cons, hkeys, List.eraseDups_append,
      eraseDups_of_nodup (hkeys ▸ hnodup), List.flatMap_cons, List.flatMap_cons, ← List.append_assoc,
      @List.eraseDups_append _ _ _ (base.keys ++ layer.keys)]
    congr 2
    simp [List.removeAll]

theorem nodup_keys_foldl_merge (h : base.keys.Nodup) (layers : List Fields) :
    (layers.foldl merge base).keys.Nodup := by
  induction layers generalizing base with
  | nil => exact h
  | cons layer rest ih => exact ih (nodup_keys_merge h layer)

end Fields

/-! ## Reading objects -/

theorem Source.nodup_keys_fields? {entries : List (Option String × Source)} {done fields : Fields}
    (hdone : done.keys.Nodup) (h : fields? done entries = some fields) : fields.keys.Nodup := by
  induction entries generalizing done with
  | nil =>
    rw [fields?] at h
    cases h
    exact hdone
  | cons entry rest ih =>
    obtain ⟨key?, s⟩ := entry
    rw [fields?] at h
    obtain ⟨key, -, h⟩ := Option.bind_eq_some_iff.mp h
    obtain ⟨value, -, h⟩ := Option.bind_eq_some_iff.mp h
    exact ih (Fields.nodup_keys_insert hdone) h

/-- An object that was read has every key once. -/
theorem Source.nodup_keys_asFields {s : Source} {fields : Fields} (h : s.asFields = some fields) :
    fields.keys.Nodup := by
  obtain ⟨entries, -, h⟩ := Option.bind_eq_some_iff.mp h
  have hnone : Fields.keys [] = [] := rfl
  exact nodup_keys_fields? (hnone ▸ .nil) h

end BootTree

/-
  Reading back what plain data says.

  1. **Distinct keys** — an object is a map, so no key stands in it twice, at any depth
     (`Value.DistinctKeys`).  Only such data can be told from what it says: of a repeated key the last
     value would count, in the place of the first.

  2. **Values** — such data reads back as itself (`value?_ofValue`), an object as its members
     (`asFields_ofValue`), and a list of records as the records if each of them does
     (`asList_ofValue`).

  3. **Records** — a record that gives its fields once has its members in the slots
     (`slots_ofValue`), so a field is read from the member under its name (`required_slotsOf`,
     `optional_slotsOf`).

  4. **Plain documents** — whatever is read from a document has no key twice, though the document may
     repeat keys (`Plain.distinctKeys`), and so have the fields and the lists of its records
     (`distinctKeys_of_optional`, `plain_of_optional_asList`).
-/
import BootTree.Proofs.Fields

namespace BootTree

/-! ## Distinct keys -/

/-- No object in the data has a key twice. -/
inductive Value.DistinctKeys : Value → Prop where
  | null : DistinctKeys .null
  | bool (b : Bool) : DistinctKeys (.bool b)
  | number (n : Number) : DistinctKeys (.number n)
  | text (s : String) : DistinctKeys (.text s)
  | list {items : List Value} : (∀ v ∈ items, DistinctKeys v) → DistinctKeys (.list items)
  | object {members : Fields} : members.keys.Nodup → (∀ m ∈ members, DistinctKeys m.2) →
      DistinctKeys (.object members)

theorem Fields.not_mem_keys_of_nodup {done rest : Fields} {key : String} {v : Value}
    (h : (keys (done ++ (key, v) :: rest)).Nodup) : key ∉ done.keys :=
  not_mem_of_nodup_append h

namespace Source

/-! ## Values -/

theorem ofValues_eq_map (items : List Value) : ofValues items = items.map ofValue := by
  induction items with
  | nil => rfl
  | cons v rest ih => rw [ofValues, ih, List.map_cons]

theorem values?_ofValues {items : List Value} (h : ∀ v ∈ items, value? (ofValue v) = some v) :
    values? (ofValues items) = some items := by
  induction items with
  | nil => rfl
  | cons v rest ih =>
    obtain ⟨hfirst, hrest⟩ := List.forall_mem_cons.mp h
    rw [ofValues, values?, hfirst, ih hrest]
    rfl

/-- Members with new keys come to the end of an object one by one. -/
theorem fields?_ofFields (done : Fields) {members : Fields}
    (hkeys : (Fields.keys (done ++ members)).Nodup)
    (h : ∀ m ∈ members, value? (ofValue m.2) = some m.2) :
    fields? done (ofFields members) = some (done ++ members) := by
  induction members generalizing done with
  | nil => rw [ofFields, fields?, List.append_nil]
  | cons m rest ih =>
    obtain ⟨key, v⟩ := m
    obtain ⟨hfirst, hrest⟩ := List.forall_mem_cons.mp h
    have hsplit : done ++ (key, v) :: rest = done ++ [(key, v)] ++ rest := List.append_cons done _ _
    have hnext : fields? (done.insert key v) (ofFields rest) = some (done ++ (key, v) :: rest) := by
      rw [Fields.insert_of_not_mem (Fields.not_mem_keys_of_nodup hkeys), hsplit]
      exact ih _ (hsplit ▸ hkeys) hrest
    rw [ofFields, fields?, hfirst]
    exact hnext

theorem value?_ofValue {v : Value} (h : v.DistinctKeys) : value? (ofValue v) = some v := by
  induction h with
  | null | bool | number | text => rfl
  | list _ ih =>
    rw [ofValue, value?, values?_ofValues ih]
    rfl
  | object hkeys _ ih =>
    rw [ofValue, value?, fields?_ofFields [] hkeys ih]
    rfl

theorem asFields_ofValue {members : Fields} (h : (Value.object members).DistinctKeys) :
    asFields (ofValue (.object members)) = some members := by
  cases h with
  | object hkeys hvalues =>
    rw [ofValue]
    exact fields?_ofFields [] hkeys fun m hm => value?_ofValue (hvalues m hm)

theorem asText_ofValue (s : String) : asText (ofValue (.text s)) = some s := rfl

theorem asBool_ofValue (b : Bool) : asBool (ofValue (.bool b)) = some b := rfl

/-- Records that read back one by one read back as a list. -/
theorem asList_ofValue {α : Type} {read : Source → Option α} {toValue : α → Value} {xs : List α}
    (h : ∀ x ∈ xs, read (ofValue (toValue x)) = some x) :
    asList read (ofValue (.list (xs.map toValue))) = some xs := by
  rw [ofValue, asList, ofValues_eq_map, List.map_map]
  induction xs with
  | nil => rfl
  | cons x rest ih =>
    obtain ⟨hfirst, hrest⟩ := List.forall_mem_cons.mp h
    rw [List.map_cons, List.mapM_cons, Function.comp_apply, hfirst, ih hrest]
    rfl

/-! ## Records -/

/-- The slots that the members of a record fill. -/
def slotsOf (members : Fields) : List (String × Source) := members.map fun m => (m.1, ofValue m.2)

theorem lookup_slotsOf (members : Fields) (key : String) :
    (slotsOf members).lookup key = (members.get? key).map ofValue := by
  induction members with
  | nil => rfl
  | cons m rest ih =>
    obtain ⟨k, v⟩ := m
    rw [slotsOf] at ih
    rw [slotsOf, List.map_cons, List.lookup_cons, Fields.get?]
    by_cases hk : k = key
    · rw [if_pos hk, show (key == k) = true from beq_iff_eq.mpr hk.symm]
      rfl
    · rw [if_neg hk, show (key == k) = false from beq_eq_false_iff_ne.mpr (Ne.symm hk)]
      exact ih

/-- Members with new keys come to the end of the slots one by one. -/
theorem sortEntries_ofFields {names : List String} (done : Fields) {members : Fields}
    (hnames : ∀ m ∈ members, m.1 ∈ names) (hkeys : (Fields.keys (done ++ members)).Nodup) :
    sortEntries names (slotsOf done) (ofFields members) = some (slotsOf (done ++ members)) := by
  induction members generalizing done with
  | nil => rw [ofFields, sortEntries, List.append_nil]
  | cons m rest ih =>
    obtain ⟨key, v⟩ := m
    obtain ⟨hfirst, hrest⟩ := List.forall_mem_cons.mp hnames
    have hsplit : done ++ (key, v) :: rest = done ++ [(key, v)] ++ rest := List.append_cons done _ _
    have hnew : ((slotsOf done).lookup key).isSome = false := by
      rw [lookup_slotsOf, Fields.get?_eq_none_iff.mpr (Fields.not_mem_keys_of_nodup hkeys)]
      rfl
    have hslots : slotsOf done ++ [(key, ofValue v)] = slotsOf (done ++ [(key, v)]) := by
      rw [slotsOf, slotsOf, List.map_append]
      rfl
    have hnext : sortEntries names (slotsOf done ++ [(key, ofValue v)]) (ofFields rest) =
        some (slotsOf (done ++ (key, v) :: rest)) := by
      rw [hslots, hsplit]
      exact ih _ hrest (hsplit ▸ hkeys)
    rw [ofFields, sortEntries]
    simpa [hfirst, hnew] using hnext

theorem slots_ofValue {names : List String} {members : Fields} (hkeys : members.keys = names)
    (hnodup : names.Nodup) : slots names (ofValue (.object members)) = some (slotsOf members) := by
  subst hkeys
  rw [ofValue]
  exact sortEntries_ofFields [] (fun m hm => List.mem_map_of_mem hm) hnodup

section Slots

variable {α : Type} (members : Fields) (key : String) (read : Source → Option α)

theorem required_slotsOf : required (slotsOf members) key read =
    (members.get? key).bind fun v => read (ofValue v) := by
  rw [required, lookup_slotsOf]
  cases members.get? key <;> rfl

theorem optional_slotsOf (absent : α) : optional (slotsOf members) key absent read =
    (members.get? key).elim (some absent) fun v => read (ofValue v) := by
  rw [optional, lookup_slotsOf]
  cases members.get? key <;> rfl

end Slots

/-! ## Plain documents -/

/-- No scalar of the document stands for an object with a key twice.  The records of the document may
repeat keys. -/
inductive Plain : Source → Prop where
  | atom {v : Value} : v.DistinctKeys → Plain (.atom v)
  | scalar {r : Reading} : (∀ v, r.meaning = some v → v.DistinctKeys) → Plain (.scalar r)
  | unreadable : Plain .unreadable
  | marked {inner : Source} : Plain inner → Plain (.marked inner)
  | list {positional : Positional} {items : List Source} : (∀ s ∈ items, Plain s) →
      Plain (.list positional items)
  | record {entries : List (Option String × Source)} : (∀ e ∈ entries, Plain e.2) →
      Plain (.record entries)

mutual

theorem plain_ofValue : ∀ v : Value, (ofValue v).Plain
  | .null => .atom .null
  | .bool b => .atom (.bool b)
  | .number n => .atom (.number n)
  | .text s => .atom (.text s)
  | .list items => by
    rw [ofValue]
    exact .list (plain_ofValues items)
  | .object members => by
    rw [ofValue]
    exact .record (plain_ofFields members)

theorem plain_ofValues : ∀ items : List Value, ∀ s ∈ ofValues items, s.Plain
  | [] => by
    rw [ofValues]
    exact List.forall_mem_nil _
  | v :: rest => by
    rw [ofValues]
    exact List.forall_mem_cons.mpr ⟨plain_ofValue v, plain_ofValues rest⟩

theorem plain_ofFields : ∀ members : List (String × Value), ∀ e ∈ ofFields members, e.2.Plain
  | [] => by
    rw [ofFields]
    exact List.forall_mem_nil _
  | (key, v) :: rest => by
    rw [ofFields]
    exact List.forall_mem_cons.mpr ⟨plain_ofValue v, plain_ofFields rest⟩

end

/-- What holds of all that can be read from the items holds of the list that they are read as. -/
theorem forall_of_values? {P : Value → Prop} {items : List Source} {vs : List Value}
    (h : ∀ s ∈ items, ∀ v, value? s = some v → P v) (hread : values? items = some vs) :
    ∀ v ∈ vs, P v := by
  induction items generalizing vs with
  | nil =>
    cases hread
    exact List.forall_mem_nil _
  | cons s rest ih =>
    obtain ⟨hfirst, hrest⟩ := List.forall_mem_cons.mp h
    rw [values?] at hread
    obtain ⟨v, hv, hread⟩ := Option.bind_eq_some_iff.mp hread
    obtain ⟨others, hothers, hread⟩ := Option.bind_eq_some_iff.mp hread
    cases hread
    exact List.forall_mem_cons.mpr ⟨hfirst v hv, ih hrest hothers⟩

/-- A member that comes in again only gets another value. -/
theorem forall_of_fields? {P : Value → Prop} {entries : List (Option String × Source)}
    {done fields : Fields} (h : ∀ e ∈ entries, ∀ v, value? e.2 = some v → P v)
    (hdone : ∀ m ∈ done, P m.2) (hread : fields? done entries = some fields) :
    ∀ m ∈ fields, P m.2 := by
  induction entries generalizing done with
  | nil =>
    rw [fields?] at hread
    cases hread
    exact hdone
  | cons entry rest ih =>
    obtain ⟨key?, s⟩ := entry
    obtain ⟨hfirst, hrest⟩ := List.forall_mem_cons.mp h
    rw [fields?] at hread
    obtain ⟨key, -, hread⟩ := Option.bind_eq_some_iff.mp hread
    obtain ⟨v, hv, hread⟩ := Option.bind_eq_some_iff.mp hread
    refine ih hrest (fun m hm => ?_) hread
    rcases Fields.mem_insert hm with rfl | hold
    · exact hfirst v hv
    · exact hdone m hold

theorem distinctKeys_of_entries {entries : List (Option String × Source)} {fields : Fields}
    (h : ∀ e ∈ entries, ∀ v, value? e.2 = some v → v.DistinctKeys)
    (hread : fields? [] entries = some fields) : (Value.object fields).DistinctKeys := by
  have hnone : (Fields.keys []).Nodup := List.nodup_nil
  exact .object (nodup_keys_fields? hnone hread)
    (forall_of_fields? h (List.forall_mem_nil _) hread)

/-- What a plain document says has no key twice. -/
theorem Plain.distinctKeys {s : Source} (h : s.Plain) {v : Value} (hread : value? s = some v) :
    v.DistinctKeys := by
  induction h generalizing v with
  | atom hv =>
    cases hread
    exact hv
  | scalar hmeaning => exact hmeaning v hread
  | unreadable => cases hread
  | marked => cases hread
  | list _ ih =>
    rw [value?] at hread
    obtain ⟨vs, hvs, rfl⟩ := Option.map_eq_some_iff.mp hread
    exact .list (forall_of_values? (fun s hs v hv => ih s hs hv) hvs)
  | record _ ih =>
    rw [value?] at hread
    obtain ⟨fields, hfields, rfl⟩ := Option.map_eq_some_iff.mp hread
    exact distinctKeys_of_entries (fun e he v hv => ih e he hv) hfields

theorem Plain.entries {s : Source} (h : s.Plain) {entries : List (Option String × Source)}
    (hentries : s.entries? = some entries) : ∀ e ∈ entries, e.2.Plain := by
  induction h generalizing entries with
  | atom => cases hentries
  | scalar =>
    rw [entries?] at hentries
    split at hentries
    · cases hentries
      exact List.forall_mem_nil _
    · cases hentries
  | unreadable => cases hentries
  | marked _ ih => exact ih hentries
  | list => cases hentries
  | record hparts =>
    cases hentries
    exact hparts

theorem Plain.asFields {s : Source} (h : s.Plain) {fields : Fields}
    (hread : asFields s = some fields) : (Value.object fields).DistinctKeys := by
  obtain ⟨entries, hentries, hread⟩ := Option.bind_eq_some_iff.mp hread
  exact distinctKeys_of_entries (fun e he v hv => (h.entries hentries e he).distinctKeys hv) hread

theorem plain_sortEntries {names : List String} {entries : List (Option String × Source)}
    {done sorted : List (String × Source)} (hdone : ∀ slot ∈ done, slot.2.Plain)
    (h : ∀ e ∈ entries, e.2.Plain) (hsort : sortEntries names done entries = some sorted) :
    ∀ slot ∈ sorted, slot.2.Plain := by
  induction entries generalizing done with
  | nil =>
    cases hsort
    exact hdone
  | cons entry rest ih =>
    obtain ⟨key?, s⟩ := entry
    obtain ⟨hfirst, hrest⟩ := List.forall_mem_cons.mp h
    rw [sortEntries] at hsort
    obtain ⟨key, -, hsort⟩ := Option.bind_eq_some_iff.mp hsort
    split at hsort
    · exact ih hdone hrest hsort
    · split at hsort
      · cases hsort
      · refine ih (fun slot hslot => ?_) hrest hsort
        rcases List.mem_append.mp hslot with hold | hnew
        · exact hdone slot hold
        · rw [List.mem_singleton.mp hnew]
          exact hfirst

theorem plain_zip {names : List String} {items : List Source} (h : ∀ s ∈ items, s.Plain) :
    ∀ slot ∈ names.zip items, slot.2.Plain :=
  fun _ hslot => h _ (List.of_mem_zip hslot).2

theorem slots_of_not_list {names : List String} {s : Source}
    (h : ∀ positional items, s ≠ .list positional items) :
    slots names s = s.entries?.bind (sortEntries names []) := by
  cases s with
  | list positional items => exact absurd rfl (h positional items)
  | atom | scalar | unreadable | marked | record => rfl

/-- The fields of a plain document are plain, whether they are given by name or in their order. -/
theorem Plain.slots {s : Source} (h : s.Plain) {names : List String}
    {given : List (String × Source)} (hslots : slots names s = some given) :
    ∀ slot ∈ given, slot.2.Plain := by
  have hsorted : ∀ {entries}, s.entries? = some entries →
      sortEntries names [] entries = some given → ∀ slot ∈ given, slot.2.Plain :=
    fun hentries => plain_sortEntries (List.forall_mem_nil _) (h.entries hentries)
  cases h with
  | @list positional items hitems =>
    cases positional with
    | never => cases hslots
    | strict =>
      rw [Source.slots] at hslots
      split at hslots
      · cases hslots
        exact plain_zip hitems
      · cases hslots
    | loose =>
      cases hslots
      exact plain_zip hitems
  | atom | scalar | unreadable | marked | record =>
    rw [slots_of_not_list (by simp)] at hslots
    obtain ⟨entries, hentries, hslots⟩ := Option.bind_eq_some_iff.mp hslots
    exact hsorted hentries hslots

theorem mem_of_lookup {given : List (String × Source)} {key : String} {s : Source}
    (h : given.lookup key = some s) : (key, s) ∈ given := by
  obtain ⟨before, after, rfl, -⟩ := List.lookup_eq_some_iff.mp h
  exact List.mem_append_right _ List.mem_cons_self

/-- An object that a field of a plain document gives is a map, also where it is not given. -/
theorem distinctKeys_of_optional {given : List (String × Source)} (h : ∀ slot ∈ given, slot.2.Plain)
    {key : String} {fields : Fields} (hread : optional given key [] asFields = some fields) :
    (Value.object fields).DistinctKeys := by
  rw [optional] at hread
  split at hread
  · next hlookup => exact (h _ (mem_of_lookup hlookup)).asFields hread
  · cases hread
    exact .object List.nodup_nil (List.forall_mem_nil _)

section Lists

variable {α : Type} {read : Source → Option α}

theorem exists_of_mem_mapM {items : List Source} {xs : List α} (h : items.mapM read = some xs) :
    ∀ x ∈ xs, ∃ item ∈ items, read item = some x := by
  induction items generalizing xs with
  | nil =>
    cases h
    exact List.forall_mem_nil _
  | cons item rest ih =>
    rw [List.mapM_cons] at h
    obtain ⟨first, hfirst, h⟩ := Option.bind_eq_some_iff.mp h
    obtain ⟨others, hothers, h⟩ := Option.bind_eq_some_iff.mp h
    cases h
    refine List.forall_mem_cons.mpr ⟨⟨item, List.mem_cons_self, hfirst⟩, fun x hx => ?_⟩
    obtain ⟨item', hitem, hread⟩ := ih hothers x hx
    exact ⟨item', List.mem_cons_of_mem _ hitem, hread⟩

/-- What stands in a list of a plain document was read from something plain. -/
theorem Plain.asList {s : Source} (h : s.Plain) {xs : List α} (hread : asList read s = some xs) :
    ∀ x ∈ xs, ∃ item : Source, item.Plain ∧ read item = some x := by
  induction h with
  | atom | unreadable | record => cases hread
  | scalar =>
    rw [Source.asList] at hread
    split at hread
    · cases hread
      exact List.forall_mem_nil _
    · cases hread
  | marked _ ih => exact ih hread
  | list hitems =>
    intro x hx
    obtain ⟨item, hitem, hx⟩ := exists_of_mem_mapM hread x hx
    exact ⟨item, hitems item hitem, hx⟩

/-- A list that a field of a plain document gives was read from something plain, if it is given. -/
theorem plain_of_optional_asList {given : List (String × Source)}
    (h : ∀ slot ∈ given, slot.2.Plain) {key : String} {xs : List α}
    (hread : optional given key [] (Source.asList read) = some xs) :
    ∀ x ∈ xs, ∃ item : Source, item.Plain ∧ read item = some x := by
  rw [optional] at hread
  split at hread
  · next hlookup => exact (h _ (mem_of_lookup hlookup)).asList hread
  · cases hread
    exact List.forall_mem_nil _

end Lists

end Source

end BootTree

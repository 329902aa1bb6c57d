/-
  What a schema says to a document: the document in its own kinds and order, or all that is wrong.

  1. **Fields** — a field takes the value that the document has for it, read in the declared kind, or
     its default (`Field.value?`).  It has no value in two ways, and each is a fault of its own
     (`Field.fault?_eq_some_iff`).

  2. **Violations** — the keys that no field has, in the order of the document, then the faults of the
     fields, in the order of the schema (`Schema.violations`).  A document is refused with this list,
     and only where the list is not empty (`Schema.normalize_eq_error`).  Nothing is in it twice
     (`Schema.nodup_violations`).

  3. **Verdicts** — the list is empty exactly for the documents that the schema accepts
     (`Schema.violations_eq_nil_iff`), which are put together field by field
     (`Schema.normalize_verdict`).
-/
import BootTree.Proofs.Settings.Projection

namespace BootTree

/-! ## Fields -/

namespace Field

variable {document : Fields} {field : Field} {v : Value} {violation : Violation}

/-- The value that a field takes from a document: its member in the declared kind, and where it has
no member the default. -/
def value? (document : Fields) (field : Field) : Option Value :=
  match document.get? field.name with
  | some value => field.kind.coerce value
  | none => field.default?

/-- What is wrong with a field: its member is of another kind, or it has no member and needs one. -/
def fault? (document : Fields) (field : Field) : Option Violation :=
  match document.get? field.name with
  | some value =>
    if (field.kind.coerce value).isSome then none
    else some (.wrongKind field.name field.kind value)
  | none => if field.default?.isSome then none else some (.missingKey field.name)

theorem evaluate_eq_ok : field.evaluate document = .ok v ↔ field.value? document = some v := by
  rw [evaluate, value?]
  cases document.get? field.name with
  | none => cases field.default? <;> simp
  | some value => cases h : field.kind.coerce value <;> simp [h]

theorem evaluate_eq_error :
    field.evaluate document = .error violation ↔ field.fault? document = some violation := by
  rw [evaluate, fault?]
  cases document.get? field.name with
  | none => cases field.default? <;> simp
  | some value => cases h : field.kind.coerce value <;> simp [h]

/-- A field has a fault exactly if it takes no value. -/
theorem fault?_eq_none_iff : field.fault? document = none ↔ (field.value? document).isSome = true := by
  rw [fault?, value?]
  cases document.get? field.name with
  | none => cases field.default? <;> simp
  | some value => cases h : field.kind.coerce value <;> simp [h]

theorem fault?_eq_some_iff : field.fault? document = some violation ↔
    (∃ value, document.get? field.name = some value ∧ field.kind.coerce value = none ∧
      violation = .wrongKind field.name field.kind value) ∨
    (document.get? field.name = none ∧ field.default? = none ∧
      violation = .missingKey field.name) := by
  rw [fault?]
  cases document.get? field.name with
  | none => cases field.default? <;> simp [eq_comm]
  | some value => cases h : field.kind.coerce value <;> simp [h, eq_comm]

end Field

/-- The key that a violation is about. -/
def Violation.key : Violation → String
  | .unknownKey key => key
  | .missingKey key => key
  | .wrongKind key _ _ => key

/-- A fault is about the key of its field, and that key is known. -/
theorem Field.key_of_fault? {document : Fields} {field : Field} {violation : Violation}
    (h : field.fault? document = some violation) :
    violation.key = field.name ∧ ∀ key, violation ≠ .unknownKey key := by
  rcases fault?_eq_some_iff.mp h with ⟨value, -, -, rfl⟩ | ⟨-, -, rfl⟩
  · exact ⟨rfl, nofun⟩
  · exact ⟨rfl, nofun⟩

/-! ## Violations -/

namespace Schema

variable {schema : Schema} {document : Fields}

/-- All that is wrong with a document: one violation for each key that no field has, in the order of
the document, then the fault of each field that has one, in the order of the schema. -/
def violations (schema : Schema) (document : Fields) : List Violation :=
  (document.keys.filter fun key => key ∉ schema.fields.map Field.name).map .unknownKey ++
    schema.fields.filterMap (Field.fault? document)

theorem unknownKeys_eq : schema.unknownKeys document =
    (document.keys.filter fun key => key ∉ schema.fields.map Field.name).map .unknownKey := by
  rw [unknownKeys]
  refine congrArg (List.map Violation.unknownKey) (List.filter_congr fun key _ => ?_)
  rw [Bool.eq_iff_iff, decide_eq_true_eq]
  exact field?_isNone

theorem evaluateAll_faults (done : Fields) (fields : List Field) :
    (evaluateAll document done fields).2 = fields.filterMap (Field.fault? document) := by
  rw [evaluateAll_violations]
  refine List.filterMap_congr fun field _ => ?_
  cases h : field.evaluate document with
  | error violation => exact (Field.evaluate_eq_error.mp h).symm
  | ok v =>
    have hv := Field.evaluate_eq_ok.mp h
    exact (Field.fault?_eq_none_iff.mpr (by rw [hv]; rfl)).symm

/-- A document is refused with all its violations, and only if there are any. -/
theorem normalize_eq_error {violations : List Violation} :
    schema.normalize document = .error violations ↔
      violations = schema.violations document ∧ violations ≠ [] := by
  have hall : schema.unknownKeys document ++ (evaluateAll document [] schema.fields).2 =
      schema.violations document := by
    rw [unknownKeys_eq, evaluateAll_faults]
    rfl
  rw [normalize]
  dsimp only
  rw [hall]
  cases schema.violations document with
  | nil =>
    constructor
    · intro h
      cases h
    · rintro ⟨hempty, hne⟩
      exact absurd hempty hne
  | cons first rest =>
    constructor
    · intro h
      rw [← Except.error.inj h]
      exact ⟨rfl, List.cons_ne_nil first rest⟩
    · rintro ⟨rfl, -⟩
      rfl

/-- Fields with names of their own have faults of their own. -/
theorem nodup_faults {fields : List Field} (hnames : (fields.map Field.name).Nodup) :
    (fields.filterMap (Field.fault? document)).Nodup := by
  induction fields with
  | nil => exact List.nodup_nil
  | cons field rest ih =>
    obtain ⟨hfield, hrest⟩ := List.nodup_cons.mp hnames
    rw [List.filterMap_cons]
    split
    · exact ih hrest
    · next violation hfault =>
      refine List.nodup_cons.mpr ⟨fun hmem => hfield ?_, ih hrest⟩
      -- another field with this fault would have the same name
      obtain ⟨other, hother, hsame⟩ := List.mem_filterMap.mp hmem
      have hkey := (Field.key_of_fault? hfault).1
      rw [(Field.key_of_fault? hsame).1] at hkey
      exact hkey ▸ List.mem_map_of_mem hother

/-- No violation is listed twice. -/
theorem nodup_violations (hnames : (schema.fields.map Field.name).Nodup)
    (hkeys : document.keys.Nodup) : (schema.violations document).Nodup := by
  have hunknown : ((document.keys.filter fun key => key ∉ schema.fields.map Field.name).map
      Violation.unknownKey).Nodup :=
    (hkeys.filter _).map fun _ _ he => Violation.unknownKey.inj he
  refine List.nodup_append.mpr ⟨hunknown, nodup_faults hnames, fun a ha b hb hab => ?_⟩
  obtain ⟨key, -, rfl⟩ := List.mem_map.mp ha
  obtain ⟨field, -, hfault⟩ := List.mem_filterMap.mp hb
  exact (Field.key_of_fault? hfault).2 key hab.symm

/-! ## Verdicts -/

/-- The documents that a schema accepts: it knows every key, every field that has no default is
present, and every member can be read in the kind of its field. -/
structure Accepts (schema : Schema) (document : Fields) : Prop where
  known : ∀ key ∈ document.keys, key ∈ schema.fields.map Field.name
  present : ∀ field ∈ schema.fields, field.default? = none → field.name ∈ document.keys
  readable : ∀ field ∈ schema.fields, ∀ value, document.get? field.name = some value →
    (field.kind.coerce value).isSome = true

theorem violations_eq_nil_iff : schema.violations document = [] ↔ schema.Accepts document := by
  rw [violations, List.append_eq_nil_iff, ← unknownKeys_eq, unknownKeys_eq_nil,
    List.filterMap_eq_nil_iff]
  constructor
  · rintro ⟨hknown, hfaults⟩
    refine ⟨hknown, fun field hfield hdefault => ?_, fun field hfield value hvalue => ?_⟩
    · by_contra habsent
      have hnone : document.get? field.name = none := Fields.get?_eq_none_iff.mpr habsent
      have hfault := Field.fault?_eq_none_iff.mp (hfaults field hfield)
      rw [Field.value?, hnone, hdefault] at hfault
      cases hfault
    · have hfault := Field.fault?_eq_none_iff.mp (hfaults field hfield)
      rwa [Field.value?, hvalue] at hfault
  · intro h
    refine ⟨h.known, fun field hfield => Field.fault?_eq_none_iff.mpr ?_⟩
    rw [Field.value?]
    cases hvalue : document.get? field.name with
    | some value => exact h.readable field hfield value hvalue
    | none =>
      rw [Option.isSome_iff_ne_none]
      intro hdefault
      exact Fields.get?_eq_none_iff.mp hvalue (h.present field hfield hdefault)

/-- A schema with a name for each field accepts the documents that have its keys only, all of them
that are required, and members that can be read.  An accepted document comes back with exactly the
names of the fields as its keys, in the order of the schema, and under each name the value that the
field takes.  Any other document is refused with exactly its violations, none of them twice. -/
theorem normalize_verdict (schema : Schema) (document : Fields)
    (hnames : (schema.fields.map Field.name).Nodup) (hkeys : document.keys.Nodup) :
    ((∃ result, schema.normalize document = .ok result) ↔ schema.Accepts document) ∧
    (∀ result, schema.normalize document = .ok result →
      result.keys = schema.fields.map Field.name ∧
      ∀ field ∈ schema.fields, ∃ v,
        result.get? field.name = some v ∧ field.value? document = some v) ∧
    ∀ violations, schema.normalize document = .error violations →
      violations = schema.violations document ∧ violations ≠ [] ∧ violations.Nodup := by
  refine ⟨?_, fun result h => ⟨?_, fun field hfield => ?_⟩, fun violations h => ?_⟩
  · rw [← violations_eq_nil_iff]
    cases h : schema.normalize document with
    | ok result =>
      refine ⟨fun _ => ?_, fun _ => ⟨result, rfl⟩⟩
      by_contra hne
      rw [normalize_eq_error.mpr ⟨rfl, hne⟩] at h
      cases h
    | error violations =>
      obtain ⟨rfl, hne⟩ := normalize_eq_error.mp h
      exact ⟨nofun, fun hempty => absurd hempty hne⟩
  · exact keys_of_forall₂ ((normalize_eq_ok hnames).mp h).2
  · obtain ⟨v, hv, hresult⟩ := get?_of_normalize h hnames hfield
    exact ⟨v, hresult, Field.evaluate_eq_ok.mp hv⟩
  · obtain ⟨hviolations, hne⟩ := normalize_eq_error.mp h
    exact ⟨hviolations, hne, hviolations ▸ nodup_violations hnames hkeys⟩

/-- A schema of a required text, a flag with a default and a required integer. -/
def threeFields : Schema where
  version := "test"
  fields := [⟨"server", .string, none⟩, ⟨"manage_dhcp", .bool, some (.bool false)⟩,
    ⟨"http_port", .int, none⟩]

/-- Of two documents the first one is refused for a key, an absent field and a text that is no number;
the second one is accepted and put in order. -/
theorem normalize_verdict_threeFields :
    (∃ violations, threeFields.normalize [("http_port", .text "x"), ("extra", .number (.int 1))] =
        .error violations ∧ violations.Nodup ∧
      violations = [.unknownKey "extra", .missingKey "server",
        .wrongKind "http_port" .int (.text "x")]) ∧
    ∃ result, threeFields.normalize [("http_port", .text " 80 "), ("server", .text "s")] =
        .ok result ∧ result.keys = ["server", "manage_dhcp", "http_port"] := by
  have hnames : (threeFields.fields.map Field.name).Nodup := by decide
  constructor
  · have hverdict := normalize_verdict threeFields
      [("http_port", .text "x"), ("extra", .number (.int 1))] hnames (by decide)
    cases h : threeFields.normalize [("http_port", .text "x"), ("extra", .number (.int 1))] with
    | ok result => exact absurd ((hverdict.1.mp ⟨result, h⟩).known "extra" (by decide)) (by decide)
    | error violations =>
      obtain ⟨rfl, -, hnodup⟩ := hverdict.2.2 violations h
      exact ⟨_, rfl, hnodup, by decide +kernel⟩
  · have hverdict := normalize_verdict threeFields
      [("http_port", .text " 80 "), ("server", .text "s")] hnames (by decide)
    have hempty : threeFields.violations [("http_port", .text " 80 "), ("server", .text "s")] = [] :=
      by decide +kernel
    obtain ⟨result, h⟩ := hverdict.1.mpr (violations_eq_nil_iff.mp hempty)
    exact ⟨result, h, (hverdict.2.1 result h).1⟩

end Schema

end BootTree

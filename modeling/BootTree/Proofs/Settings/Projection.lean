/-
  Normalizing a settings document again.

  1. **Kinds** — a value that was read in a kind is in the form of the kind (`HasForm`), and the values
     in this form are those that are read as themselves (`coerce_eq_self_iff`).

  2. **Documents** — a schema with distinct names accepts a document exactly if it knows every key and
     every field has a value; the result has the fields in the order of the schema
     (`Schema.normalize_eq_ok`).  In the result every field has its value already, so that it is
     normalized to itself (`Schema.normalize_again`).

  3. **Versions** — the versions have one list of fields, so a document can be migrated by way of the
     earlier version or at once (`normalize_projection`).
-/
import BootTree.Proofs.Settings.Migration

namespace BootTree

/-! ## Kinds -/

theorem Number.word?_eq_some {n : Number} {i : Int} (h : n.word? = some i) :
    (Number.int i).word? = some i := by
  cases n with
  | double d => cases h
  | int j =>
    have hij : j = i := by
      rw [word?] at h
      split at h
      · exact Option.some.inj h
      · cases h
    rw [← hij]
    exact hij ▸ h

namespace FieldKind

/-- The form that the values of a kind have once they are read. -/
inductive HasForm : FieldKind → Value → Prop where
  | bool (b : Bool) : HasForm .bool (.bool b)
  | int (i : Int) : (Number.int i).word? = some i → HasForm .int (.number (.int i))
  | string (s : String) : HasForm .string (.text s)
  | list (items : List Value) : HasForm .list (.list items)
  | map (members : Fields) : HasForm .map (.object members)
  | any (v : Value) : HasForm .any v

variable {kind : FieldKind} {v w : Value}

/-- A text that denotes an integer denotes one of 64 bits. -/
theorem word?_eq_some {cs : List Char} {i : Int} (h : word? cs = some i) :
    (Number.int i).word? = some i := by
  unfold word? at h
  -- the sign decides which integer it is, not whether it is one
  split at h
  split at h
  · cases h
  · exact Number.word?_eq_some h

/-- What is read has the form of the kind. -/
theorem hasForm_of_coerce (h : kind.coerce v = some w) : HasForm kind w := by
  cases kind with
  | any => exact .any w
  | bool =>
    cases v with
    | bool b =>
      cases h
      exact .bool b
    | text s =>
      obtain ⟨b, -, rfl⟩ := Option.map_eq_some_iff.mp h
      exact .bool b
    | number n =>
      rw [coerce] at h
      split at h
      · cases h
        exact .bool false
      · cases h
        exact .bool true
      · cases h
    | _ => cases h
  | int =>
    cases v with
    | number n =>
      obtain ⟨i, hword, rfl⟩ := Option.map_eq_some_iff.mp h
      exact .int i (Number.word?_eq_some hword)
    | text s =>
      obtain ⟨i, hword, rfl⟩ := Option.map_eq_some_iff.mp h
      exact .int i (word?_eq_some hword)
    | _ => cases h
  | string =>
    cases v with
    | text s =>
      cases h
      exact .string s
    | number n =>
      cases h
      exact .string _
    | _ => cases h
  | list =>
    cases v with
    | list items =>
      cases h
      exact .list items
    | _ => cases h
  | map =>
    cases v with
    | object members =>
      cases h
      exact .map members
    | _ => cases h

/-- The values in the form of a kind are those that are read as themselves. -/
theorem coerce_eq_self_iff : kind.coerce w = some w ↔ HasForm kind w := by
  constructor
  · exact hasForm_of_coerce
  · intro h
    cases h with
    | int i hword =>
      rw [coerce, hword]
      rfl
    | _ => rfl

/-- Reading what was read gives it again. -/
theorem coerce_again (h : kind.coerce v = some w) : kind.coerce w = some w :=
  coerce_eq_self_iff.mpr (hasForm_of_coerce h)

end FieldKind

/-! ## Documents -/

/-- A schema in which names tell the fields apart and every default is a value of its field. -/
structure Schema.Regular (schema : Schema) : Prop where
  names : (schema.fields.map Field.name).Nodup
  defaults : ∀ field ∈ schema.fields, ∀ v, field.default? = some v → field.kind.coerce v = some v

namespace Field

variable {field : Field} {document result : Fields} {v : Value}

/-- A value that a field was given stays the value of the field. -/
theorem evaluate_again (hdefault : ∀ d, field.default? = some d → field.kind.coerce d = some d)
    (h : field.evaluate document = .ok v) (hresult : result.get? field.name = some v) :
    field.evaluate result = .ok v := by
  have hcoerce : field.kind.coerce v = some v := by
    rw [evaluate] at h
    split at h
    · split at h
      · next w hw =>
        rw [← Except.ok.inj h]
        exact FieldKind.coerce_again hw
      · cases h
    · next d hnone hd => exact Except.ok.inj h ▸ hdefault d hd
    · cases h
  rw [evaluate, hresult]
  dsimp only
  rw [hcoerce]

end Field

namespace Schema

variable {schema : Schema} {document result : Fields} {fields : List Field}

/-- A document gives a member to a field: its name with its value. -/
def Gives (document : Fields) (field : Field) (m : String × Value) : Prop :=
  m.1 = field.name ∧ field.evaluate document = .ok m.2

theorem keys_of_forall₂ (h : List.Forall₂ (Gives document) fields result) :
    result.keys = fields.map Field.name :=
  map_eq_of_forall₂ h fun _ _ hgives => hgives.1

/-- Where every field has a value, the members come one behind the other. -/
theorem evaluateAll_of_forall₂ (done : Fields) (h : List.Forall₂ (Gives document) fields result)
    (hnames : (done.keys ++ fields.map Field.name).Nodup) :
    evaluateAll document done fields = (done ++ result, []) := by
  induction h generalizing done with
  | nil => rw [evaluateAll, List.append_nil]
  | @cons field m fields result hgives _ ih =>
    obtain ⟨hname, hvalue⟩ := hgives
    have hnew : field.name ∉ done.keys := by
      intro hmem
      have hapart := (List.nodup_append.mp hnames).2.2
      exact hapart _ hmem _ List.mem_cons_self rfl
    have hnames' : ((done ++ [(field.name, m.2)]).keys ++ fields.map Field.name).Nodup := by
      simpa [Fields.keys] using hnames
    have hm : m = (field.name, m.2) := Prod.ext hname rfl
    rw [evaluateAll, hvalue]
    dsimp only
    rw [Fields.insert_of_not_mem hnew, ih _ hnames', List.append_assoc, List.singleton_append, ← hm]

theorem field?_isNone {name : String} :
    (schema.field? name).isNone = true ↔ name ∉ schema.fields.map Field.name := by
  simp [field?, List.mem_map]

theorem unknownKeys_eq_nil :
    schema.unknownKeys document = [] ↔ ∀ key ∈ document.keys, key ∈ schema.fields.map Field.name := by
  rw [unknownKeys, List.map_eq_nil_iff, List.filter_eq_nil_iff]
  simp only [field?_isNone, Decidable.not_not]

/-- Where no field has a violation, every field has a value. -/
theorem exists_forall₂_of_violations {done : Fields}
    (h : (evaluateAll document done fields).2 = []) :
    ∃ result, List.Forall₂ (Gives document) fields result := by
  rw [evaluateAll_violations, List.filterMap_eq_nil_iff] at h
  induction fields with
  | nil => exact ⟨[], .nil⟩
  | cons field rest ih =>
    obtain ⟨result, hresult⟩ := ih fun f hf => h f (List.mem_cons_of_mem field hf)
    have hfield := h field List.mem_cons_self
    cases hv : field.evaluate document with
    | error violation =>
      rw [hv] at hfield
      cases hfield
    | ok v => exact ⟨(field.name, v) :: result, .cons ⟨rfl, hv⟩ hresult⟩

/-- A document is accepted if the schema knows all its keys and every field has a value.  Then the
result has every field with its value, in the order of the schema. -/
theorem normalize_eq_ok (hnames : (schema.fields.map Field.name).Nodup) :
    schema.normalize document = .ok result ↔
      (∀ key ∈ document.keys, key ∈ schema.fields.map Field.name) ∧
        List.Forall₂ (Gives document) schema.fields result := by
  rw [← unknownKeys_eq_nil]
  constructor
  · intro h
    rw [normalize] at h
    dsimp only at h
    split at h
    · next hnone =>
      obtain ⟨hkeys, hviolations⟩ := List.append_eq_nil_iff.mp hnone
      obtain ⟨members, hmembers⟩ := exists_forall₂_of_violations hviolations
      have hall := evaluateAll_of_forall₂ [] hmembers hnames
      rw [hall] at h
      cases h
      exact ⟨hkeys, hmembers⟩
    · cases h
  · rintro ⟨hkeys, hmembers⟩
    have hall := evaluateAll_of_forall₂ [] hmembers hnames
    rw [normalize, hall, hkeys]
    rfl

/-- A normalized document is normalized to itself. -/
theorem normalize_again (hschema : schema.Regular) (h : schema.normalize document = .ok result) :
    schema.normalize result = .ok result := by
  obtain ⟨-, hmembers⟩ := (normalize_eq_ok hschema.names).mp h
  have hkeys := keys_of_forall₂ hmembers
  have hnodup : result.keys.Nodup := hkeys ▸ hschema.names
  refine (normalize_eq_ok hschema.names).mpr ⟨fun key hkey => hkeys ▸ hkey, ?_⟩
  obtain ⟨hlength, hzip⟩ := List.forall₂_iff_zip.mp hmembers
  refine List.forall₂_iff_zip.mpr ⟨hlength, fun {field m} hmem => ?_⟩
  obtain ⟨hfield, hm⟩ := List.of_mem_zip hmem
  obtain ⟨hname, hvalue⟩ := hzip hmem
  -- the member of the field is found under its name
  have hget : result.get? field.name = some m.2 :=
    Fields.get?_eq_some_of_mem hnodup (hname ▸ hm)
  exact ⟨hname, Field.evaluate_again (hschema.defaults field hfield) hvalue hget⟩

end Schema

/-! ## Versions -/

namespace SettingsVersion

/-- The versions have schemas of this kind. -/
theorem regular_schema (v : SettingsVersion) : v.schema.Regular where
  names := by
    show (fields.map Field.name).Nodup
    decide
  defaults field hfield d hd := by
    have hall : ∀ field ∈ fields, field.default?.bind field.kind.coerce = field.default? := by
      decide +kernel
    have hone := hall field hfield
    rw [hd] at hone
    exact hone

end SettingsVersion

/-- Normalizing is a projection for every schema whose names are distinct and whose defaults are
values of their fields, and the schemas of all versions are of this kind.  So it makes no difference
whether a document is migrated by way of the earlier version or at once: where the modules can be
renamed, both ways end with the same document and the same tree, or both refuse the document with
the same violations and leave the tree. -/
theorem normalize_projection :
    (∀ (schema : Schema) (document result : Fields), schema.Regular →
      schema.normalize document = .ok result → schema.normalize result = .ok result) ∧
    (∀ v : SettingsVersion, v.schema.Regular) ∧
    ∀ (modulesConf : Path) (t t' : FileTree) (n : Nat), renameModulesIn modulesConf t = (.ok n, t') →
      ∀ document : Fields,
        (∃ result,
          (migrateTo "3.0.0" modulesConf document >>= migrateTo "3.0.1" modulesConf) t =
            (.ok result, t') ∧
          migrateTo "3.0.1" modulesConf document t = (.ok result, t')) ∨
        ∃ violations,
          (migrateTo "3.0.0" modulesConf document >>= migrateTo "3.0.1" modulesConf) t =
            (.error (.migration "3.0.0" violations), t) ∧
          migrateTo "3.0.1" modulesConf document t =
            (.error (.migration "3.0.1" violations), t) := by
  refine ⟨fun schema document result hschema h => Schema.normalize_again hschema h,
    SettingsVersion.regular_schema, fun modulesConf t t' n hrename document => ?_⟩
  rw [run_bind]
  -- the schemas differ in nothing but the text of the version
  cases hnormal : SettingsVersion.first.schema.normalize document with
  | error violations =>
    have hfirst : migrateTo "3.0.0" modulesConf document t =
        (.error (.migration "3.0.0" violations), t) := migrateTo_of_violations .first hnormal _ _
    have hdirect : migrateTo "3.0.1" modulesConf document t =
        (.error (.migration "3.0.1" violations), t) :=
      migrateTo_of_violations .dottedModules hnormal _ _
    refine .inr ⟨violations, ?_, hdirect⟩
    rw [hfirst]
  | ok result =>
    have hagain := Schema.normalize_again (SettingsVersion.regular_schema .first) hnormal
    have hdirect := migrateTo_dottedModules hnormal modulesConf t
    have hsecond := migrateTo_dottedModules hagain modulesConf t
    rw [hrename] at hdirect hsecond
    refine .inl ⟨result, ?_, hdirect⟩
    rw [migrateTo_first hnormal]
    exact hsecond

/-- Settings in the words of a person: numbers as texts, a text as a number, flags as words. -/
def spokenSettings : Fields :=
  [("http_port", .text " +80 "), ("manage_dns", .text "On"), ("next_server", .number (.int 10)),
    ("manage_dhcp", .number (.int 1)), ("server", .text "s")]

/-- What these settings are normalized to. -/
def writtenSettings : Fields :=
  [("server", .text "s"), ("next_server", .text "10"),
    ("tftpboot_location", .text "/srv/tftpboot"), ("webdir", .text "/var/www/bootsync"),
    ("bootloaders_dir", .text "/var/lib/bootsync/loaders"), ("http_port", .number (.int 80)),
    ("manage_dhcp", .bool true), ("manage_dns", .bool true), ("manage_tftpd", .bool true),
    ("enable_menu", .bool true), ("pxe_just_once", .bool true),
    ("default_virt_ram", .number (.int 512)), ("auth_token_expiration", .number (.int 3600)),
    ("kernel_options", .object []), ("build_reporting_email", .list []),
    ("default_ownership", .list [.text "admin"]), ("default_kickstart", .null)]

/-- Normalizing these settings again changes nothing, and both ways of migrating them end alike. -/
theorem normalize_spokenSettings :
    SettingsVersion.first.schema.normalize spokenSettings = .ok writtenSettings ∧
    SettingsVersion.first.schema.normalize writtenSettings = .ok writtenSettings ∧
    ∃ result, (migrateTo "3.0.0" ⟨"m.conf"⟩ spokenSettings >>= migrateTo "3.0.1" ⟨"m.conf"⟩)
        kickstartlessTree = (.ok result, (renameModulesIn ⟨"m.conf"⟩ kickstartlessTree).2) ∧
      migrateTo "3.0.1" ⟨"m.conf"⟩ spokenSettings kickstartlessTree =
        (.ok result, (renameModulesIn ⟨"m.conf"⟩ kickstartlessTree).2) := by
  have hnormal : SettingsVersion.first.schema.normalize spokenSettings = .ok writtenSettings := by
    decide +kernel
  have hrename : renameModulesIn ⟨"m.conf"⟩ kickstartlessTree =
      (.ok 1, (renameModulesIn ⟨"m.conf"⟩ kickstartlessTree).2) :=
    Prod.ext (by decide +kernel) rfl
  refine ⟨hnormal, ?_, ?_⟩
  · exact normalize_projection.1 _ _ _ (normalize_projection.2.1 .first) hnormal
  · have hsound : (migrateTo "3.0.1" ⟨"m.conf"⟩ spokenSettings kickstartlessTree).1.isOk = true := by
      decide +kernel
    rcases normalize_projection.2.2 _ _ _ _ hrename spokenSettings with hok | ⟨violations, -, hrefused⟩
    · exact hok
    · rw [hrefused] at hsound
      cases hsound

end BootTree

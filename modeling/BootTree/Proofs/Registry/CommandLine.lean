/-
  The kernel command line of a host.

  1. **Layers** — the options of settings, distribution and host are a pile of layers of their own
     within the layers of the view (`get?_blendLayers`), so each key comes once, where it first
     came, with the values laid over one another.

  2. **Words** — a text that is joined from words without spaces falls into these words again
     (`words_intercalate`).  Options whose texts have no space give such words, and laying options
     over one another brings no space in (`spaceless_overlay`).
-/
import BootTree.Proofs.Fields
import BootTree.Blend

namespace BootTree

/-! ## Words -/

/-- The words of a command line: what is between its spaces, where that is anything. -/
def words (line : String) : List String :=
  ((line.split ' ').toList.map String.Slice.copy).filter (· ≠ "")

theorem words_intercalate {parts : List String} (h : ∀ part ∈ parts, part ≠ "" ∧ ' ' ∉ part.toList) :
    words (" ".intercalate parts) = parts := by
  have hspace : " " = String.singleton ' ' := by decide
  have hsplit := String.toList_split_intercalate (c := ' ') (l := parts) fun s hs => (h s hs).2
  rw [words, hspace, hsplit]
  split
  · next hnil =>
    rw [hnil]
    rfl
  · exact List.filter_eq_self.mpr fun part hpart => by simpa using (h part hpart).1

/-- The words that an option is to have. -/
def wordsOf (key : String) : Value → List String
  | .null => [key]
  | .text "" => [key]
  | .list items => items.map fun item => key ++ "=" ++ Template.fill item
  | value => [key ++ "=" ++ Template.fill value]

theorem optionWords_eq (key : String) (value : Value) : optionWords key value = wordsOf key value := by
  cases value with
  | text s =>
    by_cases hempty : s = ""
    · subst hempty
      rfl
    · rw [optionWords, wordsOf, if_neg]
      all_goals simp [hempty]
  | null => rfl
  | bool b => rfl
  | number n => rfl
  | list items => rfl
  | object members => rfl

/-! ## Spaces -/

namespace Json

/-- The JSON text of a value has no space. -/
def Spaceless (v : Value) : Prop := ' ' ∉ compactChars v

theorem space_mem_quote_of_mem {s : String} (h : ' ' ∈ s.toList) : ' ' ∈ quote s := by
  have hescape : ' ' ∈ escapeChar ' ' := by decide
  simp only [quote, List.mem_cons, List.mem_append]
  exact .inl (.inr (List.mem_flatMap.mpr ⟨' ', h, hescape⟩))

theorem space_mem_compactItems (items : List Value) :
    ' ' ∈ compactItems items ↔ ∃ v ∈ items, ' ' ∈ compactChars v := by
  match items with
  | [] => simp [compactItems]
  | [v] => simp [compactItems]
  | v :: w :: rest =>
    rw [compactItems]
    simp only [List.mem_append, List.mem_cons, space_mem_compactItems (w :: rest)]
    simp
    nofun

theorem space_mem_compactMembers (members : Fields) : ' ' ∈ compactMembers members ↔
    ∃ m ∈ members, ' ' ∈ quote m.1 ∨ ' ' ∈ compactChars m.2 := by
  match members with
  | [] => simp [compactMembers]
  | [m] => simp [compactMembers]
  | m :: n :: rest =>
    rw [compactMembers]
    simp only [List.mem_append, List.mem_cons, space_mem_compactMembers (n :: rest)]
    simp [or_assoc]
    nofun

theorem spaceless_list {items : List Value} :
    Spaceless (.list items) ↔ ∀ v ∈ items, Spaceless v := by
  have hitems := space_mem_compactItems items
  simp only [Spaceless, compactChars, List.mem_cons, List.mem_append, hitems]
  simp

theorem spaceless_object {members : Fields} :
    Spaceless (.object members) ↔ ∀ m ∈ members, ' ' ∉ quote m.1 ∧ Spaceless m.2 := by
  have hmembers := space_mem_compactMembers members
  simp only [Spaceless, compactChars, List.mem_cons, List.mem_append, hmembers]
  simp

mutual

/-- Laying a value over another brings no space in. -/
theorem spaceless_overlay {base : Value} : ∀ {v : Value}, Spaceless base → Spaceless v →
    Spaceless (base.overlay v)
  | .object upper, hbase, hv => by
    cases base with
    | object lower =>
      rw [Value.overlay]
      exact spaceless_object.mpr
        (spaceless_merge upper (spaceless_object.mp hbase) (spaceless_object.mp hv))
    | null | bool | number | text | list => exact hv
  | .null, _, hv | .bool _, _, hv | .number _, _, hv | .text _, _, hv | .list _, _, hv => hv

theorem spaceless_merge {base : Fields} : ∀ (upper : List (String × Value)),
    (∀ m ∈ base, ' ' ∉ quote m.1 ∧ Spaceless m.2) →
    (∀ m ∈ upper, ' ' ∉ quote m.1 ∧ Spaceless m.2) →
    ∀ m ∈ Fields.merge base upper, ' ' ∉ quote m.1 ∧ Spaceless m.2
  | [], hbase, _ => by
    rw [Fields.merge]
    exact hbase
  | (key, value) :: rest, hbase, hupper => by
    obtain ⟨⟨hkey, hvalue⟩, hrest⟩ := List.forall_mem_cons.mp hupper
    rw [Fields.merge_cons]
    refine spaceless_merge rest (fun m hm => ?_) hrest
    rcases Fields.mem_insert hm with rfl | hold
    · refine ⟨hkey, ?_⟩
      cases hget : base.get? key with
      | none => exact hvalue
      | some old => exact spaceless_overlay (hbase _ (Fields.mem_of_get?_eq_some hget)).2 hvalue
    · exact hbase m hold

end

end Json

namespace Template

theorem fill_list (items : List Value) :
    (fill (.list items)).toList = Json.compactChars (.list items) := String.toList_ofList

theorem fill_object (members : Fields) :
    (fill (.object members)).toList = Json.compactChars (.object members) := String.toList_ofList

theorem space_not_mem_fill {v : Value} (h : Json.Spaceless v) : ' ' ∉ (fill v).toList := by
  cases v with
  | text s => exact fun hmem => h (Json.space_mem_quote_of_mem hmem)
  | null => decide
  | bool | number | list | object =>
    rw [fill, Json.compact, String.toList_ofList]
    · exact h
    · nofun
    · nofun

theorem space_not_mem_fill_overlay {base v : Value} (hbase : ' ' ∉ (fill base).toList)
    (hv : ' ' ∉ (fill v).toList) : ' ' ∉ (fill (base.overlay v)).toList := by
  rcases Fields.overlay_cases base v with ⟨lower, upper, rfl, rfl, -⟩ | hupper
  · rw [fill_object] at hbase hv
    exact space_not_mem_fill (Json.spaceless_overlay hbase hv)
  · rw [hupper]
    exact hv

theorem space_not_mem_fill_laidOver {values : List Value} {v : Value}
    (hvalues : ∀ w ∈ values, ' ' ∉ (fill w).toList) (h : Fields.laidOver values = some v) :
    ' ' ∉ (fill v).toList := by
  cases values with
  | nil => cases h
  | cons lowest others =>
    cases h
    induction others generalizing lowest with
    | nil => exact hvalues lowest List.mem_cons_self
    | cons next rest ih =>
      have hlowest := hvalues lowest List.mem_cons_self
      have hothers := fun w hw => hvalues w (List.mem_cons_of_mem lowest hw)
      refine ih (lowest.overlay next) (List.forall_mem_cons.mpr ⟨?_, ?_⟩)
      · exact space_not_mem_fill_overlay hlowest (hothers next List.mem_cons_self)
      · exact fun w hw => hothers w (List.mem_cons_of_mem next hw)

end Template

/-! ## The words of an option -/

section Options

variable {key : String} {value : Value}

/-- An option whose key and value have no space gives words without spaces. -/
theorem word_of_mem_wordsOf (hkey : key ≠ "" ∧ ' ' ∉ key.toList)
    (hvalue : ' ' ∉ (Template.fill value).toList) :
    ∀ word ∈ wordsOf key value, word ≠ "" ∧ ' ' ∉ word.toList := by
  have hassigned : ∀ text : String, ' ' ∉ text.toList →
      key ++ "=" ++ text ≠ "" ∧ ' ' ∉ (key ++ "=" ++ text).toList := by
    intro text htext
    constructor
    · simp
    · simp [hkey.2, htext]
  intro word hword
  rw [wordsOf.eq_def] at hword
  split at hword
  · rw [List.mem_singleton.mp hword]
    exact hkey
  · rw [List.mem_singleton.mp hword]
    exact hkey
  · next items =>
    obtain ⟨item, hitem, rfl⟩ := List.mem_map.mp hword
    refine hassigned _ (Template.space_not_mem_fill ?_)
    rw [Template.fill_list] at hvalue
    exact Json.spaceless_list.mp hvalue item hitem
  · rw [List.mem_singleton.mp hword]
    exact hassigned _ hvalue

/-- An object of options can stand on a command line: its keys are words, each given once, and the
texts of its values have no space. -/
structure FitsLine (options : Fields) : Prop where
  once : options.keys.Nodup
  keys : ∀ key ∈ options.keys, key ≠ "" ∧ ' ' ∉ key.toList
  values : ∀ m ∈ options, ' ' ∉ (Template.fill m.2).toList

instance (options : Fields) : Decidable (FitsLine options) :=
  decidable_of_iff (options.keys.Nodup ∧ (∀ key ∈ options.keys, key ≠ "" ∧ ' ' ∉ key.toList) ∧
      ∀ m ∈ options, ' ' ∉ (Template.fill m.2).toList)
    ⟨fun h => ⟨h.1, h.2.1, h.2.2⟩, fun h => ⟨h.once, h.keys, h.values⟩⟩

/-! Settings and records that were read give each option once. -/

theorem Source.nodup_keys_optional {slots : List (String × Source)} {name : String}
    {fields : Fields} (h : optional slots name [] asFields = some fields) : fields.keys.Nodup := by
  rw [optional] at h
  split at h
  · exact nodup_keys_asFields h
  · cases h
    exact .nil

theorem Settings.nodup_of_read {s : Source} {settings : Settings} (h : read s = some settings) :
    settings.kernelOptions.keys.Nodup := by
  simp only [read, Option.bind_eq_bind, Option.bind_eq_some_iff, Option.some.injEq] at h
  obtain ⟨slots, -, server, -, next?, -, root, -, web, -, directory, -, loaders, -, title, -,
    options, hoptions, free, -, rfl⟩ := h
  exact Source.nodup_keys_optional hoptions

theorem Distro.nodup_of_read {s : Source} {distro : Distro} (h : read s = some distro) :
    distro.kernelOptions.keys.Nodup := by
  simp only [read, Option.bind_eq_bind, Option.bind_eq_some_iff, Option.some.injEq] at h
  obtain ⟨slots, -, name, -, arch, -, kernel, -, initrd, -, options, hoptions, files, -, free, -,
    rfl⟩ := h
  exact Source.nodup_keys_optional hoptions

theorem Host.nodup_of_read {s : Source} {host : Host} (h : read s = some host) :
    host.kernelOptions.keys.Nodup := by
  simp only [read, Option.bind_eq_bind, Option.bind_eq_some_iff, Option.some.injEq] at h
  obtain ⟨slots, -, name, -, distro, -, hostname, -, netboot, -, interfaces, -, options, hoptions,
    files, -, free, -, rfl⟩ := h
  exact Source.nodup_keys_optional hoptions

/-- The members of an object in the order of its keys. -/
theorem flatMap_members {α : Type} {fields : Fields} (h : fields.keys.Nodup)
    (f : String → Value → List α) : fields.flatMap (fun m => f m.1 m.2) =
      fields.keys.flatMap fun key => (fields.get? key).elim [] (f key) := by
  rw [Fields.keys, List.flatMap_map]
  refine List.flatMap_congr fun m hm => ?_
  rw [Fields.get?_eq_some_of_mem h hm]
  rfl

end Options

/-! ## A pile of options -/

section Pile

variable {lowest : Fields} {layers : List Fields}

/-- The keys of a pile of options in the order in which they first come. -/
def optionKeys (layers : List Fields) : List String := (layers.flatMap Fields.keys).eraseDups

/-- The value of an option: that of the last layer that gives it, objects being merged. -/
def optionValue (layers : List Fields) (key : String) : Option Value :=
  Fields.laidOver (layers.filterMap fun layer => layer.get? key)

/-- The words that a pile of options is to have. -/
def lineOf (layers : List Fields) : List String :=
  (optionKeys layers).flatMap fun key => (optionValue layers key).elim [] (wordsOf key)

theorem optionWords_foldl_merge (h : ∀ layer ∈ lowest :: layers, FitsLine layer) :
    (layers.foldl Fields.merge lowest).flatMap (fun m => optionWords m.1 m.2) =
      lineOf (lowest :: layers) := by
  obtain ⟨hlowest, hlayers⟩ := List.forall_mem_cons.mp h
  have hnodup := Fields.nodup_keys_foldl_merge hlowest.once layers
  have hget := Fields.get?_foldl_merge (fun layer hl => (hlayers layer hl).once) lowest
  simp only [optionWords_eq]
  rw [flatMap_members hnodup, Fields.keys_foldl_merge hlowest.once, lineOf, optionKeys]
  simp only [hget, optionValue]

/-- The words of such a pile are words. -/
theorem word_of_mem_lineOf (h : ∀ layer ∈ layers, FitsLine layer) :
    ∀ word ∈ lineOf layers, word ≠ "" ∧ ' ' ∉ word.toList := by
  intro word hword
  obtain ⟨key, hkey, hword⟩ := List.mem_flatMap.mp hword
  obtain ⟨layer, hlayer, hmem⟩ := List.mem_flatMap.mp (List.mem_eraseDups.mp hkey)
  cases hvalue : optionValue layers key with
  | none =>
    rw [hvalue] at hword
    cases hword
  | some value =>
    rw [hvalue] at hword
    refine word_of_mem_wordsOf ((h layer hlayer).keys key hmem) ?_ word hword
    refine Template.space_not_mem_fill_laidOver (fun w hw => ?_) hvalue
    obtain ⟨other, hother, hget⟩ := List.mem_filterMap.mp hw
    exact (h other hother).values _ (Fields.mem_of_get?_eq_some hget)

end Pile

/-! ## The layers of a view -/

section View

variable {settings : Settings} {registry : Registry} {distro : Distro} {host : Host}

theorem Settings.get?_layer (h : "kernel_options" ∉ settings.templateVariables.keys) :
    settings.layer.get? "kernel_options" = some (.object settings.kernelOptions) := by
  rw [layer, Fields.get?_insertAll_of_not_mem h]
  simp [Fields.get?]

/-- A field of a record is in its layer, unless a free variable has its name. -/
theorem get?_recordLayer {record : Value} {free : Fields} {key : String} (hkey : key ≠ "variables")
    (hfree : key ∉ free.keys) :
    (recordLayer record free).get? key = (record.object?.getD []).get? key := by
  rw [recordLayer, Fields.get?_insertAll_of_not_mem hfree, Fields.get?_erase_of_ne hkey]

theorem Distro.get?_layer (h : "kernel_options" ∉ distro.templateVariables.keys) :
    distro.layer.get? "kernel_options" = some (.object distro.kernelOptions) := by
  rw [layer, get?_recordLayer (by decide) h]
  simp [toValue, Value.object?, Fields.get?]

theorem Host.get?_layer (h : "kernel_options" ∉ host.templateVariables.keys) :
    host.layer.get? "kernel_options" = some (.object host.kernelOptions) := by
  rw [layer, get?_recordLayer (by decide) h]
  simp [toValue, Value.object?, Fields.get?]

theorem Distro.nodup_keys_layer (distro : Distro) : distro.layer.keys.Nodup := by
  refine Fields.nodup_keys_insertAll ?_ _
  simp [toValue, Value.object?, Fields.erase, Fields.keys]

theorem Host.nodup_keys_layer (host : Host) : host.layer.keys.Nodup := by
  refine Fields.nodup_keys_insertAll ?_ _
  simp [toValue, Value.object?, Fields.erase, Fields.keys]

theorem Fields.get?_collapse (fields : Fields) (key : String) :
    fields.collapse.get? key = (fields.get? key).map BootTree.collapse := by
  induction fields with
  | nil => rfl
  | cons m rest ih =>
    have hcons : collapse (m :: rest) = (m.1, BootTree.collapse m.2) :: collapse rest := rfl
    rw [hcons, get?, get?]
    split
    · rfl
    · exact ih

/-- The options of a host are those of its three layers, merged. -/
theorem get?_blendLayers (hdistro : registry.findDistro? host.distro = some distro)
    (hsettings : "kernel_options" ∉ settings.templateVariables.keys)
    (hfree : "kernel_options" ∉ distro.templateVariables.keys)
    (hfree' : "kernel_options" ∉ host.templateVariables.keys) :
    ∃ values, blendLayers settings registry (.host host) = .ok values ∧
      values.get? "kernel_options" = some (.object
        ([distro.kernelOptions, host.kernelOptions].foldl Fields.merge settings.kernelOptions)) := by
  have hnodup : ∀ layer ∈ [distro.layer, host.layer], layer.keys.Nodup :=
    List.forall_mem_cons.mpr ⟨distro.nodup_keys_layer,
      List.forall_mem_singleton.mpr host.nodup_keys_layer⟩
  refine ⟨[distro.layer, host.layer].foldl Fields.merge settings.layer, ?_, ?_⟩
  · rw [blendLayers, hdistro]
    rfl
  · rw [Fields.get?_foldl_merge hnodup]
    simp [Settings.get?_layer hsettings, Distro.get?_layer hfree, Host.get?_layer hfree',
      Fields.laidOver, Value.overlay]

/-- The kernel command line of a host.  Where no free variable takes its place and the options of
settings, distribution and host have no spaces in keys or in the texts of their values, it falls
into the words of the options: for each key, in the order in which the keys first come, the words of
the value that the last of the three layers gives it, where objects are merged.  So no word is left
over from a value that was overridden, and no option is lost or comes twice. -/
theorem words_kernelOptions (hdistro : registry.findDistro? host.distro = some distro)
    (hfree : ∀ free ∈
      [settings.templateVariables, distro.templateVariables, host.templateVariables],
      "kernel_options" ∉ free.keys)
    (hfits : ∀ options ∈ [settings.kernelOptions, distro.kernelOptions, host.kernelOptions],
      FitsLine options) :
    ∃ view line, (Resolver.inheritance settings registry).blend (.host host) true = .ok view ∧
      view.text? "kernel_options" = some line ∧
      words line = lineOf [settings.kernelOptions, distro.kernelOptions, host.kernelOptions] := by
  simp only [List.forall_mem_cons] at hfree
  obtain ⟨hsettings, hdistroFree, hhostFree, -⟩ := hfree
  obtain ⟨values, hvalues, hget⟩ := get?_blendLayers hdistro hsettings hdistroFree hhostFree
  refine ⟨⟨values.collapse⟩, _, ?_, ?_, words_intercalate (word_of_mem_lineOf hfits)⟩
  · show (blendLayers settings registry (.host host) >>= fun values => _) = _
    rw [hvalues]
    rfl
  · rw [Blended.text?, Blended.get?, Fields.get?_collapse, hget, ← optionWords_foldl_merge hfits]
    rfl

def layeredSettings : Settings :=
  { kernelOptions := [("console", .text "tty0"), ("quiet", .null),
      ("net", .object [("dev", .text "eth0")])] }

def layeredDistro : Distro :=
  { name := "d"
    kernel := "k"
    initrd := "i"
    kernelOptions := [("debug", .bool true), ("net", .object [("up", .bool true)])] }

def layeredHost : Host :=
  { name := "h"
    distro := "d"
    kernelOptions := [("console", .list [.text "ttyS0", .text "tty1"]), ("debug", .list []),
      ("root", .text "")] }

/-- The host overrides `console` by a list, takes `debug` back with an empty one and adds `root`; the
objects under `net` are merged, and `quiet` stays without a value. -/
theorem words_kernelOptions_layered : ∃ view line,
    (Resolver.inheritance layeredSettings { distros := [layeredDistro] }).blend
      (.host layeredHost) true = .ok view ∧
    view.text? "kernel_options" = some line ∧
    words line = ["console=ttyS0", "console=tty1", "quiet",
      "net=\x7b\"dev\":\"eth0\",\"up\":true\x7d", "root"] := by
  obtain ⟨view, line, hview, hline, hwords⟩ := @words_kernelOptions layeredSettings
    { distros := [layeredDistro] } layeredDistro layeredHost rfl (by decide +kernel)
    (by decide +kernel)
  exact ⟨view, line, hview, hline, hwords.trans (by decide +kernel)⟩

end View

end BootTree

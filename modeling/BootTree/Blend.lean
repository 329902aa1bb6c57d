/-
  The view on a record that templates see: the settings of the server, the distribution, and for a
  host the host itself, layer upon layer.

  A layer holds the fields of its record, with the free variables among them as if they were fields.
  A collapsed view has a text in place of every list and object: the words of a kernel command line.
-/
import BootTree.Registry.Registry
import BootTree.Settings.Server
import BootTree.Template

namespace BootTree

/-- A record that a view is made of. -/
inductive Entity where
  | distro (distro : Distro)
  | host (host : Host)

/-- A view: names and their values. -/
structure Blended where
  values : Fields
  deriving DecidableEq

namespace Blended

def get? (b : Blended) (key : String) : Option Value := b.values.get? key

/-- The text under a key. -/
def text? (b : Blended) (key : String) : Option String := (b.get? key).bind Value.text?

/-- The declared files in the view; none where the key is missing or null. -/
def templateFiles (b : Blended) : Except RegistryError TemplateFiles :=
  match b.get? "template_files" with
  | none | some .null => .ok .empty
  | some v =>
    match TemplateFiles.read (.ofValue v) with
    | .ok files => .ok files
    | .error mismatch => .error (.blend "template_files" mismatch)

end Blended

/-! ## Layers -/

/-- The lowest layer. -/
def Settings.layer (s : Settings) : Fields :=
  Fields.insertAll [
    ("server", .text s.server),
    ("next_server", .text s.nextServer),
    ("tftpboot_location", .text s.bootRoot.text),
    ("webdir", .text s.webPath.text),
    ("kernel_options", .object s.kernelOptions)] s.templateVariables

/-- The layer of a record: its fields, and its variables as further fields. The form of a record is
an object, and there always is one, since the paths in a record are texts. -/
def recordLayer (record : Value) (free : Fields) : Fields :=
  Fields.insertAll ((record.object?.getD []).erase "variables") free

def Distro.layer (d : Distro) : Fields := recordLayer d.toValue d.templateVariables

def Host.layer (h : Host) : Fields := recordLayer h.toValue h.templateVariables

/-! ## Collapsing -/

/-- The words of one option: its key alone for null and the empty text, one word for every item of
a list, else key and value. -/
def optionWords (key : String) : Value → List String
  | .null => [key]
  | .list items => items.map fun v => key ++ "=" ++ Template.fill v
  | v => if v = .text "" then [key] else [key ++ "=" ++ Template.fill v]

/-- A list or object as words in one text; scalars stay as they are. -/
def collapse : Value → Value
  | .object members => .text (" ".intercalate (members.flatMap fun m => optionWords m.1 m.2))
  | .list items => .text (" ".intercalate (items.map Template.fill))
  | v => v

/-- All values of a view collapsed. -/
def Fields.collapse (fields : Fields) : Fields := fields.map fun m => (m.1, BootTree.collapse m.2)

/-! ## Views -/

/-- How views are made. -/
structure Resolver where
  blend : Entity → Bool → Except RegistryError Blended

/-- The layers of a record, merged. A host has its distribution below it. -/
def blendLayers (settings : Settings) (registry : Registry) : Entity → Except RegistryError Fields
  | .distro d => .ok (Fields.merge settings.layer d.layer)
  | .host h =>
    match registry.findDistro? h.distro with
    | some d => .ok (Fields.merge (Fields.merge settings.layer d.layer) h.layer)
    | none => .error (.unknownDistro h.name h.distro)

/-- Views by inheritance. -/
def Resolver.inheritance (settings : Settings) (registry : Registry) : Resolver where
  blend entity collapsed := do
    let values ← blendLayers settings registry entity
    .ok ⟨if collapsed then values.collapse else values⟩

end BootTree

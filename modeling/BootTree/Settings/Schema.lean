/-
  Settings schemas: the keys a settings document may have, the kind of each value, and defaults.

  Normalizing a document turns every value into the declared kind where a sensible reading exists,
  fills in defaults, and puts the keys into the order of the schema. All violations are listed: the
  unknown keys in the order of the document, then the rest in the order of the schema.
-/
import BootTree.Json.Printer
import BootTree.Text.Class

namespace BootTree

/-- The declared kind of a settings value. -/
inductive FieldKind where
  | bool
  | int
  | string
  | list
  | map
  | any
  deriving DecidableEq, Repr

namespace FieldKind

def name : FieldKind → String
  | .bool => "bool"
  | .int => "int"
  | .string => "string"
  | .list => "list"
  | .map => "map"
  | .any => "any"

/-- The flag that a word denotes, in any letter case and with blanks around it. -/
def flag? (s : String) : Option Bool :=
  let word := (String.ofList (Text.trim s.toList)).map Char.toLower
  if ["true", "yes", "on", "1"].contains word then some true
  else if ["false", "no", "off", "0"].contains word then some false
  else none

/-- The integer of 64 bits that a text denotes: digits, perhaps after a sign. -/
def word? (cs : List Char) : Option Int :=
  let (negative, digits) := match cs with
    | '-' :: rest => (true, rest)
    | '+' :: rest => (false, rest)
    | _ => (false, cs)
  if digits.isEmpty || !digits.all Char.isDigit then none
  else
    let n := digits.foldl (fun n c => 10 * n + (c.toNat - '0'.toNat)) 0
    (Number.int (if negative then -(n : Int) else n)).word?

/-- The value in the declared kind; none where it cannot be read so. -/
def coerce (kind : FieldKind) (value : Value) : Option Value :=
  match kind, value with
  | .any, v => some v
  | .bool, .bool b => some (.bool b)
  | .bool, .text s => (flag? s).map .bool
  | .bool, .number n =>
    match n.word? with
    | some 0 => some (.bool false)
    | some 1 => some (.bool true)
    | _ => none
  | .int, .number n => n.word?.map fun i => .number (.int i)
  | .int, .text s => (word? (Text.trim s.toList)).map fun i => .number (.int i)
  | .string, .text s => some (.text s)
  | .string, .number n => some (.text (Json.compact (.number n)))
  | .list, .list items => some (.list items)
  | .map, .object members => some (.object members)
  | _, _ => none

end FieldKind

/-- One key of a schema; without a default it is required. -/
structure Field where
  name : String
  kind : FieldKind
  default? : Option Value
  deriving DecidableEq, Repr

/-- A schema with its version. -/
structure Schema where
  version : String
  fields : List Field
  deriving DecidableEq, Repr

/-- What is wrong with a document. -/
inductive Violation where
  | unknownKey (key : String)
  | missingKey (key : String)
  | wrongKind (key : String) (expected : FieldKind) (found : Value)
  deriving DecidableEq, Repr

def Violation.message : Violation → String
  | .unknownKey key => s!"unknown key '{key}'"
  | .missingKey key => s!"missing required key '{key}'"
  | .wrongKind key expected found =>
    s!"key '{key}' expects {expected.name}, got {Json.compact found}"

namespace Field

/-- What a document gives for the field: its value in the declared kind, or the default. -/
def evaluate (field : Field) (document : Fields) : Except Violation Value :=
  match document.get? field.name, field.default? with
  | some value, _ =>
    match field.kind.coerce value with
    | some v => .ok v
    | none => .error (.wrongKind field.name field.kind value)
  | none, some v => .ok v
  | none, none => .error (.missingKey field.name)

end Field

namespace Schema

def field? (schema : Schema) (name : String) : Option Field :=
  schema.fields.find? fun f => f.name = name

/-- One violation for every key that the schema does not have. -/
def unknownKeys (schema : Schema) (document : Fields) : List Violation :=
  (document.keys.filter fun key => (schema.field? key).isNone).map .unknownKey

/-- Evaluates the fields in turn: the values of those that have one, and the violations of the
others. -/
def evaluateAll (document : Fields) (done : Fields) : List Field → Fields × List Violation
  | [] => (done, [])
  | field :: rest =>
    match field.evaluate document with
    | .ok v => evaluateAll document (done.insert field.name v) rest
    | .error violation =>
      let (result, violations) := evaluateAll document done rest
      (result, violation :: violations)

/-- The document in the kinds and order of the schema, or everything that is wrong with it. -/
def normalize (schema : Schema) (document : Fields) : Except (List Violation) Fields :=
  let (result, violations) := evaluateAll document [] schema.fields
  match schema.unknownKeys document ++ violations with
  | [] => .ok result
  | all => .error all

end Schema

end BootTree

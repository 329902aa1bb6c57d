/-
  What the text of a document says, before it is known what a reader wants of it.

  A scalar of some formats stands for its own text or for a number, a flag or nothing at all,
  whichever is asked for; a record may repeat a key; a numeral may be out of range and still do no
  harm where nobody looks. `Source.value?` reads everything as plain data, the `as…` readers read
  one expected kind, and `Source.slots` reads a record with fixed fields.
-/
import BootTree.Value

namespace BootTree

/-- What a scalar stands for, by what is asked for. -/
structure Reading where
  text : String
  flag : Option Bool
  /-- Where a text may be missing: the text, or nothing. -/
  optional : Option (Option String)
  /-- Whether the scalar stands for a list or record without parts. -/
  empty : Bool
  /-- What the scalar is as plain data. -/
  meaning : Option Value
  deriving Repr, Inhabited

/-- Whether a list may stand for a record, its items being the fields in their order. -/
inductive Positional where
  | never
  /-- It may, with no more items than there are fields. -/
  | strict
  /-- It may, and the items after the last field are passed over. -/
  | loose
  deriving DecidableEq, Repr

/-- What a document or a part of it says. -/
inductive Source where
  /-- A scalar that is just what it is. -/
  | atom (value : Value)
  /-- A scalar that is what the reader takes it for. -/
  | scalar (reading : Reading)
  /-- Something of the right form that nothing can be read from. -/
  | unreadable
  /-- A list or record with a mark of its own, which is no plain data. -/
  | marked (inner : Source)
  | list (positional : Positional) (items : List Source)
  /-- Keys and values in order, repeated keys included; a key that is no text is none. -/
  | record (entries : List (Option String × Source))
  deriving Repr, Inhabited

namespace Source

/-! ## Plain data -/

mutual

/-- Everything as plain data. Of a repeated key the first place and the last value count. -/
def value? : Source → Option Value
  | .atom v => some v
  | .scalar r => r.meaning
  | .unreadable => none
  | .marked _ => none
  | .list _ items => (values? items).map .list
  | .record entries => (fields? [] entries).map .object

def values? : List Source → Option (List Value)
  | [] => some []
  | s :: rest => do
    let v ← value? s
    let vs ← values? rest
    some (v :: vs)

/-- Adds the entries to an object one by one. -/
def fields? (done : Fields) : List (Option String × Source) → Option Fields
  | [] => some done
  | (key, s) :: rest => do
    let key ← key
    let v ← value? s
    fields? (done.insert key v) rest

end

mutual

/-- Plain data as a document that says just that. -/
def ofValue : Value → Source
  | .list items => .list .strict (ofValues items)
  | .object members => .record (ofFields members)
  | v => .atom v

def ofValues : List Value → List Source
  | [] => []
  | v :: rest => ofValue v :: ofValues rest

def ofFields : List (String × Value) → List (Option String × Source)
  | [] => []
  | (key, v) :: rest => (some key, ofValue v) :: ofFields rest

end

/-! ## One expected kind -/

def asText : Source → Option String
  | .atom (.text s) => some s
  | .scalar r => some r.text
  | _ => none

/-- A text, or nothing where the document says that there is none. -/
def asOptionalText : Source → Option (Option String)
  | .atom .null => some none
  | .scalar r => r.optional
  | s => (asText s).map some

def asBool : Source → Option Bool
  | .atom (.bool b) => some b
  | .scalar r => r.flag
  | _ => none

def asList (read : Source → Option α) : Source → Option (List α)
  | .list _ items => items.mapM read
  | .scalar r => if r.empty then some [] else none
  | .marked inner => asList read inner
  | _ => none

/-- The entries of a record. -/
def entries? : Source → Option (List (Option String × Source))
  | .record entries => some entries
  | .scalar r => if r.empty then some [] else none
  | .marked inner => entries? inner
  | _ => none

/-- A record as the members of an object. -/
def asFields (s : Source) : Option Fields := do fields? [] (← s.entries?)

/-! ## Records with fixed fields -/

/-- Sorts entries into the named fields. An unknown key is passed over, a field given twice is an
error. -/
def sortEntries (names : List String) (slots : List (String × Source)) :
    List (Option String × Source) → Option (List (String × Source))
  | [] => some slots
  | (key, s) :: rest => do
    let key ← key
    if !names.contains key then sortEntries names slots rest
    else if (slots.lookup key).isSome then none
    else sortEntries names (slots ++ [(key, s)]) rest

/-- The fields that a record gives, by name. -/
def slots (names : List String) (s : Source) : Option (List (String × Source)) :=
  match s with
  | .list .never _ => none
  | .list .strict items => if items.length ≤ names.length then some (names.zip items) else none
  | .list .loose items => some (names.zip items)
  | _ => do sortEntries names [] (← s.entries?)

/-- Reads a field that must be given. -/
def required (slots : List (String × Source)) (name : String) (read : Source → Option α) :
    Option α := do
  read (← slots.lookup name)

/-- Reads a field that has a value of its own when it is not given. -/
def optional (slots : List (String × Source)) (name : String) (absent : α)
    (read : Source → Option α) : Option α :=
  match slots.lookup name with
  | some s => read s
  | none => some absent

end Source

end BootTree

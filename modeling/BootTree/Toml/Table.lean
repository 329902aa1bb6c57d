/-
  What a TOML document builds up: tables that remember how they came about, since this decides what
  may still be added to them.

  A header opens a table once. A table that only lies on the way of a header may be opened later, a
  table that dotted keys made may get more dotted keys, and one that is written as a value is
  complete.
-/
import BootTree.Source

namespace BootTree.Toml

/-- How a table came about. -/
inductive Origin where
  | header
  | implied
  | dotted
  | written
  deriving DecidableEq, Repr

/-- What stands under a key. -/
inductive Item where
  | atom (value : Value)
  | array (items : List Item)
  | table (origin : Origin) (members : List (String × Item))
  /-- The tables under a repeated header, in order. -/
  | tables (all : List (List (String × Item)))
  deriving Repr, Inhabited

abbrev Members := List (String × Item)

namespace Members

def get? (key : String) : Members → Option Item
  | [] => none
  | (k, item) :: rest => if k = key then some item else get? key rest

/-- Puts an item in the place of its key, else at the end. -/
def set (key : String) (item : Item) : Members → Members
  | [] => [(key, item)]
  | (k, x) :: rest => if k = key then (k, item) :: rest else (k, x) :: set key item rest

def erase (key : String) (members : Members) : Members := members.filter fun m => m.1 ≠ key

/-- Adds an item under a key that is new. -/
def add (key : String) (item : Item) (members : Members) : Option Members :=
  match get? key members with
  | some _ => none
  | none => some (members ++ [(key, item)])

/-- Adds an item under a dotted key. The tables on the way are made; those that are there must not
have been opened by a header, and the last of them must be one of dotted keys. -/
def addDotted (key : String) (item : Item) : Bool → List String → Members → Option Members
  | dotted, [], members => if dotted then add key item members else none
  | _, part :: path, members =>
    match get? part members with
    | none => do
      let inner ← addDotted key item true path []
      some (members ++ [(part, .table .dotted inner)])
    | some (.table origin inner) =>
      if origin = .implied ∨ origin = .dotted then do
        let inner ← addDotted key item (origin = .dotted) path inner
        some (set part (.table origin inner) members)
      else none
    | some (.tables all) =>
      match all.getLast? with
      | some last => do
        let last ← addDotted key item false path last
        some (set part (.tables (all.dropLast ++ [last])) members)
      | none => none
    | some _ => none

/-- Adds an item under a key with its parts in order. -/
def addKey (parts : List String) (item : Item) (members : Members) : Option Members :=
  match parts.reverse with
  | [] => none
  | [key] => add key item members
  | key :: before => addDotted key item false before.reverse members

/-- Adds items under their keys one after another. -/
def addAll (members : Members) (entries : List (List String × Item)) : Option Members :=
  entries.foldlM (fun members e => addKey e.1 e.2 members) members

/-- Changes the table that a header path leads to; tables on the way are made. -/
def changeAt (change : Members → Option Members) : List String → Members → Option Members
  | [], members => change members
  | part :: path, members =>
    match get? part members with
    | none => do
      let inner ← changeAt change path []
      some (members ++ [(part, .table .implied inner)])
    | some (.table origin inner) =>
      if origin = .written then none
      else do
        let inner ← changeAt change path inner
        some (set part (.table origin inner) members)
    | some (.tables all) =>
      match all.getLast? with
      | some last => do
        let last ← changeAt change path last
        some (set part (.tables (all.dropLast ++ [last])) members)
      | none => none
    | some _ => none

/-- Opens a table: it must be new, or lie on the way of an earlier header. It stands where it is
opened. -/
def openTable (key : String) (entries : List (List String × Item)) (parent : Members) :
    Option Members :=
  match get? key parent with
  | none => do
    let body ← addAll [] entries
    some (parent ++ [(key, .table .header body)])
  | some (.table .implied inner) => do
    let body ← addAll inner entries
    some (erase key parent ++ [(key, .table .header body)])
  | some _ => none

/-- Opens the next table under a repeated header. -/
def openNext (key : String) (entries : List (List String × Item)) (parent : Members) :
    Option Members := do
  let body ← addAll [] entries
  match get? key parent with
  | none => some (parent ++ [(key, .tables [body])])
  | some (.tables all) => some (set key (.tables (all ++ [body])) parent)
  | some _ => none

end Members

mutual

/-- An item as a document. -/
def Item.source : Item → Source
  | .atom v => .ofValue v
  | .array items => .list .loose (Item.sources items)
  | .table _ members => .record (Item.entries members)
  | .tables all => .list .loose (Item.tableSources all)

def Item.sources : List Item → List Source
  | [] => []
  | item :: rest => item.source :: Item.sources rest

def Item.entries : List (String × Item) → List (Option String × Source)
  | [] => []
  | (key, item) :: rest => (some key, item.source) :: Item.entries rest

def Item.tableSources : List (List (String × Item)) → List Source
  | [] => []
  | members :: rest => .record (Item.entries members) :: Item.tableSources rest

end

end BootTree.Toml

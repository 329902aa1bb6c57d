/-
  Templates: text with placeholders between pairs of braces, filled from the members of an object.

  A template is first taken apart into pieces in one pass from left to right, so that what a
  placeholder is replaced with is never looked at again. A placeholder names a member, or by a
  dotted path a value inside one.
-/
import BootTree.Json.Printer
import BootTree.Text.Class

namespace BootTree

namespace Template

/-- A stretch of literal text, or a placeholder with all that stands between its braces. -/
inductive Piece where
  | literal (text : List Char)
  | hole (body : List Char)
  deriving DecidableEq, Repr

/-- Takes a template apart. Inside a placeholder `body` holds what was read of it, last character
first. A placeholder that is never closed is literal text. -/
def pieces : Option (List Char) → List Char → List Piece
  | none, [] => []
  | none, '\x7b' :: '\x7b' :: rest => pieces (some []) rest
  | none, c :: rest => .literal [c] :: pieces none rest
  | some body, [] => [.literal ('\x7b' :: '\x7b' :: body.reverse)]
  | some body, '\x7d' :: '\x7d' :: rest => .hole body.reverse :: pieces none rest
  | some body, c :: rest => pieces (some (c :: body)) rest

/-! ## Look-up -/

/-- Cuts a text at every point; there is always at least one part. -/
def cutAtPoints : List Char → List (List Char)
  | [] => [[]]
  | c :: rest =>
    if c = '.' then [] :: cutAtPoints rest
    else
      match cutAtPoints rest with
      | part :: parts => (c :: part) :: parts
      | [] => [[c]]

/-- The number an index text denotes: digits, perhaps after a plus sign, below `2 ^ 64`. -/
def index? (cs : List Char) : Option Nat :=
  let digits := match cs with
    | '+' :: rest => rest
    | _ => cs
  if digits.isEmpty || !digits.all Char.isDigit then none
  else
    let n := digits.foldl (fun n c => 10 * n + (c.toNat - '0'.toNat)) 0
    if n < Nat.pow 2 64 then some n else none

/-- Follows a path of names and indices into a value. -/
def descend (v : Value) : List (List Char) → Option Value
  | [] => some v
  | part :: parts =>
    match v with
    | .object members => do
      let inner ← Fields.get? members (String.ofList part)
      descend inner parts
    | .list items => do
      let i ← index? part
      let inner ← items[i]?
      descend inner parts
    | _ => none

/-- The value that a name or dotted path leads to. A member with the whole path as its key comes
before the parts. -/
def lookup (vars : Fields) (path : String) : Option Value :=
  if path = "" then none
  else
    match vars.get? path with
    | some v => some v
    | none => descend (.object vars) (cutAtPoints path.toList)

/-! ## Rendering -/

/-- What a value is replaced with: a text by itself, null by nothing, anything else by its JSON
text. -/
def fill : Value → String
  | .text s => s
  | .null => ""
  | v => Json.compact v

/-- The value of a placeholder: from the extra members, else from the variables. -/
def resolve (vars : Fields) (extra : Option Fields) (name : String) : Option Value :=
  match extra.bind fun fields => lookup fields name with
  | some v => some v
  | none => lookup vars name

/-- The name between the braces. -/
def holeName (body : List Char) : String := String.ofList (Text.trim body)

/-- The text of the pieces; the name of the first placeholder without a value where that is not
allowed. -/
def renderPieces (strict : Bool) (vars : Fields) (extra : Option Fields) :
    List Piece → Except String (List Char)
  | [] => .ok []
  | .literal text :: rest => do
    let tail ← renderPieces strict vars extra rest
    .ok (text ++ tail)
  | .hole body :: rest =>
    match resolve vars extra (holeName body) with
    | some v => do
      let tail ← renderPieces strict vars extra rest
      .ok ((fill v).toList ++ tail)
    | none =>
      if strict then .error (holeName body)
      else do
        let tail ← renderPieces strict vars extra rest
        .ok ('\x7b' :: '\x7b' :: body ++ '\x7d' :: '\x7d' :: tail)

/-- Renders a template, or gives the name of the first placeholder that is not known. -/
def render (strict : Bool) (template : String) (vars : Fields) (extra : Option Fields) :
    Except String String :=
  (renderPieces strict vars extra (pieces none template.toList)).map String.ofList

end Template

end BootTree

/-
  TOML text as a document.
-/
import BootTree.Toml.Moment
import BootTree.Toml.Quoted
import BootTree.Toml.Table

namespace BootTree.Toml

/-! ## Scalars -/

/-- Reads digits of a base, with single underscores between digits. -/
def digitsWith (isDigit : Char → Bool) : List Char → List Char × List Char
  | '_' :: c :: rest =>
    if isDigit c then
      let (ds, rest) := digitsWith isDigit rest
      (c :: ds, rest)
    else ([], '_' :: c :: rest)
  | c :: rest =>
    if isDigit c then
      let (ds, rest) := digitsWith isDigit rest
      (c :: ds, rest)
    else ([], c :: rest)
  | [] => ([], [])

/-- Reads at least one digit; the first character is one. -/
def digits1 (isDigit : Char → Bool) (cs : List Char) : Option (List Char × List Char) :=
  match cs with
  | c :: _ => if isDigit c then some (digitsWith isDigit cs) else none
  | [] => none

/-- Reads digits that do not start with zero, or zero alone. -/
def wholeDigits : List Char → Option (List Char × List Char)
  | '0' :: rest => some (['0'], rest)
  | cs => digits1 Char.isDigit cs

def sign : List Char → Bool × List Char
  | '-' :: rest => (true, rest)
  | '+' :: rest => (false, rest)
  | cs => (false, cs)

/-- An integer within 64 bits. -/
def int? (n : Int) : Option Value := (Number.int n).word?.map fun n => .number (.int n)

def isOctal (c : Char) : Bool := '0' ≤ c && c ≤ '7'

def isBinary (c : Char) : Bool := c = '0' || c = '1'

/-- The number that digits denote in a base up to sixteen. -/
def inBase (base : Nat) (ds : List Char) : Nat :=
  ds.foldl (fun n c => base * n + (Json.hexValue? c).getD 0) 0

/-- Reads an integer in base sixteen, eight or two after its mark. -/
def basedInteger : List Char → Option (Option Value × List Char)
  | '0' :: 'x' :: rest =>
    (digits1 (fun c => (Json.hexValue? c).isSome) rest).map fun (ds, rest) =>
      (int? (inBase 16 ds), rest)
  | '0' :: 'o' :: rest =>
    (digits1 isOctal rest).map fun (ds, rest) => (int? (inBase 8 ds), rest)
  | '0' :: 'b' :: rest =>
    (digits1 isBinary rest).map fun (ds, rest) => (int? (inBase 2 ds), rest)
  | _ => none

/-- A double as a value; infinities and not-a-number are null. -/
def doubleValue (d : Double) : Value :=
  if d.magnitude?.isSome then .number (.double d) else .null

/-- Reads an exponent, if there is one. -/
def exponent (cs : List Char) : Option (Option Int × List Char) :=
  match cs with
  | c :: rest =>
    if c = 'e' || c = 'E' then do
      let (negative, rest) := sign rest
      let (ds, rest) ← digits1 Char.isDigit rest
      let n : Int := Decimal.digitsValue 0 ds
      some (some (if negative then -n else n), rest)
    else some (none, cs)
  | [] => some (none, [])

/-- Reads the digits after a point, if there is one. -/
def places (cs : List Char) : Option (Option (List Char) × List Char) :=
  match cs with
  | '.' :: rest => do
    let (ds, rest) ← digits1 Char.isDigit rest
    some (some ds, rest)
  | _ => some (none, cs)

/-- A numeral with a point or exponent as a value. Beyond the greatest double only a negative one is
accepted. -/
def numeralValue (n : Decimal.Numeral) : Option Value :=
  match n.nearest with
  | some d => some (doubleValue d)
  | none => if n.negative then some .null else none

/-- Reads a decimal number, or infinity or not-a-number with or without a sign. -/
def decimal (cs : List Char) : Option (Value × List Char) :=
  let (negative, rest) := sign cs
  match rest with
  | 'i' :: 'n' :: 'f' :: rest => some (.null, rest)
  | 'n' :: 'a' :: 'n' :: rest => some (.null, rest)
  | _ => do
    let (whole, rest) ← wholeDigits rest
    let (places, rest) ← places rest
    let (exponent, rest) ← exponent rest
    if places.isNone && exponent.isNone then
      let n : Int := Decimal.digitsValue 0 whole
      let v ← int? (if negative then -n else n)
      some (v, rest)
    else
      let v ← numeralValue ⟨negative, whole, places, exponent⟩
      some (v, rest)

/-- A date or time as a value: an object with its text. -/
def momentValue (m : Moment) : Value :=
  .object [("$__toml_private_datetime", .text m.text)]

/-- Reads a number or a date. -/
def numberOrDate (cs : List Char) : Option (Value × List Char) :=
  match Moment.read cs with
  | some (m, rest) => some (momentValue m, rest)
  | none =>
    match basedInteger cs with
    | some (v, rest) => v.map (·, rest)
    | none => decimal cs

/-- Reads a scalar. -/
def scalar (cs : List Char) : Option (Value × List Char) :=
  match cs with
  | '"' :: _ | '\'' :: _ => (string cs).map fun (s, rest) => (.text s, rest)
  | 't' :: 'r' :: 'u' :: 'e' :: rest => some (.bool true, rest)
  | 'f' :: 'a' :: 'l' :: 's' :: 'e' :: rest => some (.bool false, rest)
  | _ => numberOrDate cs

/-! ## Blanks -/

/-- Passes over blanks, line breaks and comments; inside a comment up to the end of the line. -/
def skipLines (comment : Bool) : List Char → Option (List Char)
  | [] => some []
  | '\n' :: rest => skipLines false rest
  | '\r' :: '\n' :: rest => skipLines false rest
  | c :: rest =>
    if comment then if isPlain c then skipLines true rest else none
    else if isSpace c then skipLines false rest
    else if c = '#' then skipLines true rest
    else some (c :: rest)

/-- Passes over what may follow on a line, and over the end of the line. -/
def endLine (cs : List Char) : Option (List Char) :=
  let rest := match cs.dropWhile isSpace with
    | '#' :: rest => rest.dropWhile isPlain
    | rest => rest
  match rest with
  | [] => some []
  | _ => lineBreak? rest

/-! ## Values -/

mutual

/-- Reads a value; arrays and tables lie at most `depth` deep in one another. Every call takes fuel,
and there are at most two calls to a character. -/
def value : Nat → Nat → List Char → Option (Item × List Char)
  | 0, _, _ => none
  | fuel + 1, depth, cs =>
    match cs, depth with
    | '[' :: rest, depth + 1 => arrayItems fuel depth [] rest
    | '\x7b' :: rest, depth + 1 =>
      match rest.dropWhile isSpace with
      | '\x7d' :: rest => some (.table .written [], rest)
      | rest => inlineEntries fuel depth [] rest
    | _, _ => (scalar cs).map fun (v, rest) => (.atom v, rest)

/-- Reads the rest of an array; `done` holds the items so far, last first. -/
def arrayItems : Nat → Nat → List Item → List Char → Option (Item × List Char)
  | 0, _, _, _ => none
  | fuel + 1, depth, done, cs => do
    match ← skipLines false cs with
    | ']' :: rest => some (.array done.reverse, rest)
    | cs =>
      let (item, cs) ← value fuel depth cs
      match ← skipLines false cs with
      | ',' :: rest => arrayItems fuel depth (item :: done) rest
      | ']' :: rest => some (.array (item :: done).reverse, rest)
      | _ => none

/-- Reads the rest of a table on one line. -/
def inlineEntries : Nat → Nat → List (List String × Item) → List Char → Option (Item × List Char)
  | 0, _, _, _ => none
  | fuel + 1, depth, done, cs => do
    let (key, cs) ← key cs
    match cs with
    | '=' :: cs =>
      let (item, cs) ← value fuel depth (cs.dropWhile isSpace)
      let done := (key, item) :: done
      match cs.dropWhile isSpace with
      | ',' :: rest => inlineEntries fuel depth done rest
      | '\x7d' :: rest =>
        let members ← Members.addAll [] done.reverse
        some (.table .written members, rest)
      | _ => none
    | _ => none

end

/-! ## Documents -/

/-- A header: its path without the last part, the last part, and whether it repeats. -/
structure Header where
  path : List String
  key : String
  repeated : Bool
  deriving Repr

/-- A header and the entries below it; the entries at the start have no header. -/
structure Section where
  header : Option Header
  entries : List (List String × Item)
  deriving Repr

/-- Takes a path apart into all but the last part, and the last. -/
def headerOf (parts : List String) (repeated : Bool) : Option Header :=
  match parts.reverse with
  | [] => none
  | key :: before => some ⟨before.reverse, key, repeated⟩

/-- Reads a header line after its first bracket. -/
def header : List Char → Option (Header × List Char)
  | '[' :: rest => do
    let (parts, rest) ← key rest
    match rest with
    | ']' :: ']' :: rest => some (← headerOf parts true, ← endLine rest)
    | _ => none
  | rest => do
    let (parts, rest) ← key rest
    match rest with
    | ']' :: rest => some (← headerOf parts false, ← endLine rest)
    | _ => none

/-- Reads an entry line. -/
def entry (cs : List Char) : Option ((List String × Item) × List Char) := do
  let (parts, rest) ← key cs
  match rest with
  | '=' :: rest =>
    let (item, rest) ← value (2 * rest.length + 2) depthLimit (rest.dropWhile isSpace)
    some ((parts, item), ← endLine rest)
  | _ => none

/-- Reads the lines of a document into sections; `header` and `done` are those of the section being
read, its entries last first. Each line takes at least one character. -/
def lines : Nat → Option Header → List (List String × Item) → List Char → Option (List Section)
  | 0, _, _, _ => none
  | fuel + 1, above, done, cs => do
    match ← skipLines false cs with
    | [] => some [⟨above, done.reverse⟩]
    | '[' :: rest =>
      let (next, rest) ← header rest
      let sections ← lines fuel (some next) [] rest
      some (⟨above, done.reverse⟩ :: sections)
    | cs =>
      let (e, rest) ← entry cs
      lines fuel above (e :: done) rest

/-- Adds a section to a document. -/
def addSection (root : Members) (s : Section) : Option Members :=
  match s.header with
  | none => Members.addAll root s.entries
  | some h =>
    if h.repeated then Members.changeAt (Members.openNext h.key s.entries) h.path root
    else Members.changeAt (Members.openTable h.key s.entries) h.path root

/-- The members of a document. -/
def members? (text : String) : Option Members := do
  let cs := match text.toList with
    | '\ufeff' :: rest => rest
    | cs => cs
  let sections ← lines (cs.length + 1) none [] cs
  sections.foldlM addSection []

/-- The document that a text is. -/
def parse (text : String) : Option Source := do
  let members ← members? text
  some (Item.source (.table .header members))

end BootTree.Toml

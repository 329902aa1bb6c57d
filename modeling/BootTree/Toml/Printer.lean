/-
  Plain data as TOML text.

  The members of a table that are no tables come first, each on a line; then the tables follow under
  headers, a list of nothing but objects under a repeated header. Inside a value, a list of two
  items and more has a line for each. There is no null, and integers have 64 bits with a sign.
-/
import BootTree.Decimal.Notation
import BootTree.Json.Printer
import BootTree.Toml.Quoted

namespace BootTree.Toml

/-- Doubles are written without exponents. -/
def layout : Decimal.Layout where
  plain := fun _ => true
  exponentSign := []
  infinity := "inf"
  notANumber := "nan"

/-! ## Strings -/

/-- What decides about the marks around a text. -/
structure Shape where
  singles : Nat
  doubles : Nat
  controls : Bool
  backslash : Bool
  lineBreak : Bool

/-- The length of the longest run of a character. -/
def longestRun (c : Char) (cs : List Char) : Nat :=
  (cs.foldl (fun (best, run) x => if x = c then (max best (run + 1), run + 1) else (best, 0))
    (0, 0)).1

/-- Controls that have to be escaped: all but the tab and the line feed. -/
def isControl (c : Char) : Bool :=
  c ≠ '\t' && c ≠ '\n' && (c.toNat < 0x20 || c.toNat = 0x7F)

def Shape.of (cs : List Char) : Shape where
  singles := longestRun '\'' cs
  doubles := longestRun '"' cs
  controls := cs.any isControl
  backslash := cs.contains '\\'
  lineBreak := cs.contains '\n'

/-- Four hexadecimal digits in capitals. -/
def hex4 (n : Nat) : List Char :=
  let ds := (Nat.toDigits 16 n).map Char.toUpper
  List.replicate (4 - ds.length) '0' ++ ds

/-- Writes the inside of a basic string. In one over several lines, line breaks stand as they are
and so do up to two quotation marks in a row; `run` counts those just written. -/
def basicInside (several : Bool) (run : Nat) : List Char → List Char
  | [] => []
  | c :: rest =>
    if c = '"' then
      if several && run < 2 then '"' :: basicInside several (run + 1) rest
      else '\\' :: '"' :: basicInside several 0 rest
    else
      let written :=
        if c = '\x08' then ['\\', 'b']
        else if c = '\t' then ['\\', 't']
        else if c = '\n' then if several then ['\n'] else ['\\', 'n']
        else if c = '\x0c' then ['\\', 'f']
        else if c = '\r' then ['\\', 'r']
        else if c = '\\' then ['\\', '\\']
        else if isControl c then '\\' :: 'u' :: hex4 c.toNat
        else [c]
      written ++ basicInside several 0 rest

def basicText (cs : List Char) : List Char := '"' :: basicInside false 0 cs ++ ['"']

def literalText (cs : List Char) : List Char := '\'' :: cs ++ ['\'']

/-- A line break after opening marks if the text has one itself. -/
def opening (shape : Shape) : List Char := if shape.lineBreak then ['\n'] else []

def basicLinesText (shape : Shape) (cs : List Char) : List Char :=
  ['"', '"', '"'] ++ opening shape ++ basicInside true 0 cs ++ ['"', '"', '"']

def literalLinesText (shape : Shape) (cs : List Char) : List Char :=
  ['\'', '\'', '\''] ++ opening shape ++ cs ++ ['\'', '\'', '\'']

/-- Writes a text with the first marks that need no escapes: double, single, double over several
lines, single over several lines; with escapes if there are none. -/
def stringText (s : String) : List Char :=
  let cs := s.toList
  let shape := Shape.of cs
  if !shape.controls && !shape.backslash && shape.doubles = 0 && !shape.lineBreak then basicText cs
  else if !shape.controls && shape.singles = 0 && !shape.lineBreak then literalText cs
  else if !shape.controls && !shape.backslash && shape.doubles ≤ 2 then basicLinesText shape cs
  else if !shape.controls && shape.singles ≤ 2 then literalLinesText shape cs
  else if shape.lineBreak then basicLinesText shape cs
  else basicText cs

/-- Writes a key, without marks if it can do without. -/
def keyText (s : String) : List Char :=
  let cs := s.toList
  let shape := Shape.of cs
  if !cs.isEmpty && cs.all isBare then cs
  else if !shape.controls && !shape.backslash && shape.doubles = 0 && !shape.lineBreak then
    basicText cs
  else if !shape.controls && shape.singles = 0 && !shape.lineBreak then literalText cs
  else basicText cs

/-! ## Values -/

mutual

/-- Writes a value on its line. -/
def valueText : Value → Option (List Char)
  | .null => none
  | .bool b => some (if b then "true" else "false").toList
  | .number (.int n) => (Number.int n).word?.map Json.intText
  | .number (.double d) => some (layout.text d).toList
  | .text s => some (stringText s)
  | .list [] => some ['[', ']']
  | .list [v] => (valueText v).map fun cs => '[' :: cs ++ [']']
  | .list (v :: w :: rest) => (itemsText (v :: w :: rest)).map fun cs => '[' :: cs ++ ['\n', ']']
  | .object [] => some ['\x7b', '\x7d']
  | .object (m :: rest) =>
    (inlineText (m :: rest)).map fun cs => '\x7b' :: ' ' :: cs ++ [' ', '\x7d']

/-- Writes items on lines of their own. -/
def itemsText : List Value → Option (List Char)
  | [] => some []
  | v :: rest => do
    let cs ← valueText v
    let more ← itemsText rest
    some ("\n    ".toList ++ cs ++ ',' :: more)

/-- Writes members on one line. -/
def inlineText : List (String × Value) → Option (List Char)
  | [] => some []
  | [(key, v)] => do
    let cs ← valueText v
    some (keyText key ++ " = ".toList ++ cs)
  | (key, v) :: rest => do
    let cs ← valueText v
    let more ← inlineText rest
    some (keyText key ++ " = ".toList ++ cs ++ ", ".toList ++ more)

end

/-! ## Tables -/

/-- Whether a value is written under headers: an object, or a list of objects that is not empty. -/
def isTables : Value → Bool
  | .object _ => true
  | .list (v :: rest) => (v :: rest).all fun v => v.object?.isSome
  | _ => false

/-- The lines of the members that are no tables. -/
def entryLines : List (String × Value) → Option (List Char)
  | [] => some []
  | (key, v) :: rest => do
    let more ← entryLines rest
    if isTables v then some more
    else
      let cs ← valueText v
      some (keyText key ++ " = ".toList ++ cs ++ '\n' :: more)

/-- The parts of a path with points between. -/
def pathText (path : List String) : List Char := ['.'].intercalate (path.map keyText)

mutual

/-- The blocks of a table and of all below it. A table that has members, but none to be written on
lines of its own, needs no header; a repeated header is always written. -/
def tableBlocks (path : List String) (repeated : Bool) : Value → Option (List (List Char))
  | .object members => do
    let lines ← entryLines members
    let header := if path.isEmpty then []
      else if repeated then "[[".toList ++ pathText path ++ "]]\n".toList
      else if members.isEmpty || !lines.isEmpty then '[' :: pathText path ++ "]\n".toList
      else []
    let more ← memberBlocks path members
    let block := header ++ lines
    some (if block.isEmpty then more else block :: more)
  | _ => some []

/-- The blocks of the tables among members. -/
def memberBlocks (path : List String) : List (String × Value) → Option (List (List Char))
  | [] => some []
  | (key, v) :: rest => do
    let blocks ← match v with
      | .object members => tableBlocks (path ++ [key]) false (.object members)
      | .list items =>
        if isTables (.list items) then listBlocks (path ++ [key]) items else some []
      | _ => some []
    let more ← memberBlocks path rest
    some (blocks ++ more)

/-- The blocks of tables under one repeated header. -/
def listBlocks (path : List String) : List Value → Option (List (List Char))
  | [] => some []
  | v :: rest => do
    let blocks ← tableBlocks path true v
    let more ← listBlocks path rest
    some (blocks ++ more)

end

/-- The text of a document: its blocks with an empty line between. -/
def print (members : Fields) : Option String := do
  let blocks ← tableBlocks [] false (.object members)
  some (String.ofList (['\n'].intercalate blocks))

end BootTree.Toml

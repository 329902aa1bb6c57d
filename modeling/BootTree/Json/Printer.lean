/-
  Plain data as JSON text, on one line or with a line for every member and item.
-/
import BootTree.Decimal.Notation
import BootTree.Value

namespace BootTree.Json

/-- Doubles are plain between `0.00001` and `10 ^ 16`; the sign of an exponent is always written.
What is not a number has no text of its own. -/
def layout : Decimal.Layout where
  plain := Decimal.moderate
  exponentSign := ['+']
  infinity := "null"
  notANumber := "null"

def hexDigit (n : Nat) : Char := if n < 10 then Char.ofNat (48 + n) else Char.ofNat (87 + n)

/-- The form of one character in a string. -/
def escapeChar (c : Char) : List Char :=
  if c = '"' then ['\\', '"']
  else if c = '\\' then ['\\', '\\']
  else if c = '\x08' then ['\\', 'b']
  else if c = '\x0c' then ['\\', 'f']
  else if c = '\n' then ['\\', 'n']
  else if c = '\r' then ['\\', 'r']
  else if c = '\t' then ['\\', 't']
  else if c.toNat < 0x20 then
    ['\\', 'u', '0', '0', hexDigit (c.toNat / 16), hexDigit (c.toNat % 16)]
  else [c]

/-- A text as a string. -/
def quote (s : String) : List Char := '"' :: s.toList.flatMap escapeChar ++ ['"']

def intText (n : Int) : List Char :=
  if n < 0 then '-' :: Nat.toDigits 10 n.natAbs else Nat.toDigits 10 n.natAbs

def numberText : Number → List Char
  | .int n => intText n
  | .double d => (layout.text d).toList

mutual

/-- On one line, without spaces. -/
def compactChars : Value → List Char
  | .null => ['n', 'u', 'l', 'l']
  | .bool true => ['t', 'r', 'u', 'e']
  | .bool false => ['f', 'a', 'l', 's', 'e']
  | .number n => numberText n
  | .text s => quote s
  | .list items => '[' :: compactItems items ++ [']']
  | .object members => '\x7b' :: compactMembers members ++ ['\x7d']

def compactItems : List Value → List Char
  | [] => []
  | [v] => compactChars v
  | v :: rest => compactChars v ++ ',' :: compactItems rest

def compactMembers : List (String × Value) → List Char
  | [] => []
  | [(key, v)] => quote key ++ ':' :: compactChars v
  | (key, v) :: rest => quote key ++ ':' :: compactChars v ++ ',' :: compactMembers rest

end

/-- The text of plain data on one line. -/
def compact (v : Value) : String := String.ofList (compactChars v)

/-- A line break and `depth` steps of indentation. -/
def breakLine (depth : Nat) : List Char := '\n' :: List.replicate (2 * depth) ' '

mutual

/-- One line for every item and member, two spaces deeper than what they belong to. -/
def prettyChars (depth : Nat) : Value → List Char
  | .list [] => ['[', ']']
  | .list items => '[' :: prettyItems (depth + 1) items ++ breakLine depth ++ [']']
  | .object [] => ['\x7b', '\x7d']
  | .object members => '\x7b' :: prettyMembers (depth + 1) members ++ breakLine depth ++ ['\x7d']
  | .null => ['n', 'u', 'l', 'l']
  | .bool true => ['t', 'r', 'u', 'e']
  | .bool false => ['f', 'a', 'l', 's', 'e']
  | .number n => numberText n
  | .text s => quote s

def prettyItems (depth : Nat) : List Value → List Char
  | [] => []
  | [v] => breakLine depth ++ prettyChars depth v
  | v :: rest => breakLine depth ++ prettyChars depth v ++ ',' :: prettyItems depth rest

def prettyMembers (depth : Nat) : List (String × Value) → List Char
  | [] => []
  | [(key, v)] => breakLine depth ++ quote key ++ ':' :: ' ' :: prettyChars depth v
  | (key, v) :: rest =>
    breakLine depth ++ quote key ++ ':' :: ' ' :: prettyChars depth v
      ++ ',' :: prettyMembers depth rest

end

/-- The text of plain data over several lines, without a line break at the end. -/
def pretty (v : Value) : String := String.ofList (prettyChars 0 v)

end BootTree.Json

/-
  The tokens of JSON text.

  A string token that names half of a surrogate pair, and a numeral beyond the doubles, have the
  right form but no value; they are tokens without a value, and an error only where they are read.
-/
import BootTree.Decimal.Reading
import BootTree.Value

namespace BootTree.Json

/-- The smallest parts of JSON text. -/
inductive Token where
  | openList
  | closeList
  | openObject
  | closeObject
  | comma
  | colon
  | text (value : Option String)
  | scalar (value : Option Value)
  deriving Repr

def isSpace (c : Char) : Bool := c = ' ' || c = '\t' || c = '\n' || c = '\r'

/-! ## Strings -/

def hexValue? (c : Char) : Option Nat :=
  if '0' ≤ c ∧ c ≤ '9' then some (c.toNat - '0'.toNat)
  else if 'a' ≤ c ∧ c ≤ 'f' then some (c.toNat - 'a'.toNat + 10)
  else if 'A' ≤ c ∧ c ≤ 'F' then some (c.toNat - 'A'.toNat + 10)
  else none

/-- The number that hexadecimal digits denote; none where one of them is no digit. -/
def hexNumber? (cs : List Char) : Option Nat :=
  cs.foldlM (fun n c => (hexValue? c).map (16 * n + ·)) 0

def isHighSurrogate (n : Nat) : Bool := 0xD800 ≤ n && n < 0xDC00

def isLowSurrogate (n : Nat) : Bool := 0xDC00 ≤ n && n < 0xE000

/-- The character a letter stands for behind a backslash. -/
def escapeLetter? (c : Char) : Option Char :=
  match c with
  | '"' => some '"'
  | '\\' => some '\\'
  | '/' => some '/'
  | 'b' => some '\x08'
  | 'f' => some '\x0c'
  | 'n' => some '\n'
  | 'r' => some '\r'
  | 't' => some '\t'
  | _ => none

/-- A string being read: its characters, last first, the first half of a surrogate pair if one is
pending, and whether all pairs so far were complete. -/
structure Unfinished where
  done : List Char := []
  high : Option Nat := none
  whole : Bool := true

/-- Adds a character that is no half of a pair. -/
def Unfinished.addChar (u : Unfinished) (c : Char) : Unfinished :=
  { done := c :: u.done, high := none, whole := u.whole && u.high.isNone }

/-- Adds a code unit of 16 bits. -/
def Unfinished.addUnit (u : Unfinished) (n : Nat) : Unfinished :=
  match u.high with
  | some high =>
    if isLowSurrogate n then
      { u with
        done := Char.ofNat (0x10000 + (high - 0xD800) * 0x400 + (n - 0xDC00)) :: u.done
        high := none }
    else if isHighSurrogate n then { u with high := some n, whole := false }
    else u.addChar (Char.ofNat n)
  | none =>
    if isHighSurrogate n then { u with high := some n }
    else if isLowSurrogate n then { u with whole := false }
    else u.addChar (Char.ofNat n)

/-- The text read, if all pairs are complete. -/
def Unfinished.text? (u : Unfinished) : Option String :=
  if u.whole && u.high.isNone then some (String.ofList u.done.reverse) else none

/-- Reads a string after its opening quotation mark: its text, and what follows the closing mark. -/
def scanString (u : Unfinished) : List Char → Option (Option String × List Char)
  | '"' :: rest => some (u.text?, rest)
  | '\\' :: 'u' :: a :: b :: c :: d :: rest =>
    match hexNumber? [a, b, c, d] with
    | some n => scanString (u.addUnit n) rest
    | none => none
  | '\\' :: c :: rest =>
    match escapeLetter? c with
    | some e => scanString (u.addChar e) rest
    | none => none
  | c :: rest => if c.toNat < 0x20 then none else scanString (u.addChar c) rest
  | [] => none

/-! ## Numerals -/

/-- The digits in front, and the rest. -/
def spanDigits (cs : List Char) : List Char × List Char :=
  (cs.takeWhile Char.isDigit, cs.dropWhile Char.isDigit)

/-- Reads the digits after a point, if there is one; there must be at least one digit. -/
def scanPlaces : List Char → Option (Option (List Char) × List Char)
  | '.' :: rest =>
    let (digits, rest) := spanDigits rest
    if digits.isEmpty then none else some (some digits, rest)
  | cs => some (none, cs)

/-- Reads the sign of an exponent, if there is one. -/
def scanSign : List Char → Bool × List Char
  | '+' :: rest => (false, rest)
  | '-' :: rest => (true, rest)
  | cs => (false, cs)

/-- Reads an exponent, if there is one. -/
def scanExponent (cs : List Char) : Option (Option Int × List Char) :=
  match cs with
  | [] => some (none, [])
  | c :: rest =>
    if c = 'e' || c = 'E' then
      let (negative, rest) := scanSign rest
      let (digits, rest) := spanDigits rest
      if digits.isEmpty then none
      else
        let n : Int := Decimal.digitsValue 0 digits
        some (some (if negative then -n else n), rest)
    else some (none, cs)

/-- Reads the part of a numeral before the point: zero alone, or digits that do not start with
zero. -/
def scanWhole : List Char → Option (List Char × List Char)
  | '0' :: rest => some (['0'], rest)
  | cs =>
    let (digits, rest) := spanDigits cs
    if digits.isEmpty then none else some (digits, rest)

/-- Reads a numeral. -/
def scanNumeral (cs : List Char) : Option (Decimal.Numeral × List Char) := do
  let (negative, cs) := match cs with
    | '-' :: rest => (true, rest)
    | _ => (false, cs)
  let (whole, cs) ← scanWhole cs
  let (places, cs) ← scanPlaces cs
  let (exponent, cs) ← scanExponent cs
  some (⟨negative, whole, places, exponent⟩, cs)

/-- The number that a numeral denotes: an integer where it is written as one and fits into 64 bits,
with a sign only if negative; otherwise a double. Negative zero is a double. -/
def number? (n : Decimal.Numeral) : Option Number :=
  let m := Decimal.digitsValue 0 n.whole
  if n.places.isNone && n.exponent.isNone && !n.negative && m ≤ Decimal.maxWord then some (.int m)
  else if n.places.isNone && n.exponent.isNone && n.negative && 0 < m && m ≤ Nat.pow 2 63 then
    some (.int (-(m : Int)))
  else n.scaled.map .double

/-! ## Tokens -/

/-- Reads one of the three words. -/
def scanWord (cs : List Char) : Option (Value × List Char) :=
  match cs with
  | 'n' :: 'u' :: 'l' :: 'l' :: rest => some (.null, rest)
  | 't' :: 'r' :: 'u' :: 'e' :: rest => some (.bool true, rest)
  | 'f' :: 'a' :: 'l' :: 's' :: 'e' :: rest => some (.bool false, rest)
  | _ => none

/-- Reads the token that starts with `c`. -/
def scanToken (c : Char) (rest : List Char) : Option (Token × List Char) :=
  match c with
  | '[' => some (.openList, rest)
  | ']' => some (.closeList, rest)
  | '\x7b' => some (.openObject, rest)
  | '\x7d' => some (.closeObject, rest)
  | ',' => some (.comma, rest)
  | ':' => some (.colon, rest)
  | '"' => (scanString {} rest).map fun (s, rest) => (.text s, rest)
  | _ =>
    if c = '-' || c.isDigit then
      (scanNumeral (c :: rest)).map fun (n, rest) => (.scalar ((number? n).map .number), rest)
    else (scanWord (c :: rest)).map fun (v, rest) => (.scalar (some v), rest)

/-- Reads all tokens. Each takes at least one character, so the length of the text is fuel enough.
-/
def scanLoop : Nat → List Char → Option (List Token)
  | _, [] => some []
  | 0, _ :: _ => none
  | fuel + 1, c :: rest =>
    if isSpace c then scanLoop fuel rest
    else do
      let (token, rest) ← scanToken c rest
      let tokens ← scanLoop fuel rest
      some (token :: tokens)

/-- The tokens of a text; none where it has something that is no token. -/
def scan (cs : List Char) : Option (List Token) := scanLoop cs.length cs

end BootTree.Json

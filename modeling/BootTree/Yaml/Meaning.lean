/-
  What scalars of YAML text stand for.

  A plain scalar without a tag is nothing, a truth value or a number if it looks like one, otherwise
  a text. A tag of the core schema decides instead; any other one of the schema makes a text, and a
  tag of the document's own is no plain data.
-/
import BootTree.Decimal.Reading
import BootTree.Json.Token
import BootTree.Source
import BootTree.Yaml.Token

namespace BootTree.Yaml

/-! ## Plain scalars -/

def isNull (s : String) : Bool := ["null", "Null", "NULL", "~"].contains s

def flag? (s : String) : Option Bool :=
  if ["true", "True", "TRUE"].contains s then some true
  else if ["false", "False", "FALSE"].contains s then some false
  else none

/-- Digits with a zero in front, which are a text and no number. -/
def isZeroLed (cs : List Char) : Bool :=
  let digits := match cs with
    | '-' :: rest => rest
    | '+' :: rest => rest
    | _ => cs
  match digits with
  | '0' :: c :: rest => (c :: rest).all Char.isDigit
  | _ => false

/-- The number that digits of a base up to sixteen denote; there must be at least one. -/
def digitsIn? (base : Nat) (cs : List Char) : Option Nat :=
  if cs.isEmpty then none
  else cs.foldlM (fun n c => do
    let d ← Json.hexValue? c
    if d < base then some (base * n + d) else none) 0

/-- A whole number without a sign, in base sixteen, eight, two or ten. -/
def natural? (cs : List Char) : Option Nat :=
  match cs with
  | '0' :: 'x' :: rest => digitsIn? 16 rest
  | '0' :: 'o' :: rest => digitsIn? 8 rest
  | '0' :: 'b' :: rest => digitsIn? 2 rest
  | _ => if isZeroLed cs then none else digitsIn? 10 cs

/-- A whole number with or without a sign. -/
def integer? (cs : List Char) : Option Int :=
  match cs with
  | '-' :: rest => (natural? rest).map fun n => -(n : Int)
  | '+' :: rest => (natural? rest).map fun n => (n : Int)
  | _ => (natural? cs).map fun n => (n : Int)

/-- Reads the exponent of a numeral, which must be all that is left. -/
def exponentEnd (cs : List Char) : Option (Option Int) :=
  match cs with
  | [] => some none
  | c :: rest =>
    if c = 'e' || c = 'E' then
      let (negative, digits) := Json.scanSign rest
      if digits.isEmpty || !digits.all Char.isDigit then none
      else
        let n : Int := Decimal.digitsValue 0 digits
        some (some (if negative then -n else n))
    else none

/-- A numeral with digits before or after a point, or without one, and perhaps an exponent. -/
def numeral? (cs : List Char) : Option Decimal.Numeral := do
  let (negative, cs) := Json.scanSign cs
  let (whole, rest) := Json.spanDigits cs
  let (places, rest) : Option (List Char) × List Char := match rest with
    | '.' :: rest =>
      let (ds, rest) := Json.spanDigits rest
      (some ds, rest)
    | _ => (none, rest)
  if whole.isEmpty && (places.getD []).isEmpty then none
  else some ⟨negative, whole, places, ← exponentEnd rest⟩

/-- A number with a point or exponent as a value; infinities and not-a-number are null. -/
def decimal? (s : String) : Option Value :=
  let cs := s.toList
  let unsigned := match cs with
    | '+' :: rest => rest
    | _ => cs
  if ["+.inf", "+.Inf", "+.INF", ".inf", ".Inf", ".INF", "-.inf", "-.Inf", "-.INF", ".nan", ".NaN",
    ".NAN"].contains s then some .null
  else if cs.head? = some '+' && unsigned.head?.any (fun c => c = '+' || c = '-') then none
  else do
    let d ← (← numeral? unsigned).nearest
    some (.number (.double d))

/-- Whether a whole number fits into 128 bits, with a sign if it is negative. -/
def isLong (n : Int) : Bool := -Nat.pow 2 127 ≤ n && n < Nat.pow 2 128

/-- What a whole number is as plain data: nothing where it is too big for 64 bits. -/
def integerValue? (n : Int) : Option Value :=
  if -Nat.pow 2 63 ≤ n && n < Nat.pow 2 64 then some (.number (.int n)) else none

/-- What a scalar is that looks like something other than a text; there may be no value for it. -/
def special? (s : String) : Option (Option Value) :=
  let cs := s.toList
  if s = "" || isNull s then some (some .null)
  else
    match flag? s with
    | some b => some (some (.bool b))
    | none =>
      match (integer? cs).filter isLong with
      | some n => some (integerValue? n)
      | none => if isZeroLed cs then none else (decimal? s).map some

/-- What a plain scalar without a tag stands for. -/
def plainMeaning (s : String) : Option Value :=
  match special? s with
  | some v => v
  | none => some (.text s)

/-! ## Tags -/

def coreTag (name : String) : String := "tag:yaml.org,2002:" ++ name

/-- Whether a tag is of the document's own. -/
def isLocal (tag : String) : Bool := tag.toList.head? = some '!'

/-- What a scalar stands for as plain data. -/
def meaning (tag : Option String) (style : Style) (s : String) : Option Value :=
  match tag with
  | none => if style = .plain then plainMeaning s else some (.text s)
  | some tag =>
    if isLocal tag then none
    else if tag = coreTag "bool" then (flag? s).map .bool
    else if tag = coreTag "int" then ((integer? s.toList).filter isLong).bind integerValue?
    else if tag = coreTag "float" then decimal? s
    else if tag = coreTag "null" then if isNull s then some .null else none
    else some (.text s)

/-- What a scalar stands for where a text may be missing. -/
def optionalText (tag : Option String) (style : Style) (s : String) : Option (Option String) :=
  if style ≠ .plain then some (some s)
  else
    match tag with
    | none => if s = "" || isNull s then some none else some (some s)
    | some tag =>
      if tag = coreTag "null" then if isNull s then some none else none else some (some s)

/-- What a scalar stands for. -/
def reading (tag : Option String) (style : Style) (s : String) : Reading where
  text := s
  flag :=
    if style = .plain || (style = .literal && tag = some (coreTag "bool")) then flag? s else none
  optional := optionalText tag style s
  empty := style = .plain && s = ""
  meaning := meaning tag style s

end BootTree.Yaml

/-
  Plain data as YAML text: one line for every entry and item, texts without quotation marks where
  they would read back as the same text.
-/
import BootTree.Json.Printer
import BootTree.Yaml.Meaning

namespace BootTree.Yaml

/-! ## Texts -/

/-- The characters that are written as they are, in quotation marks or without. -/
def isPrintable (c : Char) : Bool :=
  let n := c.toNat
  n = 0xA || (0x20 ≤ n && n ≤ 0x7E) || (0xA0 ≤ n && n ≠ 0xFEFF && n ≠ 0xFFFE && n ≠ 0xFFFF)

def upperHex (n : Nat) : Char := if n < 10 then Char.ofNat (48 + n) else Char.ofNat (55 + n)

/-- `width` hexadecimal digits of a number. -/
def hexDigits (n : Nat) : Nat → List Char
  | 0 => []
  | width + 1 => hexDigits (n / 16) width ++ [upperHex (n % 16)]

/-- What stands behind a backslash for a character. -/
def escapeCode (c : Char) : List Char :=
  match c with
  | '\x00' => ['0']
  | '\x07' => ['a']
  | '\x08' => ['b']
  | '\t' => ['t']
  | '\n' => ['n']
  | '\x0b' => ['v']
  | '\x0c' => ['f']
  | '\r' => ['r']
  | '\x1b' => ['e']
  | '"' => ['"']
  | '\\' => ['\\']
  | '\u0085' => ['N']
  | '\u00a0' => ['_']
  | '\u2028' => ['L']
  | '\u2029' => ['P']
  | _ =>
    let n := c.toNat
    if n ≤ 0xFF then 'x' :: hexDigits n 2
    else if n ≤ 0xFFFF then 'u' :: hexDigits n 4
    else 'U' :: hexDigits n 8

def doubleQuoted (cs : List Char) : List Char :=
  let body := cs.flatMap fun c =>
    if !isPrintable c || isBreak c || c = '"' || c = '\\' then '\\' :: escapeCode c else [c]
  '"' :: body ++ ['"']

/-- Spaces up to a column. -/
def indentTo (column : Nat) : List Char := List.replicate column ' '

/-- A text in single quotation marks; behind a break, lines are indented to the column. -/
def singleBody (column : Nat) (broken : Bool) : List Char → List Char
  | [] => if broken then indentTo column else []
  | c :: rest =>
    if isBreak c then c :: singleBody column true rest
    else
      (if broken then indentTo column else []) ++ (if c = '\'' then ['\'', '\''] else [c])
        ++ singleBody column false rest

def singleQuoted (column : Nat) (cs : List Char) : List Char :=
  '\'' :: singleBody column false cs ++ ['\'']

/-- The marks behind the first one of a literal block: an indentation where the text starts with a
space or break, and what becomes of the breaks at its end. -/
def literalHints (cs : List Char) : List Char :=
  let first := if cs.head?.any fun c => c = ' ' || isBreak c then ['2'] else []
  let last := match cs.reverse with
    | a :: b :: _ => if !isBreak a then ['-'] else if isBreak b then ['+'] else []
    | [a] => if isBreak a then ['+'] else ['-']
    | [] => ['-']
  first ++ last

/-- The lines of a literal block; `start` at the start of a line. -/
def literalBody (column : Nat) (start : Bool) : List Char → List Char
  | [] => []
  | c :: rest =>
    if isBreak c then c :: literalBody column true rest
    else (if start then indentTo column else []) ++ c :: literalBody column false rest

def literal (column : Nat) (cs : List Char) : List Char :=
  '|' :: literalHints cs ++ '\n' :: literalBody column true cs

/-! ## Choice of style -/

/-- Whether a text has, next to each other, one character of each class. -/
def hasPair (p q : Char → Bool) : List Char → Bool
  | a :: b :: rest => (p a && q b) || hasPair p q (b :: rest)
  | _ => false

def isSpecial (c : Char) : Bool := !isPrintable c

/-- Whether no style but double quotation marks can hold the text. -/
def needsDouble (cs : List Char) : Bool :=
  cs.any isSpecial || hasPair (· = ' ') isBreak cs

/-- Whether the text can stand in single quotation marks. -/
def allowsSingle (cs : List Char) : Bool := !needsDouble cs && !hasPair isBreak (· = ' ') cs

/-- Whether the text can be a block. -/
def allowsBlock (cs : List Char) : Bool := !needsDouble cs && cs.getLast? ≠ some ' '

/-- Whether the rest of a text, behind its first character, holds something that would end a plain
scalar; `spaced` behind a blank or break. -/
def hasIndicator (spaced : Bool) : List Char → Bool
  | [] => false
  | c :: rest =>
    (c = ':' && rest.head?.all isGap) || (c = '#' && spaced) || hasIndicator (isGap c) rest

/-- Whether the text would start like something other than a plain scalar. -/
def startsIndicator (cs : List Char) : Bool :=
  match cs with
  | [] => false
  | c :: rest =>
    "#,[]\x7b\x7d&*!|>'\"%@`".contains c
      || ((c = '?' || c = ':' || c = '-') && rest.head?.all isGap)
      || "---".toList.isPrefixOf cs || "...".toList.isPrefixOf cs

/-- Whether the text can stand without quotation marks. -/
def allowsPlain (cs : List Char) : Bool :=
  let edge (c : Option Char) := c.any fun c => c = ' ' || isBreak c
  allowsSingle cs && !edge cs.head? && !edge cs.getLast? && !cs.any isBreak
    && !startsIndicator cs
    && !(match cs with
      | [] => false
      | c :: rest => hasIndicator (isGap c) rest)

/-- The form of a text whose further lines are indented to the column. -/
def textForm (column : Nat) (s : String) : List Char :=
  let cs := s.toList
  if cs.contains '\n' then if allowsBlock cs then literal column cs else doubleQuoted cs
  else if (special? s).isNone && !isZeroLed cs && allowsPlain cs then cs
  else if allowsSingle cs then singleQuoted column cs
  else doubleQuoted cs

/-- Whether a text can be a key in front of a colon on one line. -/
def isSimpleKey (s : String) : Bool := !s.toList.any isBreak && s.utf8ByteSize ≤ 128

/-! ## Values -/

/-- Doubles are plain between `0.00001` and `10 ^ 16`; an exponent has no sign unless negative. -/
def layout : Decimal.Layout where
  plain := Decimal.moderate
  exponentSign := []
  infinity := ".inf"
  notANumber := ".nan"

/-- The form of a scalar; of what is empty, its brackets. -/
def scalarForm (column : Nat) : Value → List Char
  | .null => ['n', 'u', 'l', 'l']
  | .bool true => ['t', 'r', 'u', 'e']
  | .bool false => ['f', 'a', 'l', 's', 'e']
  | .number (.int n) => Json.intText n
  | .number (.double d) => (layout.text d).toList
  | .text s => textForm column s
  | .list _ => ['[', ']']
  | .object _ => ['\x7b', '\x7d']

/-- Ends a line that is not ended yet. -/
def endForm (cs : List Char) : List Char :=
  if cs.getLast?.any isBreak then cs else cs ++ ['\n']

/-- Indentation, unless the line is already as long. -/
def lead (inLine : Bool) (indent : Nat) : List Char := if inLine then [] else indentTo indent

mutual

/-- What follows the colon behind a key of a record that starts at the column `indent`. -/
def behindKey (indent : Nat) : Value → List Char
  | .list (v :: rest) => '\n' :: items indent false (v :: rest)
  | .object (m :: rest) => '\n' :: entries (indent + 2) false (m :: rest)
  | v => ' ' :: endForm (scalarForm (indent + 2) v)

/-- What follows a mark of one character at the column `indent`. -/
def behindMark (indent : Nat) : Value → List Char
  | .list (v :: rest) => ' ' :: items (indent + 2) true (v :: rest)
  | .object (m :: rest) => ' ' :: entries (indent + 2) true (m :: rest)
  | v => ' ' :: endForm (scalarForm (indent + 2) v)

/-- The items of a list, the first on the line begun already if `inLine`. -/
def items (indent : Nat) (inLine : Bool) : List Value → List Char
  | [] => []
  | v :: rest => lead inLine indent ++ '-' :: behindMark indent v ++ items indent false rest

/-- The entries of a record, the first on the line begun already if `inLine`. -/
def entries (indent : Nat) (inLine : Bool) : List (String × Value) → List Char
  | [] => []
  | (key, v) :: rest =>
    let form := textForm (indent + 2) key
    lead inLine indent
      ++ (if isSimpleKey key then form ++ ':' :: behindKey indent v
        else '?' :: ' ' :: endForm form ++ indentTo indent ++ ':' :: behindMark indent v)
      ++ entries indent false rest

end

/-- The text of plain data. -/
def print (v : Value) : String :=
  String.ofList
    (match v with
    | .list (v :: rest) => items 0 false (v :: rest)
    | .object (m :: rest) => entries 0 false (m :: rest)
    | v => endForm (scalarForm 2 v))

end BootTree.Yaml

/-
  YAML text as a list of characters that know their place, and the classes of characters that
  decide where tokens begin and end.

  Columns and lines count from zero. All ways to end a line that are not separators of paragraphs
  are one line feed, so no reader looks at more than one character to see the end of a line.
-/

namespace BootTree.Yaml

/-- A character with its line and column. -/
structure Placed where
  char : Char
  line : Nat
  column : Nat
  deriving Repr

abbrev Text := List Placed

/-! ## Classes of characters -/

/-- The characters that a text may hold. -/
def isAllowed (c : Char) : Bool :=
  let n := c.toNat
  n = 0x9 || n = 0xA || n = 0xD || (0x20 ≤ n && n ≤ 0x7E) || n = 0x85
    || (0xA0 ≤ n && n ≤ 0xD7FF) || (0xE000 ≤ n && n ≤ 0xFFFD) || 0x10000 ≤ n

/-- The characters that end a line, line ends made one. -/
def isBreak (c : Char) : Bool := c = '\n' || c = '\u2028' || c = '\u2029'

def isBlank (c : Char) : Bool := c = ' ' || c = '\t'

def isGap (c : Char) : Bool := isBlank c || isBreak c

/-- The characters of names: of anchors, of handles, of directives. -/
def isNameChar (c : Char) : Bool := c.isAlphanum || c = '_' || c = '-'

/-! ## Places -/

/-- Makes every line end a line feed, save those that also separate paragraphs. -/
def uniteBreaks : List Char → List Char
  | '\r' :: '\n' :: rest => '\n' :: uniteBreaks rest
  | c :: rest => (if c = '\r' || c = '\u0085' then '\n' else c) :: uniteBreaks rest
  | [] => []

/-- Gives every character its place, from the place of the first. -/
def placeFrom (line column : Nat) : List Char → Text
  | [] => []
  | c :: rest =>
    ⟨c, line, column⟩
      :: if isBreak c then placeFrom (line + 1) 0 rest else placeFrom line (column + 1) rest

/-- The characters of a text in their places. -/
def place (cs : List Char) : Text := placeFrom 0 0 (uniteBreaks cs)

/-- The column of what comes next; at the end of the text it does not matter. -/
def column : Text → Nat
  | [] => 0
  | p :: _ => p.column

def line : Text → Nat
  | [] => 0
  | p :: _ => p.line

/-- Whether the text goes on with a blank or break, or is at its end. -/
def atGap : Text → Bool
  | [] => true
  | p :: _ => isGap p.char

/-- Whether the text goes on with a certain character. -/
def startsWith (c : Char) : Text → Bool
  | [] => false
  | p :: _ => p.char = c

/-- Whether a line begins here that is three times the character, then a gap. -/
def isThrice (c : Char) : Text → Bool
  | p :: q :: r :: rest =>
    p.column = 0 && p.char = c && q.char = c && r.char = c && atGap rest
  | _ => false

/-- Whether a line begins here that starts or ends a document. -/
def atBoundary (text : Text) : Bool := isThrice '-' text || isThrice '.' text

def dropBlanks (text : Text) : Text := text.dropWhile fun p => isBlank p.char

/-- Passes over the rest of a line, but for the break. -/
def dropLine (text : Text) : Text := text.dropWhile fun p => !isBreak p.char

/-- Passes over blanks, a comment and the break, where nothing else may follow on the line. -/
def endLine (text : Text) : Option Text :=
  let rest := dropBlanks text
  let rest := if startsWith '#' rest then dropLine rest else rest
  match rest with
  | [] => some []
  | p :: rest => if isBreak p.char then some rest else none

/-- The characters of a stretch of text. -/
def chars (text : Text) : List Char := text.map Placed.char

end BootTree.Yaml

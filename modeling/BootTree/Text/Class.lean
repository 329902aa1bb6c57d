/-
  Classes of characters, and the operations on texts that depend on them: blanks and trimming,
  word characters, lower case.

  Every class answers for ASCII by a rule and for everything else by a table, so that a statement
  about an ASCII character never opens a table.
-/
import BootTree.Text.CaseTable
import BootTree.Text.WordTable

namespace BootTree.Text

/-- Whether a code point lies in one of the ranges, both ends included. -/
def inRanges (ranges : List (Nat × Nat)) (c : Char) : Bool :=
  ranges.any fun r => r.1 ≤ c.toNat && c.toNat ≤ r.2

def isAscii (c : Char) : Bool := c.toNat < 128

/-! ## Blanks -/

/-- White space: the ASCII blanks and controls from tab to carriage return, next line, the no-break
space, and the spaces and separators of the general punctuation and CJK blocks. -/
def isBlank (c : Char) : Bool :=
  c = ' ' || inRanges [(0x9, 0xD), (0x85, 0x85), (0xA0, 0xA0), (0x1680, 0x1680), (0x2000, 0x200A),
    (0x2028, 0x2029), (0x202F, 0x202F), (0x205F, 0x205F), (0x3000, 0x3000)] c

/-- Drops the blanks at the end. -/
def trimEnd (cs : List Char) : List Char := (cs.reverse.dropWhile isBlank).reverse

/-- Drops the blanks at both ends. -/
def trim (cs : List Char) : List Char := trimEnd (cs.dropWhile isBlank)

/-! ## Word characters -/

/-- Letters, digits, marks, connectors such as the underscore, and the joiners. -/
def isWord (c : Char) : Bool :=
  if isAscii c then c.isAlphanum || c = '_' else inRanges wordRanges c

/-! ## Lower case -/

/-- The lower-case form of one character, where it does not depend on its neighbours. -/
def lowerChar (c : Char) : List Char :=
  if isAscii c then [c.toLower]
  else if c = 'İ' then ['i', '\u0307']
  else
    match lowercaseRuns.find? fun (first, last, step, _) =>
        first ≤ c.toNat && c.toNat ≤ last && (c.toNat - first) % step = 0 with
    | some (_, _, _, shift) => [Char.ofNat ((c.toNat : Int) + shift).toNat]
    | none => [c]

def isCased (c : Char) : Bool := if isAscii c then c.isAlpha else inRanges casedRanges c

def isCaseIgnorable (c : Char) : Bool :=
  if isAscii c then "'.:^`".contains c else inRanges caseIgnorableRanges c

/-- Whether the first character that counts for case is a cased letter. -/
def meetsCased (cs : List Char) : Bool :=
  match cs.dropWhile isCaseIgnorable with
  | [] => false
  | c :: _ => isCased c

/-- Lower-cases a text of which `before` is already passed, nearest character first. A capital sigma
that ends a word has a form of its own. -/
def lowerFrom (before : List Char) : List Char → List Char
  | [] => []
  | c :: rest =>
    (if c = 'Σ' then [if meetsCased before && !meetsCased rest then 'ς' else 'σ'] else lowerChar c)
      ++ lowerFrom (c :: before) rest

/-- The text in lower case. -/
def lowercase (s : String) : String := String.ofList (lowerFrom [] s.toList)

/-- The text with its ASCII capitals in lower case. -/
def lowerAscii (s : String) : String := s.map Char.toLower

end BootTree.Text

/-
  The tokens of YAML text.

  Indentation is made explicit by tokens that open and close blocks. A key on one line is known as a
  key only when its colon comes, so the place of what may be one is remembered, and the key mark is
  put in there afterwards.
-/
import BootTree.Yaml.Fold
import BootTree.Yaml.Label

namespace BootTree.Yaml

/-- How a scalar is written: plain, as a literal block, or in another way. -/
inductive Style where
  | plain
  | literal
  | other
  deriving DecidableEq, Repr

/-- The smallest parts of YAML text; blocks that only indentation shows have a start and an end. -/
inductive Token where
  | directive (d : Directive)
  | documentStart
  | documentEnd
  | blockList
  | blockRecord
  | blockEnd
  | flowList
  | flowListEnd
  | flowRecord
  | flowRecordEnd
  | item
  | comma
  | key
  | value
  | anchor (name : String)
  | alias (name : String)
  | tag (t : Tag)
  | scalar (style : Style) (text : String)
  deriving Repr

/-- What may turn out to be a key: the number of tokens before it, and where it stands. One that
must be a key stands where its block begins its lines. -/
structure Candidate where
  required : Bool
  before : Nat
  line : Nat
  column : Nat
  deriving Repr

/-- The state between tokens. `indent` is the column of the innermost block, none outside of all;
`outer` are those around it. There is one possible key for each depth of brackets: `candidate` for
the innermost, `outerCandidates` for those around it. -/
structure Scan where
  tokens : Array Token := #[]
  indent : Option Nat := none
  outer : List (Option Nat) := []
  candidate : Option Candidate := none
  outerCandidates : List (Option Candidate) := []
  keyAllowed : Bool := true
  deriving Repr

namespace Scan

/-- Whether the text is inside brackets, where indentation does not count. -/
def inFlow (s : Scan) : Bool := !s.outerCandidates.isEmpty

def push (s : Scan) (t : Token) : Scan := { s with tokens := s.tokens.push t }

/-- Puts a token in behind the first `n`. -/
def insertAt (s : Scan) (n : Nat) (t : Token) : Scan :=
  { s with tokens := s.tokens.insertIdxIfInBounds n t }

/-! ## Indentation -/

/-- Whether a column is to the right of the innermost block. -/
def isDeeper (s : Scan) (column : Nat) : Bool := s.indent.all (· < column)

/-- Opens a block at a column, if that is deeper than the innermost one. -/
def openBlock (s : Scan) (column before : Nat) (t : Token) : Scan :=
  if s.inFlow || !s.isDeeper column then s
  else { s with indent := some column, outer := s.indent :: s.outer }.insertAt before t

/-- Closes the blocks for which `leaves` says so, given their columns; the second argument are those
that may be closed. -/
def closeBlocksFrom (leaves : Nat → Bool) (s : Scan) : List (Option Nat) → Scan
  | [] => s
  | next :: rest =>
    if s.indent.any leaves then
      closeBlocksFrom leaves { s.push .blockEnd with indent := next, outer := rest } rest
    else s

/-- Closes the blocks to the right of a column. -/
def closeBlocks (s : Scan) (column : Nat) : Scan :=
  if s.inFlow then s else closeBlocksFrom (column < ·) s s.outer

/-- Closes all blocks. -/
def closeAllBlocks (s : Scan) : Scan :=
  if s.inFlow then s else closeBlocksFrom (fun _ => true) s s.outer

/-! ## Possible keys -/

/-- Drops a possible key that lies on an earlier line or too far back; an error if it must be one.
-/
def refresh (line column : Nat) (c : Option Candidate) : Option (Option Candidate) :=
  match c with
  | none => some none
  | some c =>
    if c.line < line || c.column + 1024 < column then
      if c.required then none else some none
    else some (some c)

/-- Drops the possible keys that no longer are. -/
def refreshAll (s : Scan) (line column : Nat) : Option Scan := do
  let candidate ← refresh line column s.candidate
  let outerCandidates ← s.outerCandidates.mapM (refresh line column)
  some { s with candidate, outerCandidates }

/-- Gives up the innermost possible key; an error if it must be one. -/
def dropCandidate (s : Scan) : Option Scan :=
  if s.candidate.any Candidate.required then none else some { s with candidate := none }

/-- Notes that a key may begin here. -/
def noteCandidate (s : Scan) (text : Text) : Option Scan :=
  if s.keyAllowed then do
    let s ← s.dropCandidate
    some { s with
      candidate := some
        { required := !s.inFlow && s.indent = some (column text), before := s.tokens.size
          line := line text, column := column text } }
  else some s

/-! ## Tokens one by one -/

/-- Passes over blanks, comments and breaks. Tabs count as blanks where no key may begin. -/
def skipGap (s : Scan) (comment : Bool) : Text → Scan × Text
  | [] => (s, [])
  | p :: rest =>
    if isBreak p.char then
      skipGap (if s.inFlow then s else { s with keyAllowed := true }) false rest
    else if comment then skipGap s true rest
    else if p.char = ' ' || (p.char = '\t' && (s.inFlow || !s.keyAllowed))
        || (p.char = '\ufeff' && p.column = 0) then skipGap s false rest
    else if p.char = '#' then skipGap s true rest
    else (s, p :: rest)

/-- Reads a directive after its mark. -/
def readDirective (s : Scan) (rest : Text) : Option (Scan × Text) := do
  let s ← s.closeAllBlocks.dropCandidate
  let (d, rest) ← directive rest
  some ({ s with keyAllowed := false }.push (.directive d), rest)

/-- Reads a line that starts or ends a document. -/
def readBoundary (s : Scan) (t : Token) (text : Text) : Option (Scan × Text) := do
  let s ← s.closeAllBlocks.dropCandidate
  some ({ s with keyAllowed := false }.push t, text.drop 3)

/-- Opens a pair of brackets. -/
def openFlow (s : Scan) (t : Token) (text : Text) : Option (Scan × Text) := do
  let s ← s.noteCandidate text
  some ({ s with
    candidate := none, outerCandidates := s.candidate :: s.outerCandidates
    keyAllowed := true }.push t, text.drop 1)

/-- Closes a pair of brackets. -/
def closeFlow (s : Scan) (t : Token) (rest : Text) : Option (Scan × Text) := do
  let s ← s.dropCandidate
  let s := match s.outerCandidates with
    | c :: outer => { s with candidate := c, outerCandidates := outer }
    | [] => s
  some ({ s with keyAllowed := false }.push t, rest)

def readComma (s : Scan) (rest : Text) : Option (Scan × Text) := do
  let s ← s.dropCandidate
  some ({ s with keyAllowed := true }.push .comma, rest)

/-- Opens a block for a mark that stands where a line of it may begin. -/
def openForMark (s : Scan) (t : Token) (text : Text) : Option Scan :=
  if s.inFlow then some s
  else if s.keyAllowed then some (s.openBlock (column text) s.tokens.size t)
  else none

def readItem (s : Scan) (text : Text) : Option (Scan × Text) := do
  let s ← s.openForMark .blockList text
  let s ← s.dropCandidate
  some ({ s with keyAllowed := true }.push .item, text.drop 1)

def readKey (s : Scan) (text : Text) : Option (Scan × Text) := do
  let s ← s.openForMark .blockRecord text
  let s ← s.dropCandidate
  some ({ s with keyAllowed := !s.inFlow }.push .key, text.drop 1)

/-- Reads a colon: behind a possible key it makes it one, otherwise it goes with a marked key. -/
def readValue (s : Scan) (text : Text) : Option (Scan × Text) := do
  let s ← match s.candidate with
    | some c =>
      let s := s.insertAt c.before .key
      let s := s.openBlock c.column c.before .blockRecord
      some { s with candidate := none, keyAllowed := false }
    | none =>
      let s ← s.openForMark .blockRecord text
      some { s with keyAllowed := !s.inFlow }
  some (s.push .value, text.drop 1)

/-- Reads an anchor or alias after its mark. -/
def readAnchor (s : Scan) (t : String → Token) (text : Text) : Option (Scan × Text) := do
  let s ← s.noteCandidate text
  let (n, rest) ← anchorName (text.drop 1)
  some ({ s with keyAllowed := false }.push (t n), rest)

def readTag (s : Scan) (text : Text) : Option (Scan × Text) := do
  let s ← s.noteCandidate text
  let (t, rest) ← tag s.inFlow text
  some ({ s with keyAllowed := false }.push (.tag t), rest)

def readBlock (s : Scan) (folded : Bool) (rest : Text) : Option (Scan × Text) := do
  let s ← s.dropCandidate
  let (cs, rest) ← block folded s.indent rest
  let style := if folded then Style.other else Style.literal
  some ({ s with keyAllowed := true }.push (.scalar style (String.ofList cs)), rest)

def readQuoted (s : Scan) (mark : Char) (text : Text) : Option (Scan × Text) := do
  let s ← s.noteCandidate text
  let (cs, rest) ← quoted mark (text.drop 1)
  some ({ s with keyAllowed := false }.push (.scalar .other (String.ofList cs)), rest)

def readPlain (s : Scan) (text : Text) : Option (Scan × Text) := do
  let s ← s.noteCandidate text
  let least := match s.indent with
    | some n => n + 1
    | none => 0
  let (cs, broken, rest) ← plain s.inFlow least text
  some ({ s with keyAllowed := broken }.push (.scalar .plain (String.ofList cs)), rest)

/-- Whether a plain scalar can start with `c`, given what follows. -/
def startsPlain (inFlow : Bool) (c : Char) (rest : Text) : Bool :=
  if c = '-' then !(rest.head?.any fun p => isBlank p.char)
  else if c = '?' || c = ':' then !inFlow && !atGap rest
  else !(isGap c || ",[]\x7b\x7d#&*!|>'\"%@`".contains c)

/-- Reads the token that starts with `c`, the first character of the text. -/
def readToken (s : Scan) (c : Char) (text rest : Text) : Option (Scan × Text) :=
  if c = '%' && column text = 0 then s.readDirective rest
  else if isThrice '-' text then s.readBoundary .documentStart text
  else if isThrice '.' text then s.readBoundary .documentEnd text
  else if c = '[' then s.openFlow .flowList text
  else if c = '\x7b' then s.openFlow .flowRecord text
  else if c = ']' then s.closeFlow .flowListEnd rest
  else if c = '\x7d' then s.closeFlow .flowRecordEnd rest
  else if c = ',' then s.readComma rest
  else if c = '-' && atGap rest then s.readItem text
  else if c = '?' && (s.inFlow || atGap rest) then s.readKey text
  else if c = ':' && (s.inFlow || atGap rest) then s.readValue text
  else if c = '*' then s.readAnchor .alias text
  else if c = '&' then s.readAnchor .anchor text
  else if c = '!' then s.readTag text
  else if c = '|' && !s.inFlow then s.readBlock false rest
  else if c = '>' && !s.inFlow then s.readBlock true rest
  else if c = '\'' || c = '"' then s.readQuoted c text
  else if startsPlain s.inFlow c rest then s.readPlain text
  else none

/-- Reads all tokens; each takes at least one character. -/
def run : Nat → Scan → Text → Option Scan
  | 0, _, _ => none
  | fuel + 1, s, text =>
    match s.skipGap false text with
    | (s, []) => s.closeAllBlocks.dropCandidate
    | (s, p :: rest) => do
      let s ← s.refreshAll p.line p.column
      let (s, rest) ← (s.closeBlocks p.column).readToken p.char (p :: rest) rest
      run fuel s rest

end Scan

/-- The tokens of a text; none where it has something that is no token. -/
def scan (cs : List Char) : Option (List Token) := do
  if !cs.all isAllowed then none
  let text := place cs
  let s ← Scan.run (text.length + 1) {} text
  some s.tokens.toList

end BootTree.Yaml

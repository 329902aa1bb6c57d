/-
  The texts of scalars: plain, in single or double quotation marks, and in blocks.

  Between the runs of a scalar lie gaps. A gap on one line is kept as it is; a gap with breaks is
  folded: one break becomes a space, and of more breaks the first is dropped.
-/
import BootTree.Json.Token
import BootTree.Yaml.Place

namespace BootTree.Yaml

/-! ## Gaps -/

/-- A gap inside a scalar, lists last first: the blanks before the first break, and the breaks. The
first break may be missing although the line has ended, where a backslash hides it. -/
structure Gap where
  blanks : List Char := []
  broken : Bool := false
  first : Option Char := none
  further : List Char := []
  deriving Repr

/-- What is left of a break and of those after it. -/
def foldBreaks (first : Option Char) (further : List Char) : List Char :=
  if first = some '\n' then (if further.isEmpty then [' '] else further)
  else first.toList ++ further

/-- The text of a gap. -/
def Gap.text (g : Gap) : List Char :=
  if g.broken then foldBreaks g.first g.further.reverse else g.blanks.reverse

/-- Reads on over a gap. Behind a break, no tab may stand to the left of the column `indent`. -/
def readGap (indent : Nat) (g : Gap) : Text → Option (Gap × Text)
  | [] => some (g, [])
  | p :: rest =>
    if isBreak p.char then
      if g.broken then readGap indent { g with further := p.char :: g.further } rest
      else readGap indent { broken := true, first := some p.char } rest
    else if isBlank p.char then
      if !g.broken then readGap indent { g with blanks := p.char :: g.blanks } rest
      else if p.char = '\t' && p.column < indent then none
      else readGap indent g rest
    else some (g, p :: rest)

/-! ## Plain scalars -/

def isFlowMark (c : Char) : Bool := ",[]\x7b\x7d".contains c

/-- Reads a run of a plain scalar. A colon ends it before a gap; inside brackets, brackets and
commas end it, and a colon before one of them or a question mark is an error. -/
def plainRun (inFlow : Bool) : Text → Option (List Char × Text)
  | [] => some ([], [])
  | p :: rest =>
    let next := rest.head?.map Placed.char
    if isGap p.char then some ([], p :: rest)
    else if inFlow && p.char = ':' && next.any (fun c => isFlowMark c || c = '?') then none
    else if (p.char = ':' && atGap rest) || (inFlow && isFlowMark p.char) then some ([], p :: rest)
    else do
      let (cs, rest) ← plainRun inFlow rest
      some (p.char :: cs, rest)

/-- Reads on in a plain scalar: `done` is its text so far, last character first, `gap` the gap
before what comes next. Gives the text, and whether a line has ended behind it. Every run takes at
least one character. -/
def plainFrom (inFlow : Bool) (indent : Nat) :
    Nat → List Char → Gap → Text → Option (List Char × Bool × Text)
  | 0, _, _, _ => none
  | fuel + 1, done, gap, text =>
    if atBoundary text || startsWith '#' text then some (done.reverse, gap.broken, text)
    else do
      let (run, rest) ← plainRun inFlow text
      let (done, gap) : List Char × Gap :=
        if run.isEmpty then (done, gap) else (run.reverse ++ gap.text.reverse ++ done, {})
      if rest.isEmpty || !atGap rest then some (done.reverse, gap.broken, rest)
      else
        let (gap, rest) ← readGap indent gap rest
        if !inFlow && column rest < indent then some (done.reverse, gap.broken, rest)
        else plainFrom inFlow indent fuel done gap rest

/-- Reads a plain scalar whose further lines are indented at least to the column `indent`. -/
def plain (inFlow : Bool) (indent : Nat) (text : Text) : Option (List Char × Bool × Text) :=
  plainFrom inFlow indent (text.length + 1) [] {} text

/-! ## Quoted scalars -/

/-- Reads a run in single quotation marks; a mark written twice is one of the text. -/
def singleRun : Text → List Char × Text
  | [] => ([], [])
  | [p] => if isGap p.char || p.char = '\'' then ([], [p]) else ([p.char], [])
  | p :: q :: rest =>
    if isGap p.char then ([], p :: q :: rest)
    else if p.char = '\'' then
      if q.char = '\'' then
        let (cs, rest) := singleRun rest
        ('\'' :: cs, rest)
      else ([], p :: q :: rest)
    else
      let (cs, rest) := singleRun (q :: rest)
      (p.char :: cs, rest)

/-- The character a letter stands for behind a backslash. -/
def escapeLetter? (c : Char) : Option Char :=
  match c with
  | '0' => some '\x00'
  | 'a' => some '\x07'
  | 'b' => some '\x08'
  | 't' => some '\t'
  | '\t' => some '\t'
  | 'n' => some '\n'
  | 'v' => some '\x0b'
  | 'f' => some '\x0c'
  | 'r' => some '\r'
  | 'e' => some '\x1b'
  | ' ' => some ' '
  | '"' => some '"'
  | '/' => some '/'
  | '\\' => some '\\'
  | 'N' => some '\u0085'
  | '_' => some '\u00a0'
  | 'L' => some '\u2028'
  | 'P' => some '\u2029'
  | _ => none

/-- The number of hexadecimal digits that a letter asks for behind a backslash. -/
def escapeWidth? (c : Char) : Option Nat :=
  match c with
  | 'x' => some 2
  | 'u' => some 4
  | 'U' => some 8
  | _ => none

/-- The character with a code point; surrogates have none. -/
def codePoint? (n : Nat) : Option Char :=
  if h : n.isValidChar then some (Char.ofNatAux n h) else none

/-- Reads what stands behind a backslash. -/
def escape : Text → Option (Char × Text)
  | [] => none
  | p :: rest =>
    match escapeWidth? p.char with
    | none => (escapeLetter? p.char).map (·, rest)
    | some width => do
      let digits := chars (rest.take width)
      if digits.length < width then none
      else some (← codePoint? (← Json.hexNumber? digits), rest.drop width)

/-- Reads a run in double quotation marks; a backslash at the end of a line ends the run and hides
the break. -/
def doubleRun : Nat → List Char → Text → Option (List Char × Bool × Text)
  | 0, _, _ => none
  | fuel + 1, done, text =>
    match text with
    | [] => some (done.reverse, false, [])
    | p :: rest =>
      if isGap p.char || p.char = '"' then some (done.reverse, false, text)
      else if p.char = '\\' then
        match rest with
        | q :: rest' =>
          if isBreak q.char then some (done.reverse, true, rest')
          else do
            let (c, rest) ← escape rest
            doubleRun fuel (c :: done) rest
        | [] => none
      else doubleRun fuel (p.char :: done) rest

/-- Reads a run of a quoted scalar. -/
def quotedRun (mark : Char) (text : Text) : Option (List Char × Bool × Text) :=
  if mark = '"' then doubleRun (text.length + 1) [] text
  else
    let (cs, rest) := singleRun text
    some (cs, false, rest)

/-- Reads on in a quoted scalar up to its closing mark; `done` is its text so far, last character
first. -/
def quotedFrom (mark : Char) : Nat → List Char → Text → Option (List Char × Text)
  | 0, _, _ => none
  | fuel + 1, done, text =>
    if atBoundary text || text.isEmpty then none
    else do
      let (run, hidden, rest) ← quotedRun mark text
      let done := run.reverse ++ done
      if startsWith mark rest then some (done.reverse, rest.drop 1)
      else
        let (gap, rest) ← readGap 0 { broken := hidden } rest
        quotedFrom mark fuel (gap.text.reverse ++ done) rest

/-- Reads a quoted scalar after its opening mark. -/
def quoted (mark : Char) (text : Text) : Option (List Char × Text) :=
  quotedFrom mark (text.length + 1) [] text

/-! ## Block scalars -/

/-- What becomes of the breaks at the end of a block: of all, of all but the last, or of none. -/
inductive Chomp where
  | clip
  | strip
  | keep
  deriving DecidableEq, Repr

def chomp? (c : Char) : Option Chomp :=
  if c = '+' then some .keep else if c = '-' then some .strip else none

/-- The indentation that a digit asks for; it must not be zero. -/
def indentDigit (text : Text) : Option (Option Nat × Text) :=
  match text with
  | p :: rest =>
    if p.char = '0' then none
    else if p.char.isDigit then some (some (p.char.toNat - '0'.toNat), rest)
    else some (none, text)
  | [] => some (none, [])

def chompMark (text : Text) : Option Chomp × Text :=
  match text with
  | p :: rest =>
    match chomp? p.char with
    | some c => (some c, rest)
    | none => (none, text)
  | [] => (none, [])

/-- Reads the marks behind the first one of a block, in either order, and the rest of their line. -/
def blockHead (text : Text) : Option (Chomp × Option Nat × Text) := do
  let (chomp, rest) := chompMark text
  let (digit, rest) ← indentDigit rest
  let (chomp, rest) := if chomp.isSome then (chomp, rest) else chompMark rest
  some (chomp.getD .clip, digit, ← endLine rest)

/-- Reads the breaks in front of a line of a block, and its indentation, which is the column `limit`
at most; without a limit all spaces are indentation. Gives the breaks, last first, and the widest
indentation seen. -/
def blockGap (limit : Option Nat) (breaks : List Char) (widest : Nat) :
    Text → Option (List Char × Nat × Text)
  | [] => some (breaks, widest, [])
  | p :: rest =>
    let inside := limit.all (p.column < ·)
    if inside && p.char = ' ' then blockGap limit breaks widest rest
    else
      let widest := max widest p.column
      if inside && p.char = '\t' then none
      else if isBreak p.char then blockGap limit (p.char :: breaks) widest rest
      else some (breaks, widest, p :: rest)

/-- Reads on in a block indented to the column `indent`: `done` is its text so far, last character
first, `first` the break behind the last line and `further` those after it, `blank` whether that
line started with a blank. -/
def blockFrom (folded : Bool) (chomp : Chomp) (indent : Nat) :
    Nat → List Char → Option Char → List Char → Bool → Text → Option (List Char × Text)
  | 0, _, _, _, _, _ => none
  | fuel + 1, done, first, further, blank, text =>
    match text with
    | p :: _ =>
      if p.column = indent then do
        let startsBlank := isBlank p.char
        let between :=
          if folded && first = some '\n' && !blank && !startsBlank then foldBreaks first further
          else first.toList ++ further
        let run := text.takeWhile fun p => !isBreak p.char
        let rest := dropLine text
        let done := (chars run).reverse ++ between.reverse ++ done
        let (further, _, rest') ← blockGap (some indent) [] 0 (rest.drop 1)
        blockFrom folded chomp indent fuel done (rest.head?.map Placed.char) further.reverse
          startsBlank rest'
      else some (blockEnd done first further, text)
    | [] => some (blockEnd done first further, [])
where
  /-- Ends the text with the breaks that are kept. -/
  blockEnd (done : List Char) (first : Option Char) (further : List Char) : List Char :=
    match chomp with
    | .strip => done.reverse
    | .clip => done.reverse ++ first.toList
    | .keep => done.reverse ++ first.toList ++ further

/-- Reads a block behind its first mark; `indent` is the column of what the block belongs to, none
outside of everything. -/
def block (folded : Bool) (indent : Option Nat) (text : Text) : Option (List Char × Text) := do
  let (chomp, digit, rest) ← blockHead text
  let limit := digit.map (indent.getD 0 + ·)
  let (breaks, widest, rest) ← blockGap limit [] 0 rest
  let least := match indent with
    | some n => n + 1
    | none => 1
  let column := limit.getD (max widest least)
  blockFrom folded chomp column (rest.length + 1) [] none breaks.reverse false rest

end BootTree.Yaml

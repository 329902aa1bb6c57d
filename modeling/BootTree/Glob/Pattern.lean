/-
  Shell-style patterns: `?` is any character, `*` any run of characters, `**` any run of whole path
  components, `[a-z]` and `[!a-z]` one character inside or outside a set.

  Matching is plain backtracking over the tokens of the pattern. A slash has no special rôle except
  for `**`.
-/

namespace BootTree.Glob

/-- A part of a set: one character or all between two. -/
inductive Specifier where
  | single (c : Char)
  | range (first last : Char)
  deriving DecidableEq, Repr

/-- A part of a pattern. -/
inductive Token where
  | char (c : Char)
  | anyChar
  | anySequence
  | anyComponents
  | within (set : List Specifier)
  | except (set : List Specifier)
  deriving DecidableEq, Repr

/-- Why a text is no pattern. -/
inductive Fault where
  | wildcards
  | recursiveWildcards
  | range
  deriving DecidableEq, Repr

def Fault.text : Fault → String
  | .wildcards => "wildcards are either regular `*` or recursive `**`"
  | .recursiveWildcards => "recursive wildcards must form a single path component"
  | .range => "invalid range pattern"

/-- A fault and the number of characters before it. -/
structure PatternError where
  position : Nat
  fault : Fault
  deriving DecidableEq, Repr

def PatternError.message (e : PatternError) : String :=
  s!"Pattern syntax error near position {e.position}: {e.fault.text}"

/-! ## Reading a pattern -/

/-- Reads the inside of a set. -/
def specifiers : List Char → List Specifier
  | a :: '-' :: b :: rest => .range a b :: specifiers rest
  | c :: rest => .single c :: specifiers rest
  | [] => []

/-- Reads a set after its opening bracket: a set has at least one character, so a closing bracket in
front belongs to it. -/
def readSet (cs : List Char) : Option (Token × List Char) :=
  let close (make : List Specifier → Token) (first : Char) (rest : List Char) :=
    match rest.dropWhile (· ≠ ']') with
    | [] => none
    | _ :: after => some (make (specifiers (first :: rest.takeWhile (· ≠ ']'))), after)
  match cs with
  | '!' :: first :: rest => close .except first rest
  | '!' :: [] => none
  | first :: rest => close .within first rest
  | [] => none

/-- The tokens in front of which another `**` adds nothing. -/
def endsInComponents (done : List Token) : Bool :=
  match done with
  | .anyComponents :: _ :: _ => true
  | _ => false

/-- Reads the tokens of a pattern. `done` holds the tokens so far, last first, and `position` and
`before` the number of characters passed and the last of them. Every round takes at least one
character, so the length of the text is fuel enough. -/
def readLoop : Nat → List Token → Nat → Option Char → List Char → Except PatternError (List Token)
  | _, done, _, _, [] => .ok done.reverse
  | 0, done, _, _, _ :: _ => .ok done.reverse
  | fuel + 1, done, position, before, c :: rest =>
    if c = '?' then readLoop fuel (.anyChar :: done) (position + 1) (some c) rest
    else if c = '*' then
      let stars := 1 + (rest.takeWhile (· = '*')).length
      let after := rest.dropWhile (· = '*')
      if stars > 2 then .error ⟨position + 2, .wildcards⟩
      else if stars = 1 then readLoop fuel (.anySequence :: done) (position + 1) (some c) after
      else if before = none ∨ before = some '/' then
        let next := if endsInComponents done then done else .anyComponents :: done
        match after with
        | [] => readLoop fuel next (position + 2) (some '*') []
        | '/' :: after => readLoop fuel next (position + 3) (some '/') after
        | _ => .error ⟨position + 2, .recursiveWildcards⟩
      else .error ⟨position - 1, .recursiveWildcards⟩
    else if c = '[' then
      match readSet rest with
      | none => .error ⟨position, .range⟩
      | some (token, after) =>
        readLoop fuel (token :: done) (position + 1 + (rest.length - after.length)) (some ']') after
    else readLoop fuel (.char c :: done) (position + 1) (some c) rest

/-- The tokens of a pattern. -/
def read (pattern : String) : Except PatternError (List Token) :=
  readLoop pattern.length [] 0 none pattern.toList

/-! ## Matching -/

def Specifier.holds (c : Char) : Specifier → Bool
  | .single x => c = x
  | .range first last => first ≤ c && c ≤ last

/-- Whether a token that stands for one character stands for `c`. -/
def Token.accepts (c : Char) : Token → Bool
  | .char x => c = x
  | .anyChar => true
  | .within set => set.any (Specifier.holds c)
  | .except set => !set.any (Specifier.holds c)
  | .anySequence | .anyComponents => false

/-- Whether `rest` matches some end of the text, the whole text included. -/
def anyEnd (rest : List Char → Bool) : List Char → Bool
  | [] => rest []
  | c :: cs => rest (c :: cs) || anyEnd rest cs

/-- Whether `rest` matches what follows one of the slashes of the text, or its end. -/
def anyAfterSlash (rest : List Char → Bool) : List Char → Bool
  | [] => rest []
  | c :: cs => (c = '/' && rest cs) || anyAfterSlash rest cs

/-- Whether the tokens match the whole text. -/
def matchTokens : List Token → List Char → Bool
  | [], cs => cs.isEmpty
  | .anySequence :: tokens, cs => anyEnd (matchTokens tokens) cs
  | .anyComponents :: tokens, cs => matchTokens tokens cs || anyAfterSlash (matchTokens tokens) cs
  | token :: tokens, cs =>
    match cs with
    | [] => false
    | c :: cs => token.accepts c && matchTokens tokens cs

/-- Whether a name matches a pattern; what is no pattern matches itself alone. -/
def matchesName (pattern name : String) : Bool :=
  match read pattern with
  | .ok tokens => matchTokens tokens name.toList
  | .error _ => pattern = name

/-- The characters that a pattern gives a meaning to. -/
def isMeta (c : Char) : Bool := c = '?' || c = '*' || c = '[' || c = ']'

/-- Whether a text has a character with a meaning in patterns. -/
def isPattern (s : String) : Bool := s.toList.any isMeta

end BootTree.Glob

/-
  What stands in front of nodes and documents: anchors and aliases, tags, directives.
-/
import BootTree.Json.Token
import BootTree.Yaml.Place

namespace BootTree.Yaml

/-- Reads a name, which may be empty. -/
def name (text : Text) : String × Text :=
  (String.ofList (chars (text.takeWhile fun p => isNameChar p.char)),
    text.dropWhile fun p => isNameChar p.char)

/-- Reads the name of an anchor or alias after its mark. -/
def anchorName (text : Text) : Option (String × Text) :=
  let (s, rest) := name text
  let ends := atGap rest || rest.head?.any fun p => "?:,]\x7d%@`".contains p.char
  if s = "" || !ends then none else some (s, rest)

/-! ## Tags -/

/-- A tag as it is written: a handle, and what follows it. -/
structure Tag where
  handle : String
  suffix : String
  deriving Repr

/-- The characters of the text behind a handle; inside angle brackets and in directives, commas and
square brackets too. -/
def isTagChar (wide : Bool) (c : Char) : Bool :=
  isNameChar c || ";/?:@&=+$.%!~*'()".contains c || (wide && ",[]".contains c)

/-- Reads one byte written as a percent sign and two hexadecimal digits. -/
def percentByte : List Char → Option (UInt8 × List Char)
  | '%' :: a :: b :: rest => (Json.hexNumber? [a, b]).map fun n => (n.toUInt8, rest)
  | _ => none

/-- The number of bytes of a character, by the first. -/
def byteCount (first : UInt8) : Nat :=
  if first < 0x80 then 1
  else if first &&& 0xE0 = 0xC0 then 2
  else if first &&& 0xF0 = 0xE0 then 3
  else if first &&& 0xF8 = 0xF0 then 4
  else 0

/-- Reads bytes that continue a character. -/
def furtherBytes : Nat → List Char → Option (List UInt8 × List Char)
  | 0, cs => some ([], cs)
  | n + 1, cs => do
    let (b, cs) ← percentByte cs
    if b &&& 0xC0 = 0x80 then
      let (bs, cs) ← furtherBytes n cs
      some (b :: bs, cs)
    else none

/-- The text of a tag, its percent signs resolved; `fuel` is the number of characters. -/
def unescapeTag : Nat → List Char → Option (List Char)
  | _, [] => some []
  | 0, _ :: _ => none
  | fuel + 1, c :: rest =>
    if c = '%' then do
      let (b, cs) ← percentByte (c :: rest)
      let count := byteCount b
      if count = 0 then none
      else
        let (bs, cs) ← furtherBytes (count - 1) cs
        let s := (String.fromUTF8? ⟨(b :: bs).toArray⟩).getD "\ufffd"
        some (s.toList ++ (← unescapeTag fuel cs))
    else do
      some (c :: (← unescapeTag fuel rest))

/-- Reads the text of a tag, which goes on from `before`; the two together must not be empty. -/
def tagText (wide : Bool) (before : String) (text : Text) : Option (String × Text) := do
  let raw := chars (text.takeWhile fun p => isTagChar wide p.char)
  if before = "" && raw.isEmpty then none
  else
    let cs ← unescapeTag raw.length raw
    some (before ++ String.ofList cs, text.dropWhile fun p => isTagChar wide p.char)

/-- Reads a handle: an exclamation mark, and a name with another one behind it or no such thing. -/
def handle (text : Text) : Option (String × Text) :=
  match text with
  | p :: rest =>
    if p.char = '!' then
      let (s, rest) := name rest
      if startsWith '!' rest then some ("!" ++ s ++ "!", rest.drop 1) else some ("!" ++ s, rest)
    else none
  | [] => none

/-- Reads a tag from its exclamation mark on. -/
def tag (inFlow : Bool) (text : Text) : Option (Tag × Text) := do
  let (t, rest) ← if startsWith '<' (text.drop 1) then do
      let (s, rest) ← tagText true "" (text.drop 2)
      if startsWith '>' rest then some (⟨"", s⟩, rest.drop 1) else none
    else do
      let (h, rest) ← handle text
      if h.length > 1 && h.back = '!' then
        let (s, rest) ← tagText false "" rest
        some (⟨h, s⟩, rest)
      else
        -- no handle after all: its characters belong to the text
        let (s, rest') ← if h = "!" && !(rest.head?.any fun p => isTagChar false p.char) then
            some ("", rest)
          else tagText false (h.drop 1).toString rest
        some (if s = "" then ⟨"", "!"⟩ else ⟨"!", s⟩, rest')
  if atGap rest || (inFlow && startsWith ',' rest) then some (t, rest) else none

/-! ## Directives -/

inductive Directive where
  | version (major minor : Nat)
  | tagHandle (handle leader : String)
  deriving Repr

/-- Reads a number of at most nine digits. -/
def versionNumber (text : Text) : Option (Nat × Text) :=
  let digits := chars (text.takeWhile fun p => p.char.isDigit)
  if digits.isEmpty || digits.length > 9 then none
  else some (digits.foldl (fun n c => 10 * n + (c.toNat - '0'.toNat)) 0,
    text.dropWhile fun p => p.char.isDigit)

/-- Reads a handle of a directive; a name in it needs its second exclamation mark. -/
def declaredHandle (text : Text) : Option (String × Text) := do
  let (h, rest) ← handle text
  if h = "!" || (h.length > 1 && h.back = '!') then some (h, rest) else none

/-- Reads a directive after its percent sign, with the rest of its line. -/
def directive (text : Text) : Option (Directive × Text) := do
  let (s, rest) := name text
  if s = "" || !atGap rest then none
  let rest := dropBlanks rest
  if s = "YAML" then
    let (major, rest) ← versionNumber rest
    if !startsWith '.' rest then none
    let (minor, rest) ← versionNumber (rest.drop 1)
    some (.version major minor, ← endLine rest)
  else if s = "TAG" then
    let (h, rest) ← declaredHandle rest
    if !(rest.head?.any fun p => isBlank p.char) then none
    let (leader, rest) ← tagText true "" (dropBlanks rest)
    if !atGap rest then none
    some (.tagHandle h leader, ← endLine rest)
  else none

end BootTree.Yaml

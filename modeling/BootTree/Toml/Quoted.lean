/-
  Strings and keys of TOML text: basic and literal strings, on one line or over several.

  A reader takes what follows the opening marks and gives the text with what follows the closing
  marks.
-/
import BootTree.Json.Token

namespace BootTree.Toml

def isSpace (c : Char) : Bool := c = ' ' || c = '\t'

/-- The characters that text and comments may hold as they are: all but the controls, except the
tab. -/
def isPlain (c : Char) : Bool := c = '\t' || (0x20 ≤ c.toNat && c.toNat ≠ 0x7F)

/-- Takes a line break off the front. -/
def lineBreak? : List Char → Option (List Char)
  | '\n' :: rest => some rest
  | '\r' :: '\n' :: rest => some rest
  | _ => none

/-- The character with a code point; surrogates have none. -/
def scalar? (n : Nat) : Option Char :=
  if h : n.isValidChar then some (Char.ofNatAux n h) else none

/-- The character a letter stands for behind a backslash. -/
def escapeLetter? (c : Char) : Option Char :=
  match c with
  | '"' => some '"'
  | '\\' => some '\\'
  | 'b' => some '\x08'
  | 'f' => some '\x0c'
  | 'n' => some '\n'
  | 'r' => some '\r'
  | 't' => some '\t'
  | _ => none

/-- Reads a basic string on one line; `done` is the part already read, last character first. -/
def basic (done : List Char) : List Char → Option (String × List Char)
  | '"' :: rest => some (String.ofList done.reverse, rest)
  | '\\' :: 'u' :: a :: b :: c :: d :: rest =>
    match (Json.hexNumber? [a, b, c, d]).bind scalar? with
    | some x => basic (x :: done) rest
    | none => none
  | '\\' :: 'U' :: a :: b :: c :: d :: e :: f :: g :: h :: rest =>
    match (Json.hexNumber? [a, b, c, d, e, f, g, h]).bind scalar? with
    | some x => basic (x :: done) rest
    | none => none
  | '\\' :: c :: rest =>
    match escapeLetter? c with
    | some x => basic (x :: done) rest
    | none => none
  | c :: rest => if isPlain c then basic (c :: done) rest else none
  | [] => none

/-- Reads a literal string on one line. -/
def literal (done : List Char) : List Char → Option (String × List Char)
  | '\'' :: rest => some (String.ofList done.reverse, rest)
  | c :: rest => if isPlain c then literal (c :: done) rest else none
  | [] => none

/-- Whether only blanks stand before the end of the line. -/
def endsLine (cs : List Char) : Bool := (lineBreak? (cs.dropWhile isSpace)).isSome

/-- Reads a basic string over several lines. Behind a backslash at the end of a line, blanks and
line breaks are passed over as long as `skipping`. Up to two quotation marks before the closing ones
belong to the text. -/
def basicLines (skipping : Bool) (done : List Char) : List Char → Option (String × List Char)
  | '"' :: '"' :: '"' :: '"' :: '"' :: rest =>
    some (String.ofList (('"' :: '"' :: done).reverse), rest)
  | '"' :: '"' :: '"' :: '"' :: rest => some (String.ofList (('"' :: done).reverse), rest)
  | '"' :: '"' :: '"' :: rest => some (String.ofList done.reverse, rest)
  | '\r' :: '\n' :: rest => basicLines skipping (if skipping then done else '\n' :: done) rest
  | '\n' :: rest => basicLines skipping (if skipping then done else '\n' :: done) rest
  | '\\' :: 'u' :: a :: b :: c :: d :: rest =>
    match (Json.hexNumber? [a, b, c, d]).bind scalar? with
    | some x => basicLines false (x :: done) rest
    | none => none
  | '\\' :: 'U' :: a :: b :: c :: d :: e :: f :: g :: h :: rest =>
    match (Json.hexNumber? [a, b, c, d, e, f, g, h]).bind scalar? with
    | some x => basicLines false (x :: done) rest
    | none => none
  | '\\' :: c :: rest =>
    match escapeLetter? c with
    | some x => basicLines false (x :: done) rest
    | none => if endsLine (c :: rest) then basicLines true done (c :: rest) else none
  | c :: rest =>
    if skipping && isSpace c then basicLines true done rest
    else if isPlain c then basicLines false (c :: done) rest
    else none
  | [] => none

/-- Reads a literal string over several lines. -/
def literalLines (done : List Char) : List Char → Option (String × List Char)
  | '\'' :: '\'' :: '\'' :: '\'' :: '\'' :: rest =>
    some (String.ofList (('\'' :: '\'' :: done).reverse), rest)
  | '\'' :: '\'' :: '\'' :: '\'' :: rest => some (String.ofList (('\'' :: done).reverse), rest)
  | '\'' :: '\'' :: '\'' :: rest => some (String.ofList done.reverse, rest)
  | '\r' :: '\n' :: rest => literalLines ('\n' :: done) rest
  | '\n' :: rest => literalLines ('\n' :: done) rest
  | c :: rest => if isPlain c then literalLines (c :: done) rest else none
  | [] => none

/-- Drops the line break that may follow opening marks. -/
def dropBreak (cs : List Char) : List Char := (lineBreak? cs).getD cs

/-- Reads a string that is a value. -/
def string : List Char → Option (String × List Char)
  | '"' :: '"' :: '"' :: rest => basicLines false [] (dropBreak rest)
  | '"' :: rest => basic [] rest
  | '\'' :: '\'' :: '\'' :: rest => literalLines [] (dropBreak rest)
  | '\'' :: rest => literal [] rest
  | _ => none

/-! ## Keys -/

/-- The characters of a key without quotation marks. -/
def isBare (c : Char) : Bool := c.isAlphanum || c = '_' || c = '-'

/-- Reads one part of a key. -/
def keyPart : List Char → Option (String × List Char)
  | '"' :: rest => basic [] rest
  | '\'' :: rest => literal [] rest
  | cs =>
    let part := cs.takeWhile isBare
    if part.isEmpty then none else some (String.ofList part, cs.dropWhile isBare)

/-- Reads the parts of a key with points between; the fuel bounds their number. -/
def keyFrom : Nat → List Char → Option (List String × List Char)
  | 0, _ => none
  | fuel + 1, cs => do
    let (part, rest) ← keyPart (cs.dropWhile isSpace)
    match rest.dropWhile isSpace with
    | '.' :: rest => do
      let (parts, rest) ← keyFrom fuel rest
      some (part :: parts, rest)
    | rest => some ([part], rest)

/-- The greatest depth of nested values, and the greatest number of parts of a key. -/
def depthLimit : Nat := 79

def key (cs : List Char) : Option (List String × List Char) := keyFrom depthLimit cs

end BootTree.Toml

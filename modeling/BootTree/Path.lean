/-
  Paths of the boot tree as texts with forward slashes.

  All operations are on the text: nothing is resolved, no component is dropped, and `.` and `..` are
  names like any other. What a path leads to is a question for a file tree.
-/

namespace BootTree

/-- A path by its text. -/
structure Path where
  text : String
  deriving DecidableEq, Repr, Inhabited

namespace Path

/-- The path with the given text, backslashes turned into slashes. -/
def ofText (s : String) : Path := ⟨s.map fun c => if c = '\\' then '/' else c⟩

instance : ToString Path := ⟨Path.text⟩

/-- Whether the text ends in a slash. -/
def endsInSlash (p : Path) : Bool := p.text.toList.getLast? = some '/'

/-- Appends a segment with one slash between; to the empty path, without one. -/
def join (p : Path) (segment : String) : Path :=
  let segment := (ofText segment).text
  if p.text = "" then ⟨segment⟩
  else if p.endsInSlash then ⟨p.text ++ segment⟩
  else ⟨p.text ++ "/" ++ segment⟩

/-- The text from its end, without slashes at the end: the last name in reverse, then what stands
before it. -/
def backward (p : Path) : List Char := p.text.toList.reverse.dropWhile (· = '/')

/-- The directory part; a bare name has none. -/
def parent? (p : Path) : Option Path :=
  match p.backward.dropWhile (· ≠ '/') with
  | [] => none
  | [_] => some ⟨"/"⟩
  | _ :: before => some ⟨String.ofList before.reverse⟩

/-- The last name. -/
def fileName? (p : Path) : Option String :=
  match p.backward.takeWhile (· ≠ '/') with
  | [] => none
  | name => some (String.ofList name.reverse)

/-- The path with another last name. -/
def withFileName (p : Path) (name : String) : Path :=
  match p.parent? with
  | some parent => parent.join name
  | none => ofText name

def isAbsolute (p : Path) : Bool := p.text.toList.head? = some '/'

/-- What follows the last point of the last name; a name that has no other point than the one it
starts with has no extension. -/
def extension? (p : Path) : Option String := do
  let name ← p.fileName?
  let backward := name.toList.reverse
  match backward.dropWhile (· ≠ '.') with
  | [] | [_] => none
  | _ => some (String.ofList (backward.takeWhile (· ≠ '.')).reverse)

end Path

end BootTree

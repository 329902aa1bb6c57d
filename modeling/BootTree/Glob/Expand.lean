/-
  The paths in a file tree that match a pattern.

  A pattern is cut at its slashes and matched directory by directory. A component without wildcards
  is followed as it is, another one is compared with the names in the directory, in their order;
  `**` stands for all that lies below. The names `.` and `..` match only a component that starts
  with a point.
-/
import BootTree.Files.Access
import BootTree.Path

namespace BootTree.Glob

/-- One component of a pattern. -/
inductive Component where
  /-- A name without wildcards. -/
  | name (text : String)
  /-- Whole components, any number of them. -/
  | recursive
  | wild (tokens : List Token)
  deriving DecidableEq, Repr

/-- The characters of tokens that all stand for themselves. -/
def literal? : List Token → Option (List Char)
  | [] => some []
  | .char c :: rest => (literal? rest).map (c :: ·)
  | _ => none

def Component.read (text : String) : Except PatternError Component := do
  let tokens ← Glob.read text
  if tokens.contains .anyComponents then .ok .recursive
  else
    match literal? tokens with
    | some cs => .ok (.name (String.ofList cs))
    | none => .ok (.wild tokens)

/-- Whether a name in a directory matches a component. -/
def Component.matches (name : String) : Component → Bool
  | .name text => text = name
  | .recursive => true
  | .wild tokens => matchTokens tokens name.toList

/-- Whether a path text is the directory that relative paths start from. -/
def isHere (text : String) : Bool :=
  let trail := Trail.ofText text
  !trail.rooted && trail.segments.head? = some "." && trail.backward.all fun s => s = "" || s = "."

/-- The path text of something in a directory. Of the starting directory only its names are
written. -/
def extend (base name : String) : String :=
  if isHere base then name else Trail.append base name

/-- Everything below a directory, each directory before what is in it, the names in their order. The
fuel bounds the depth. -/
def below (t : FileTree) : Nat → String → List (String × String)
  | 0, _ => []
  | fuel + 1, base =>
    match t.locate base with
    | .ok place =>
      if t.isDirectory base then
        (t.list place).flatMap fun (name, _) =>
          let path := extend base name
          (path, name) :: below t fuel path
      else []
    | .error _ => []

/-- The names in a directory and their paths. -/
def inside (t : FileTree) (base : String) : List (String × String) :=
  match t.locate base with
  | .ok place =>
    if t.isDirectory base then (t.list place).map fun (name, _) => (extend base name, name) else []
  | .error _ => []

/-- The special names that a wildcard component can stand for, `..` before `.`. -/
def specials (tokens : List Token) : List String :=
  if tokens.head? = some (.char '.') then
    ["..", "."].filter fun s => matchTokens tokens s.toList
  else []

/-- Keeps of `**` components in a row the last. -/
def collapse : List Component → List Component
  | [] => []
  | component :: rest =>
    if component = .recursive ∧ rest.head? = some .recursive then collapse rest
    else component :: collapse rest

/-- A path where a pattern ends; with `directoryOnly` it must lead to a directory. -/
def final (t : FileTree) (directoryOnly : Bool) (path : String) : List String :=
  if directoryOnly && !t.isDirectory path then [] else [path]

/-- The paths that match components from a base path on, where no two `**` stand in a row. `depth`
bounds the depth below `**`. -/
def expandFrom (t : FileTree) (directoryOnly : Bool) (depth : Nat) :
    List Component → String → List String
  | [], path => final t directoryOnly path
  | .name text :: rest, base =>
    let path := extend base text
    let special := text = "." || text = ".."
    if (special && t.isDirectory base) || (!special && t.has path) then
      expandFrom t directoryOnly depth rest path
    else []
  | [.recursive], base => ((below t depth base).map Prod.fst).filter t.isDirectory
  | .recursive :: next :: rest, base =>
    (below t depth base).flatMap fun (path, name) =>
      if next.matches name then expandFrom t directoryOnly depth rest path else []
  | .wild tokens :: rest, base =>
    if t.isDirectory base then
      (specials tokens).flatMap
          (fun name => expandFrom t directoryOnly depth rest (Trail.append base name))
        ++ (inside t base).flatMap fun (path, name) =>
          if matchTokens tokens name.toList then expandFrom t directoryOnly depth rest path else []
    else []

/-- Cuts a pattern at its slashes; an empty last component does not count. -/
def componentTexts (pattern : List Char) : List String :=
  let texts := (Trail.cut pattern).map String.ofList
  if texts.getLast? = some "" then texts.dropLast else texts

/-- The paths that match a pattern, in the order of the directories. -/
def expand (t : FileTree) (pattern : String) : Except FileError (List Path) := do
  let fault (e : PatternError) : FileError := .pattern pattern e
  let _ ← (Glob.read pattern).mapError fault
  let (base, rest) := match pattern.toList with
    | '/' :: rest => ("/", rest)
    | cs => (".", cs)
  let components ← ((componentTexts rest).mapM Component.read).mapError fault
  let components := if rest.isEmpty then [.name ""] else components
  let directoryOnly := pattern.toList.getLast? = some '/'
  .ok ((expandFrom t directoryOnly pathLimit (collapse components) base).map Path.ofText)

end BootTree.Glob

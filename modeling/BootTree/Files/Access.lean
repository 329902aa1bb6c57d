/-
  A file tree by path texts: what a path leads to, reading, and the elementary changes with the
  causes for which they fail.

  A path is followed segment by segment. Every segment, also an empty one or `.`, needs the place
  reached so far to be a directory; `..` goes to the directory around. An elementary change gives
  the changed tree or a cause, so that nothing is changed where it fails.
-/
import BootTree.Files.Error
import BootTree.Files.Trail
import BootTree.Files.Tree

namespace BootTree

/-- The greatest number of bytes in a name. -/
def nameLimit : Nat := 255

/-- The least number of bytes that a path must not have. -/
def pathLimit : Nat := 4096

namespace FileTree

/-! ## Following a path -/

/-- Follows segments from a place. -/
def follow (t : FileTree) (place : Place) : List String → Except Cause Place
  | [] => .ok place
  | segment :: rest =>
    match t.get? place with
    | none => .error .notFound
    | some (.file _) => .error .notDirectory
    | some .directory =>
      if segment = "" || segment = "." then follow t place rest
      else if segment = ".." then follow t place.tail rest
      else if segment.utf8ByteSize > nameLimit then .error .nameTooLong
      else follow t (segment :: place) rest

/-- The place a path starts from. -/
def origin (t : FileTree) (trail : Trail) : Place := if trail.rooted then [] else t.base

/-- Refuses the texts that are no paths. -/
def checkText (text : String) : Except Cause Unit :=
  if text.toList.contains '\x00' then .error .nullCharacter
  else if text = "" then .error .notFound
  else if text.utf8ByteSize ≥ pathLimit then .error .nameTooLong
  else .ok ()

/-- The place a path leads to; nothing need stand there. -/
def locate (t : FileTree) (text : String) : Except Cause Place := do
  checkText text
  let trail := Trail.ofText text
  t.follow (t.origin trail) trail.segments

/-- What a path leads to. -/
def entry (t : FileTree) (text : String) : Except Cause Entry := do
  let place ← t.locate text
  match t.get? place with
  | some e => .ok e
  | none => .error .notFound

/-- Whether a path leads to anything. -/
def has (t : FileTree) (text : String) : Bool := (t.entry text).isOk

def isDirectory (t : FileTree) (text : String) : Bool :=
  match t.entry text with
  | .ok .directory => true
  | _ => false

def isFile (t : FileTree) (text : String) : Bool :=
  match t.entry text with
  | .ok (.file _) => true
  | _ => false

/-- The bytes of a file. -/
def read (t : FileTree) (text : String) : Except Cause ByteArray :=
  match t.entry text with
  | .ok (.file content) => .ok content
  | .ok .directory => .error .isDirectory
  | .error cause => .error cause

/-- The text of a file. -/
def readText (t : FileTree) (text : String) : Except Cause String := do
  let content ← t.read text
  match String.fromUTF8? content with
  | some s => .ok s
  | none => .error .notText

/-! ## The last name of a path

  A change concerns a name in a directory. The path to the directory is followed first. -/

/-- Where a change takes place. A path that ends in `.`, `..` or is the root has no last name. -/
inductive Target where
  | named (around : Place) (name : String) (slash : Bool)
  | nameless
  deriving Repr

/-- Finds the directory and the name in it; the directory must be there. A slash at the end is
noted. -/
def target (t : FileTree) (text : String) : Except Cause Target := do
  checkText text
  let trail := Trail.ofText text
  let slash := trail.backward.head? = some ""
  match trail.backward.dropWhile (· = "") with
  | [] => .ok .nameless
  | name :: before =>
    let around ← t.follow (t.origin trail) before.reverse
    match t.get? around with
    | none => .error .notFound
    | some (.file _) => .error .notDirectory
    | some .directory =>
      if name = "." || name = ".." then .ok .nameless else .ok (.named around name slash)

/-- The name, if it is not too long. -/
def checkName (name : String) : Except Cause Unit :=
  if name.utf8ByteSize > nameLimit then .error .nameTooLong else .ok ()

/-! ## Elementary changes -/

/-- Makes a directory in one that is there. -/
def makeDirectory (t : FileTree) (text : String) : Except Cause FileTree := do
  match ← t.target text with
  | .nameless => .error .alreadyExists
  | .named around name _ =>
    checkName name
    match t.get? (name :: around) with
    | some _ => .error .alreadyExists
    | none => .ok (t.put name around .directory)

/-- Writes a file, new or in place of the bytes it has. -/
def write (t : FileTree) (text : String) (content : ByteArray) : Except Cause FileTree := do
  match ← t.target text with
  | .nameless => .error .isDirectory
  | .named around name slash =>
    if slash then .error .isDirectory
    else
      checkName name
      match t.get? (name :: around) with
      | some .directory => .error .isDirectory
      | _ => .ok (t.put name around (.file content))

/-- Renames a file, in place of the file that has the new name. -/
def renameFile (t : FileTree) (old new : String) : Except Cause FileTree := do
  match ← t.target old, ← t.target new with
  | .named around name slash, .named around' name' slash' =>
    checkName name
    match t.get? (name :: around) with
    | some (.file content) =>
      checkName name'
      if slash || slash' then .error .notDirectory
      else
        match t.get? (name' :: around') with
        | some .directory => .error .isDirectory
        | _ =>
          if name :: around = name' :: around' then .ok t
          else .ok ((t.put name' around' (.file content)).remove name around)
    | some .directory => .error .isDirectory
    | none => .error .notFound
  | _, _ => .error .busy

end FileTree

end BootTree

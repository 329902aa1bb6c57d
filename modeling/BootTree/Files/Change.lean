/-
  Changes of a file tree that may stop half-way: directories with all their parents, files written
  at one stroke, and copies.

  Such a change gives its result or an error together with the tree as it is then.
-/
import BootTree.Files.Access
import BootTree.Hash.Sha256
import BootTree.Path

namespace BootTree

/-- A change of a file tree with a result, or an error of type `ε` and the tree as it is then. -/
abbrev Change (ε α : Type) := ExceptT ε (StateM FileTree) α

namespace Change

/-- Reads from the tree. -/
def inspect (f : FileTree → Except ε α) : Change ε α := fun t => (f t, t)

/-- Does an elementary change, or leaves the tree as it is. -/
def attempt (f : FileTree → Except ε FileTree) : Change ε Unit := fun t =>
  match f t with
  | .ok t' => (.ok (), t')
  | .error e => (.error e, t)

/-- The same change with its errors put into other words. -/
def mapError (f : ε → ε') (x : Change ε α) : Change ε' α := fun t =>
  match x t with
  | (.ok a, t') => (.ok a, t')
  | (.error e, t') => (.error (f e), t')

end Change

/-! ## Directories -/

/-- Makes a directory and those of its parents that are missing. `ancestors` are its parents, the
nearest first. A directory that is there already is no error. -/
def makeWithParents (text : String) : List Trail → Change Cause Unit
  | [] => fun t =>
    match t.makeDirectory text with
    | .ok t' => (.ok (), t')
    | .error cause => if t.isDirectory text then (.ok (), t) else (.error cause, t)
  | parent :: ancestors => fun t =>
    match t.makeDirectory text with
    | .ok t' => (.ok (), t')
    | .error .notFound =>
      match (if parent.text = "" then (.ok (), t) else makeWithParents parent.text ancestors t) with
      | (.error cause, t') => (.error cause, t')
      | (.ok (), t') =>
        match t'.makeDirectory text with
        | .ok t'' => (.ok (), t'')
        | .error cause => if t'.isDirectory text then (.ok (), t') else (.error cause, t')
    | .error cause => if t.isDirectory text then (.ok (), t) else (.error cause, t)

/-- Makes a directory with its parents by its path text. -/
def makeDirectories (text : String) : Change FileError Unit :=
  if text = "" then pure ()
  else (makeWithParents text (Trail.ofText text).ancestors).mapError (.io text)

/-- Makes a directory with its parents unless it is there. -/
def ensureDirectory (p : Path) : Change FileError Unit := do
  if (← get).isDirectory p.text then pure ()
  else makeDirectories p.text

/-! ## Writing -/

/-- The name of the temporary file for a file name. -/
def temporaryName (tag name : String) : String := "." ++ name ++ "." ++ tag ++ ".tmp"

/-- The path of the temporary file beside a path. -/
def temporaryPath (process : Process) (p : Path) : String :=
  let trail := Trail.ofText p.text
  trail.withFileName (temporaryName process.tag (trail.fileName?.getD ""))

/-- Writes bytes to the temporary file beside a path. -/
def writeTemporary (p : Path) (bytes : ByteArray) : Change FileError Unit := do
  let temporary := temporaryPath (← get).process p
  Change.attempt fun t => (t.write temporary bytes).mapError (.io temporary)

/-- Fills the temporary file under a lock. Opening it empties it, before the lock is asked for, and
the lock is given back when the content is in it. The error of the lock names the path itself. -/
def writeLocked (p : Path) (content : ByteArray) : Change FileError Unit := do
  writeTemporary p .empty
  match (← get).process.locking p.text with
  | .refused => throw (.lockFailed p.text)
  | .held => writeTemporary p content
  | .kept =>
    writeTemporary p content
    throw (.lockFailed p.text)

/-- Writes a file through the temporary file beside it, which then takes its name. -/
def writeThrough (p : Path) (content : ByteArray) : Change FileError Unit := do
  writeLocked p content
  let temporary := temporaryPath (← get).process p
  Change.attempt fun t => (t.renameFile temporary p.text).mapError (.io p.text)

/-- Writes a file at one stroke. Parents that are missing are made first. -/
def writeAtomic (p : Path) (content : ByteArray) : Change FileError Unit := do
  match (Trail.ofText p.text).parent? with
  | some parent => makeDirectories parent.text
  | none => pure ()
  writeThrough p content

/-- Writes a text at one stroke. -/
def writeText (p : Path) (content : String) : Change FileError Unit :=
  writeAtomic p content.toUTF8

/-- The text of a file. -/
def FileTree.textAt (t : FileTree) (p : Path) : Except FileError String :=
  (t.readText p.text).mapError (.io p.text)

/-! ## Copying -/

/-- What a copy did to its destination. -/
inductive CopyStatus where
  | copied
  | skipped
  deriving DecidableEq, Repr

/-- Copies the bytes of a file to a path in a directory that is there. It fails where the tree
refuses to read the one or to open the other, before anything is written; a device that fails within
the bytes, and so leaves a part of them, is not covered. -/
def copyBytes (source destination : Path) : Change FileError Unit := do
  let content ← Change.inspect fun t =>
    if t.isFile source.text then (t.read source.text).mapError (.io source.text)
    else .error (.notAFile source.text)
  Change.attempt fun t => (t.write destination.text content).mapError (.io destination.text)

/-- Copies a file unless there is a file at the destination. -/
def copyIfAbsent (source destination : Path) : Change FileError CopyStatus := do
  if (← get).isFile destination.text then pure .skipped
  else
    copyBytes source destination
    pure .copied

/-- The fingerprint of a file. -/
def FileTree.fingerprint (t : FileTree) (p : Path) : Except Cause String :=
  (t.read p.text).map Sha256.fingerprint

/-- Whether there is a file at the destination with the fingerprint of the source. -/
def FileTree.isCurrent (t : FileTree) (source destination : Path) : Except FileError Bool :=
  if t.isFile destination.text then do
    let a ← (t.fingerprint source).mapError (.io source.text)
    let b ← (t.fingerprint destination).mapError (.io destination.text)
    .ok (a = b)
  else .ok false

/-- Copies a file unless the destination has its fingerprint already. -/
def copyIfChanged (source destination : Path) : Change FileError CopyStatus := do
  if ← Change.inspect fun t => t.isCurrent source destination then pure .skipped
  else
    copyBytes source destination
    pure .copied

end BootTree

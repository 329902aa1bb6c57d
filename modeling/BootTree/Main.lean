/-
  The program. It takes a picture of the directories that a command can be about, runs the command
  on the picture, and carries the changes over.

  The directories are the one the program is started in and those around the absolute paths on the
  command line, in the environment, and in the documents these lead to.
-/
import BootTree.Command.Clock
import BootTree.Command.Run

namespace BootTree.Main

/-! ## Taking the picture -/

/-- The names of an absolute path, the innermost first. -/
def placeOf (text : String) : Place := ((text.splitOn "/").filter (· ≠ "")).reverse

/-- A number has no slash in it, so that it can be a tag. -/
theorem slash_not_mem_toString (n : Nat) : '/' ∉ (toString n).toList := by
  intro h
  rw [Nat.toString_eq_repr, Nat.repr, String.toList_ofList] at h
  exact absurd (Nat.isDigit_of_mem_toDigits (by decide) (by decide) h) (by decide)

/-- Puts the directories on the way to a place into a tree. -/
def withAround (t : FileTree) : Place → FileTree
  | [] => t
  | name :: around => (withAround t around).put name around .directory

/-- The text of a place. -/
def textOf (place : Place) : String := "/" ++ "/".intercalate place.reverse

/-- Takes in what stands at a place, with everything below; below a directory that is reached
through a link nothing is taken in. -/
partial def load (t : FileTree) (place : Place) : IO FileTree := do
  let .ok path ← (IO.FS.realPath (textOf place)).toBaseIO | return t
  match place, (← path.metadata).type with
  | name :: around, .file => return t.put name around (.file (← IO.FS.readBinFile path))
  | name :: around, .dir =>
    let mut tree := t.put name around .directory
    for e in ← path.readDir do
      let inner := e.fileName :: place
      if (← e.path.symlinkMetadata).type != .symlink then tree ← load tree inner
      else if ← e.path.isDir then tree := tree.put e.fileName place .directory
      else tree ← load tree inner
    return tree
  | _, _ => return t

/-- Takes in the directory around a path, if it is there. -/
def loadAround (t : FileTree) (text : String) : IO FileTree := do
  let place := (placeOf text).tail
  if place.isEmpty || (t.get? place).isSome then return t
  let .ok path ← (IO.FS.realPath (textOf place)).toBaseIO | return t
  if ← path.isDir then load (withAround t place.tail) place else return t

mutual

/-- The texts in a value that are absolute paths. -/
def absolutePaths : Value → List String
  | .text s => if s.toList.head? = some '/' then [s] else []
  | .list items => absolutePathsIn items
  | .object members => absolutePathsOf members
  | _ => []

/-- The absolute paths in a list. -/
def absolutePathsIn : List Value → List String
  | [] => []
  | v :: rest => absolutePaths v ++ absolutePathsIn rest

/-- The absolute paths among the names and the values of members. -/
def absolutePathsOf : List (String × Value) → List String
  | [] => []
  | (key, v) :: rest => absolutePaths (.text key) ++ absolutePaths v ++ absolutePathsOf rest

end

/-- The absolute paths in the settings and the registry of a command. -/
def documentPaths (t : FileTree) (i : Invocation) : List String :=
  let settings := ((t.loadSettings (.ofText i.settings)).toOption.getD {}).toValue
  let registry := ((t.loadRegistry (.ofText i.registry)).toOption.getD {}).toValue
  absolutePaths settings ++ absolutePaths registry

/-- The absolute paths that a command names itself. -/
def commandPaths (i : Invocation) : List String :=
  let named := match i.command with
    | .validate path _ => [path]
    | .migrate path _ modulesConf output => path :: modulesConf :: output.toList
    | _ => []
  (i.settings :: i.registry :: named).filter fun s => s.toList.head? = some '/'

/-! ## Carrying changes over -/

/-- Carries over what is new or changed, directories before what is in them, then removes the files
that are gone. -/
def carryOver (before after : FileTree) : IO Unit := do
  let sorted := after.entries.mergeSort fun a b => a.1.length ≤ b.1.length
  for (place, e) in sorted do
    if before.get? place ≠ some e then
      match e with
      | .directory => IO.FS.createDirAll (textOf place)
      | .file content => IO.FS.writeBinFile (textOf place) content
  for (place, e) in before.entries do
    if (after.get? place).isNone && !e.isDirectory then IO.FS.removeFile (textOf place)

end BootTree.Main

open BootTree BootTree.Main in
/-- Runs the command of the words on the directories it is about. -/
def main (words : List String) : IO UInt32 := do
  let settingsVariable ← IO.getEnv "BOOTSYNC_SETTINGS"
  let registryVariable ← IO.getEnv "BOOTSYNC_REGISTRY"
  let environment (name : String) : Option String :=
    if name = "BOOTSYNC_SETTINGS" then settingsVariable
    else if name = "BOOTSYNC_REGISTRY" then registryVariable
    else none
  let base := placeOf (← IO.currentDir).toString
  let start ← IO.monoNanosNow
  let nothing := FileTree.empty base (toString start) (slash_not_mem_toString start)
  let mut tree ← load (withAround nothing base.tail) base
  if let .ok i := Invocation.read environment words then
    for text in commandPaths i do
      tree ← loadAround tree text
    for text in documentPaths tree i do
      tree ← loadAround tree text
  let now := (← (← IO.FS.realPath "/proc/self").metadata).modified
  let startedAt := Instant.text ⟨now.sec.toNat, now.nsec.toNat⟩
  let (answer, changed) := Command.answer environment startedAt words tree
  carryOver tree changed
  (← IO.getStdout).putStr answer.output
  if let some message := answer.error then
    (← IO.getStderr).putStr (message ++ "\n")
  return answer.code.toUInt32

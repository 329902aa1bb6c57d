/-
  Running a command on a file tree.

  A command prints lines and may fail; what it printed and changed before that stays.
-/
import BootTree.Command.Arguments
import BootTree.Settings.Migration
import BootTree.Sync.Pxe
import BootTree.Sync.Report

namespace BootTree

/-- Why a command fails. -/
inductive CommandError where
  | sync (error : SyncError)
  | registry (error : RegistryError)
  | settings (error : SettingsError)
  | registryMissing (path : String)
  | distroMissing (name : String)
  | incompleteCopy (name : String)
  | unknownVersion (version : String)
  | invalidSettings
  deriving DecidableEq

def CommandError.message : CommandError → String
  | .sync error => error.message
  | .registry error => error.message
  | .settings error => error.message
  | .registryMissing path => s!"Registry not found: {path}"
  | .distroMissing name => s!"Distro not found: {name}"
  | .incompleteCopy name => s!"Some files for {name} could not be copied"
  | .unknownVersion version => s!"Unknown settings version: {version}"
  | .invalidSettings => "Settings validation failed"

/-- What a command works on: the file tree, and the lines printed so far. -/
structure Session where
  tree : FileTree
  lines : List String := []

/-- A command that runs. -/
abbrev Running (α : Type) := ExceptT CommandError (StateM Session) α

namespace Running

/-- Prints one line. -/
def print (line : String) : Running Unit :=
  modify fun s => { s with lines := s.lines ++ [line] }

/-- A change of the file tree as part of a command. -/
def ofChange (wrap : ε → CommandError) (x : Change ε α) : Running α := fun s =>
  match x s.tree with
  | (.ok a, t) => (.ok a, { s with tree := t })
  | (.error e, t) => (.error (wrap e), { s with tree := t })

/-- Work of a generator without a memory as part of a command. -/
def ofWork (w : Work Unit α) : Running α := fun s =>
  match w ⟨s.tree, ()⟩ with
  | (.ok a, site) => (.ok a, { s with tree := site.tree })
  | (.error e, site) => (.error (.sync e), { s with tree := site.tree })

/-- Stops with an error; what was done stays done. -/
def fail (e : CommandError) : Running α := fun s => (.error e, s)

end Running

namespace Command

open Running

/-! ## Settings and registry -/

/-- Loads settings and registry. Without a settings file the settings are the default ones; a
registry there must be. -/
def loadContext (i : Invocation) : Running Context := do
  let settingsPath := Path.ofText i.settings
  let settings ← Running.ofChange .registry <| Change.inspect fun t =>
    if t.isFile settingsPath.text then t.loadSettings settingsPath else .ok {}
  let registryPath := Path.ofText i.registry
  if !(← get).tree.isFile registryPath.text then fail (.registryMissing registryPath.text)
  let registry ← Running.ofChange .registry <| Change.inspect fun t => t.loadRegistry registryPath
  pure (.standard settings registry false)

/-! ## Output -/

/-- Prints the report of a pass, as data or in words. -/
def printReport (startedAt : String) (json : Bool) (r : SyncReport) : Running Unit := do
  if json then print (Json.pretty (r.toValue startedAt))
  else
    print "OK Synchronization complete:"
    r.actions.forM fun a => print ("   + " ++ a.message)
    if !r.troubles.isEmpty then
      print ""
      print "WARN Some steps reported errors:"
      r.troubles.forM fun e => print ("   ! " ++ e.message)

/-- Prints what became of one file; of a file that was left alone nothing is said. -/
def printOutcome : CopyOutcome → Running Unit
  | .copied task => print ("   + " ++ task.destination.text)
  | .skipped _ => pure ()
  | .noMatch source _ => print ("   - no files match " ++ source)
  | .failed failure => print ("   ! " ++ failure.message)

/-- Prints the copies of one distribution. -/
def printCopies (r : CopyReport) : Running Unit := do
  print s!"=> {r.distro}: {r.copied} copied, {r.skipped} skipped"
  r.outcomes.forM printOutcome

/-! ## Commands -/

/-- A full pass. -/
def runSync (i : Invocation) (startedAt : String) (json : Bool) : Running Unit := do
  let ctx ← loadContext i
  if !json then print "=> Synchronizing boot tree..."
  let report ← ofWork (Sync.full ctx (Pxe.generator ctx))
  printReport startedAt json report

def runSyncHosts (i : Invocation) (startedAt : String) (identifiers : List String) (json : Bool) :
    Running Unit := do
  let ctx ← loadContext i
  if !json then print s!"=> Synchronizing {identifiers.length} host(s)..."
  let report ← ofWork (Sync.partialPass ctx (Pxe.generator ctx) identifiers)
  printReport startedAt json report

/-- Stages one registered distribution; a file that could not be copied is an error. -/
def runAddDistro (i : Invocation) (name : String) : Running Unit := do
  let ctx ← loadContext i
  match ctx.registry.findDistro? name with
  | none => fail (.distroMissing name)
  | some distro =>
    print s!"=> Adding distro {name}..."
    let report ← ofWork (Sync.addDistro ctx (Pxe.generator ctx) distro)
    printCopies report
    if !report.isClean then fail (.incompleteCopy name)

/-- Copies the declared files of every distribution. -/
def runCopyBootFiles (i : Invocation) (json : Bool) : Running Unit := do
  let ctx ← loadContext i
  let reports ← Running.ofChange .sync fun t =>
    let (reports, t) := Sync.copyAllDistroFiles ctx ctx.registry.distros t
    (.ok reports, t)
  if json then print (Json.pretty (.list (reports.map CopyReport.toValue)))
  else reports.forM printCopies

/-- Lists the entries of the menu, or writes it. -/
def runMenu (i : Invocation) (list : Bool) : Running Unit := do
  let ctx ← loadContext i
  let menu ← ofWork (Pxe.generator ctx).computeMenu
  if list then menu.entries.forM fun e => print (e.label ++ " " ++ e.kernel)
  else
    let checksum ← ofWork ((Pxe.generator ctx).regenerateMenu menu)
    print s!"OK Menu regenerated ({checksum})"

/-- Checks a settings document against a version. -/
def runValidate (path version : String) : Running Unit := do
  match SettingsVersion.ofText? version with
  | none => fail (.unknownVersion version)
  | some v =>
    let document ← Running.ofChange .settings <| Change.inspect fun t =>
      t.loadDocument (.ofText path)
    match v.schema.normalize document with
    | .ok _ => print s!"OK {path} is valid for {version}"
    | .error violations =>
      print s!"INVALID {path} is not valid for {version}:"
      violations.forM fun e => print ("   ! " ++ e.message)
      fail .invalidSettings

def runMigrate (path version modulesConf : String) (output : Option String) : Running Unit := do
  let source := Path.ofText path
  let destination := (output.map Path.ofText).getD source
  let _ ← Running.ofChange .settings
    (migrateFile source version (.ofText modulesConf) destination)
  print s!"OK Migrated settings to {version} ({destination.text})"

/-- What is printed where no command is given. -/
def runGreet : Running Unit := do
  print "bootsync boot tree synchronizer"
  print ""
  print "Run bootsync --help for available commands."

end Command

/-- Runs a command that started at a time. -/
def Invocation.run (i : Invocation) (startedAt : String) : Running Unit :=
  match i.command with
  | .greet => Command.runGreet
  | .sync json => Command.runSync i startedAt json
  | .syncHosts identifiers json => Command.runSyncHosts i startedAt identifiers json
  | .addDistro name => Command.runAddDistro i name
  | .copyBootFiles json => Command.runCopyBootFiles i json
  | .menu list => Command.runMenu i list
  | .validate path version => Command.runValidate path version
  | .migrate path version modulesConf output => Command.runMigrate path version modulesConf output

namespace Command

/-! ## The program -/

/-- What the program answers: its exit code, the text it prints, and its error message. -/
structure Answer where
  code : Nat
  output : String
  error : Option String
  deriving DecidableEq, Repr

/-- Lines with their ends. -/
def unlines (lines : List String) : String := String.join (lines.map fun s => s ++ "\n")

def versionText : String := "bootsync 0.1.0\n"

def helpText : String := unlines [
  "Keep a boot tree in step with its registry",
  "",
  "Usage: bootsync [--settings FILE] [--registry FILE] COMMAND",
  "",
  "  sync [--json]                  regenerate the whole boot tree",
  "  sync-hosts HOST... [--json]    write the boot files of some hosts",
  "  add-distro NAME                stage one distribution",
  "  copy-boot-files [--json]       copy the files of every distribution",
  "  menu [--list]                  write or list the boot menu",
  "  settings validate FILE [--version VERSION]",
  "  settings migrate FILE [--version VERSION] [--modules-conf FILE] [-o FILE]"]

/-- Runs the program with the words of a command line on a file tree. -/
def answer (environment : String → Option String) (startedAt : String) (words : List String)
    (t : FileTree) : Answer × FileTree :=
  match Invocation.read environment words with
  | .error .usage => (⟨2, "", none⟩, t)
  | .error .help => (⟨0, helpText, none⟩, t)
  | .error .version => (⟨0, versionText, none⟩, t)
  | .ok i =>
    match i.run startedAt { tree := t } with
    | (.ok (), s) => (⟨0, unlines s.lines, none⟩, s.tree)
    | (.error e, s) => (⟨1, unlines s.lines, some ("error: " ++ e.message)⟩, s.tree)

end Command

end BootTree

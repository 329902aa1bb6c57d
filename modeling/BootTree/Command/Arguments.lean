/-
  The commands of the program and their arguments.

  The files of settings and registry can be named at every level; the innermost one counts, then the
  environment, then the default.
-/
import BootTree.Command.Switch
import BootTree.Settings.Migration

namespace BootTree

/-- What the program is asked to do. -/
inductive Command where
  /-- Without a command. -/
  | greet
  | sync (json : Bool)
  | syncHosts (identifiers : List String) (json : Bool)
  | addDistro (name : String)
  | copyBootFiles (json : Bool)
  | menu (list : Bool)
  | validate (path version : String)
  | migrate (path version modulesConf : String) (output : Option String)
  deriving DecidableEq, Repr

/-- A command with the files that it works on. -/
structure Invocation where
  verbose : Bool
  settings : String
  registry : String
  command : Command
  deriving DecidableEq, Repr

namespace Command

/-! ## Levels -/

/-- The switches of every level. -/
def commonSwitches : List Switch := [
  { long := "verbose", letter := some 'v', kind := .flag },
  { long := "settings", kind := .path },
  { long := "registry", kind := .path },
  { long := "help", letter := some 'h', kind := .help }]

def jsonSwitch : Switch := { long := "json", kind := .flag }

def versionSwitch : Switch := { long := "version", kind := .text }

/-- Before the command. -/
def rootLevel : Level where
  switches := commonSwitches ++ [{ long := "version", letter := some 'V', kind := .version }]
  commands := ["sync", "sync-hosts", "add-distro", "copy-boot-files", "menu", "settings", "help"]

/-- Between `settings` and what is to be done with them. -/
def settingsLevel : Level where
  switches := commonSwitches
  commands := ["validate", "migrate", "help"]

/-- Behind `sync` and `copy-boot-files`. -/
def syncLevel : Level where
  switches := commonSwitches ++ [jsonSwitch]

/-- Behind `sync-hosts`. -/
def syncHostsLevel : Level where
  switches := commonSwitches ++ [jsonSwitch]
  operands := .texts

/-- Behind `add-distro`. -/
def addDistroLevel : Level where
  switches := commonSwitches
  operands := .text

/-- Behind `menu`. -/
def menuLevel : Level where
  switches := commonSwitches ++ [{ long := "list", kind := .flag }]

/-- Behind `settings validate`. -/
def validateLevel : Level where
  switches := commonSwitches ++ [versionSwitch]
  operands := .path

/-- Behind `settings migrate`. -/
def migrateLevel : Level where
  switches := commonSwitches ++ [versionSwitch,
    { long := "modules-conf", kind := .path },
    { long := "output", letter := some 'o', kind := .path }]
  operands := .path

/-! ## Commands -/

/-- The settings version that is meant where none is given. -/
def currentVersion : String := "3.0.1"

/-- Whether words lead to a command that there is help on. -/
def isCommandPath : List String → Bool
  | [] => true
  | ["settings", name] => settingsLevel.commands.contains name
  | [name] => rootLevel.commands.contains name
  | _ => false

/-- What asking for help on words comes to. -/
def helpOn (words : List String) : Stop := if isCommandPath words then .help else .usage

/-- The one operand of a level that needs it. -/
def operand (g : Given) : Except Stop String :=
  match g.operands.head? with
  | some word => .ok word
  | none => .error .usage

/-- Reads a level behind which no command follows. -/
def readLast (level : Level) (words : List String) : Except Stop Given :=
  (level.read words).map Prod.fst

/-- Reads a command on settings documents: what was given on each level, and the command. -/
def readSettings (words : List String) : Except Stop (List Given × Command) := do
  let (outer, rest) ← settingsLevel.read words
  match rest with
  | "validate" :: words =>
    let g ← readLast validateLevel words
    let path ← operand g
    .ok ([outer, g], .validate path ((g.value? "version").getD currentVersion))
  | "migrate" :: words =>
    let g ← readLast migrateLevel words
    let path ← operand g
    .ok ([outer, g],
      .migrate path ((g.value? "version").getD currentVersion)
        ((g.value? "modules-conf").getD defaultModulesConf.text) (g.value? "output"))
  | "help" :: words => .error (helpOn ("settings" :: words))
  | _ => .error .usage

/-- Reads a command and its arguments: what was given on each level behind it, and the command. -/
def readCommand (name : String) (words : List String) : Except Stop (List Given × Command) := do
  match name with
  | "sync" =>
    let g ← readLast syncLevel words
    .ok ([g], .sync (g.hasFlag "json"))
  | "sync-hosts" =>
    let g ← readLast syncHostsLevel words
    if g.operands.isEmpty then .error .usage
    else .ok ([g], .syncHosts g.operands (g.hasFlag "json"))
  | "add-distro" =>
    let g ← readLast addDistroLevel words
    .ok ([g], .addDistro (← operand g))
  | "copy-boot-files" =>
    let g ← readLast syncLevel words
    .ok ([g], .copyBootFiles (g.hasFlag "json"))
  | "menu" =>
    let g ← readLast menuLevel words
    .ok ([g], .menu (g.hasFlag "list"))
  | "settings" => readSettings words
  | "help" => .error (helpOn words)
  | _ => .error .usage

/-- The value of a switch that all levels have, outermost level first: the innermost one given, then
the one of the environment, then the default. The one of the environment must be no empty path if
any level would fall back on it. -/
def commonValue (name : String) (environment : Option String) (absent : String)
    (levels : List Given) : Except Stop String :=
  let given := levels.filterMap fun g => g.value? name
  if environment = some "" && given.length < levels.length then .error .usage
  else .ok (given.getLast?.getD (environment.getD absent))

end Command

/-- Reads a command line in an environment. -/
def Invocation.read (environment : String → Option String) (words : List String) :
    Except Command.Stop Invocation := do
  let (root, rest) ← Command.rootLevel.read words
  let (levels, command) ← match rest with
    | [] => .ok ([], Command.greet)
    | name :: words => Command.readCommand name words
  let levels := root :: levels
  let settings ← Command.commonValue "settings" (environment "BOOTSYNC_SETTINGS")
    "/etc/bootsync/settings.yaml" levels
  let registry ← Command.commonValue "registry" (environment "BOOTSYNC_REGISTRY")
    "/etc/bootsync/registry.yaml" levels
  .ok { verbose := levels.any fun g => g.hasFlag "verbose", settings, registry, command }

end BootTree

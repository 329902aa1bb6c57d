/-
  Settings documents by version: checking a document against a version, and migrating it.

  The versions share one schema. Migrating to the later one also renames the modules in the module
  configuration, and not before the document has been found valid, so that a document that is
  refused changes no file.
-/
import BootTree.Document
import BootTree.Settings.ModuleNames
import BootTree.Settings.Schema

namespace BootTree

/-- Why a settings document is refused. -/
inductive SettingsError where
  | invalid (version : String) (violations : List Violation)
  | migration (version : String) (violations : List Violation)
  | unknownVersion (version : String)
  | notAMapping (found : Value)
  | file (error : FileError)
  deriving DecidableEq

/-- What a document is that should be a mapping. -/
def Value.kindName : Value → String
  | .null => "null"
  | .bool _ => "a boolean"
  | .number _ => "a number"
  | .text _ => "a string"
  | .list _ => "a list"
  | .object _ => "a mapping"

/-- Violations in one line. -/
def violationText (violations : List Violation) : String :=
  "; ".intercalate (violations.map Violation.message)

def SettingsError.message : SettingsError → String
  | .invalid version violations =>
    s!"Settings do not match schema {version}: {violationText violations}"
  | .migration version violations =>
    s!"Migration to {version} failed schema validation: {violationText violations}"
  | .unknownVersion version => s!"Unknown settings version: {version}"
  | .notAMapping found => s!"Settings document must be a mapping, got {found.kindName}"
  | .file error => error.message

/-! ## Documents -/

/-- The settings document at a path. -/
def FileTree.loadDocument (t : FileTree) (p : Path) : Except SettingsError Fields := do
  match ← (t.load p Source.value?).mapError .file with
  | .object members => .ok members
  | found => .error (.notAMapping found)

/-- Writes a settings document. -/
def saveDocument (p : Path) (document : Fields) : Change SettingsError Unit :=
  (save p document).mapError .file

/-! ## Versions -/

/-- The versions of settings documents. -/
inductive SettingsVersion where
  | first
  | dottedModules
  deriving DecidableEq, Repr

namespace SettingsVersion

def text : SettingsVersion → String
  | .first => "3.0.0"
  | .dottedModules => "3.0.1"

/-- All versions, earlier ones first. -/
def all : List SettingsVersion := [.first, .dottedModules]

def ofText? (s : String) : Option SettingsVersion := all.find? fun v => v.text = s

/-- The fields of a settings document. -/
def fields : List Field := [
  ⟨"server", .string, none⟩,
  ⟨"next_server", .string, none⟩,
  ⟨"tftpboot_location", .string, some (.text "/srv/tftpboot")⟩,
  ⟨"webdir", .string, some (.text "/var/www/bootsync")⟩,
  ⟨"bootloaders_dir", .string, some (.text "/var/lib/bootsync/loaders")⟩,
  ⟨"http_port", .int, some (.number (.int 80))⟩,
  ⟨"manage_dhcp", .bool, some (.bool false)⟩,
  ⟨"manage_dns", .bool, some (.bool false)⟩,
  ⟨"manage_tftpd", .bool, some (.bool true)⟩,
  ⟨"enable_menu", .bool, some (.bool true)⟩,
  ⟨"pxe_just_once", .bool, some (.bool true)⟩,
  ⟨"default_virt_ram", .int, some (.number (.int 512))⟩,
  ⟨"auth_token_expiration", .int, some (.number (.int 3600))⟩,
  ⟨"kernel_options", .map, some (.object [])⟩,
  ⟨"build_reporting_email", .list, some (.list [])⟩,
  ⟨"default_ownership", .list, some (.list [.text "admin"])⟩,
  ⟨"default_kickstart", .any, some .null⟩]

def schema (v : SettingsVersion) : Schema := ⟨v.text, fields⟩

/-- Whether migrating to the version renames modules. -/
def renamesModules : SettingsVersion → Bool
  | .first => false
  | .dottedModules => true

/-- Whether a document conforms to the version. -/
def isValid (v : SettingsVersion) (document : Fields) : Bool := (v.schema.normalize document).isOk

/-- The document in the form of the version. -/
def normalize (v : SettingsVersion) (document : Fields) : Except SettingsError Fields :=
  (v.schema.normalize document).mapError (.invalid v.text)

end SettingsVersion

/-! ## Migration -/

/-- The module configuration unless another one is named. -/
def defaultModulesConf : Path := ⟨"/etc/bootsync/modules.conf"⟩

/-- Renames the modules in a module configuration; a file without older names is not written. Gives
the number of names. -/
def renameModulesIn (p : Path) : Change FileError Nat := do
  let content ← Change.inspect fun t => t.textAt p
  let (renamed, count) := ModuleNames.rename content
  if count > 0 then writeText p renamed
  pure count

/-- Migrates a document to a version. -/
def migrate (v : SettingsVersion) (modulesConf : Path) (document : Fields) :
    Change SettingsError Fields := do
  let normalized ← Change.inspect fun _ =>
    (v.schema.normalize document).mapError (SettingsError.migration v.text)
  if v.renamesModules then
    let _ ← (renameModulesIn modulesConf).mapError SettingsError.file
  pure normalized

/-- Migrates a document to the version that a text names. -/
def migrateTo (version : String) (modulesConf : Path) (document : Fields) :
    Change SettingsError Fields :=
  match SettingsVersion.ofText? version with
  | some v => migrate v modulesConf document
  | none => Change.inspect fun _ => .error (.unknownVersion version)

/-- Migrates the document in a file and writes it to another one, or back. -/
def migrateFile (source : Path) (version : String) (modulesConf destination : Path) :
    Change SettingsError Fields := do
  let document ← Change.inspect fun t => t.loadDocument source
  let migrated ← migrateTo version modulesConf document
  saveDocument destination migrated
  pure migrated

end BootTree

/-
  Documents in files: the extension of a path tells the format, and a document is read and written
  as a whole.
-/
import BootTree.Files.Change
import BootTree.Json.Parser
import BootTree.Registry.Registry
import BootTree.Settings.Server
import BootTree.Toml.Parser
import BootTree.Toml.Printer
import BootTree.Yaml.Parser
import BootTree.Yaml.Printer

namespace BootTree

namespace Format

/-- The format that an extension stands for, in any letter case. -/
def ofExtension? (extension : String) : Option Format :=
  match Text.lowerAscii extension with
  | "toml" => some .toml
  | "json" => some .json
  | "yaml" | "yml" => some .yaml
  | _ => none

/-- The format of the document at a path. -/
def ofPath (p : Path) : Except FileError Format :=
  let extension := p.extension?.getD ""
  match ofExtension? extension with
  | some format => .ok format
  | none => .error (.unknownFormat extension)

/-- The document that a text is. -/
def parse (format : Format) (text : String) : Option Source :=
  match format with
  | .json => Json.parse text
  | .yaml => Yaml.parse text
  | .toml => Toml.parse text

/-- The text of a document, if the format has one for it. -/
def print (format : Format) (document : Fields) : Option String :=
  match format with
  | .json => some (Json.pretty (.object document))
  | .yaml => some (Yaml.print (.object document))
  | .toml => Toml.print document

end Format

/-- Reads the document at a path. -/
def FileTree.load (t : FileTree) (p : Path) (read : Source → Option α) : Except FileError α := do
  let format ← Format.ofPath p
  let text ← t.textAt p
  match (format.parse text).bind read with
  | some a => .ok a
  | none => .error (.unreadable p.text format)

/-- Writes a document to a path. -/
def save (p : Path) (document : Fields) : Change FileError Unit := do
  let format ← Change.inspect fun _ => Format.ofPath p
  match format.print document with
  | some text => writeText p text
  | none => Change.inspect fun _ => .error (.unwritable p.text format)

/-- The settings of a boot server in a file. -/
def FileTree.loadSettings (t : FileTree) (p : Path) : Except RegistryError Settings :=
  (t.load p Settings.read).mapError .file

/-- The registry in a file, every record checked. -/
def FileTree.loadRegistry (t : FileTree) (p : Path) : Except RegistryError Registry := do
  let records ← (t.load p Registry.read).mapError .file
  records.check

end BootTree

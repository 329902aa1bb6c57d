/-
  What a pass over the boot tree works with, and how it fails.
-/
import BootTree.Blend

namespace BootTree

/-- Why a pass, or a part of one, fails. -/
inductive SyncError where
  | unknownVariable (template name : String)
  | blankIdentifier (index : Nat)
  | ambiguousHost (identifier : String) (count : Nat)
  | distroNotFound (name : String)
  | missingArtifact (owner path : String)
  | missingMenuEntry (host : String)
  | file (error : FileError)
  | registry (error : RegistryError)
  deriving DecidableEq

def SyncError.message : SyncError → String
  | .unknownVariable template name =>
    s!"Failed to render template {Text.quoted template}: unknown variable '{name}'"
  | .blankIdentifier index => s!"Host identifier at position {index} is empty"
  | .ambiguousHost identifier count =>
    s!"Ambiguous host identifier '{identifier}' matches {count} hosts"
  | .distroNotFound name => s!"Distro not found: {name}"
  | .missingArtifact owner path => s!"Missing boot artifact for {owner}: {path}"
  | .missingMenuEntry host => s!"No menu entry for host {host}"
  | .file error => error.message
  | .registry error => error.message

/-- How templates are rendered. -/
structure Renderer where
  render : String → Fields → Except SyncError String

/-- The renderer that fills placeholders. A strict one refuses a name without a value, the other one
leaves its placeholder as it is. -/
def Renderer.placeholders (strict : Bool) : Renderer where
  render template vars :=
    (Template.render strict template vars none).mapError (.unknownVariable template)

/-- Settings, registry, and how views and texts are made from them. -/
structure Context where
  settings : Settings
  registry : Registry
  resolver : Resolver
  renderer : Renderer

/-- Views by inheritance and placeholders as templates. -/
def Context.standard (settings : Settings) (registry : Registry) (strict : Bool) : Context :=
  ⟨settings, registry, .inheritance settings registry, .placeholders strict⟩

end BootTree

/-
  The registry of distributions, hosts and images.

  A registry is three lists of records in the order in which they were added. Adding a record checks
  its name, that the name is new among the records of its kind, and for a host that its distribution
  is there; a registry built in this way is valid. Looking something up needs no check, so the
  look-ups are defined on any three lists.
-/
import BootTree.Files.Error
import BootTree.Registry.Record

namespace BootTree

/-- Why a record is refused, or a view on one cannot be made. -/
inductive RegistryError where
  | file (error : FileError)
  | distroNotFound (name : String)
  | unknownDistro (host distro : String)
  | duplicateName (kind : RecordKind) (name : String)
  | invalidName (kind : RecordKind) (name : String)
  | blend (name : String) (mismatch : Mismatch)
  deriving DecidableEq

def RegistryError.message : RegistryError → String
  | .file error => s!"Filesystem error: {error.message}"
  | .distroNotFound name => s!"Distro not found: {name}"
  | .unknownDistro host distro => s!"Host {host} references unknown distro {distro}"
  | .duplicateName kind name => s!"Duplicate {kind.name} name: {name}"
  | .invalidName kind name => s!"Invalid {kind.name} name: {Text.quoted name}"
  | .blend name mismatch => s!"Could not serialize {name} for blending: {mismatch.message}"

/-- Three lists of records, in the order in which they were added. -/
structure Registry where
  distros : List Distro := []
  hosts : List Host := []
  images : List Image := []
  deriving DecidableEq, Inhabited

namespace Registry

/-- The registry without records. -/
def empty : Registry := {}

/-! ## Look-up -/

def findDistro? (r : Registry) (name : String) : Option Distro :=
  r.distros.find? fun d => d.name = name

/-- What an identifier leads to. -/
inductive HostMatch where
  | none
  | one (host : Host)
  | many (hosts : List Host)
  deriving DecidableEq

/-- The hosts whose names match a pattern. -/
def hostsMatching (r : Registry) (identifier : String) : List Host :=
  r.hosts.filter fun h => Glob.matchesName identifier h.name

/-- Looks a host up by its name or by a pattern. -/
def findHost (r : Registry) (identifier : String) : HostMatch :=
  match r.hostsMatching identifier with
  | [] => .none
  | [host] => .one host
  | hosts => .many hosts

/-! ## Adding records

  The registry is changed in place, so that what a refused record leaves is for the operations to
  say. -/

/-- A change of a registry with a result, or an error and the registry as it is then. -/
abbrev Change (α : Type) := ExceptT RegistryError (StateM Registry) α

/-- Refuses a record if the registry is such. -/
def refuseIf (test : Registry → Bool) (e : RegistryError) : Change Unit := do
  if test (← get) then throw e

/-- Refuses the names that are not valid. -/
def checkName (kind : RecordKind) (name : String) : Change Unit :=
  refuseIf (fun _ => !isValidName name) (.invalidName kind name)

/-- Adds a distribution with a valid and new name. -/
def addDistro (distro : Distro) : Change Unit := do
  checkName .distro distro.name
  refuseIf (fun r => (r.findDistro? distro.name).isSome) (.duplicateName .distro distro.name)
  modify fun r => { r with distros := r.distros ++ [distro] }

/-- Adds a host with a valid and new name whose distribution is there. -/
def addHost (host : Host) : Change Unit := do
  checkName .host host.name
  refuseIf (fun r => r.hosts.any fun h => h.name = host.name) (.duplicateName .host host.name)
  refuseIf (fun r => (r.findDistro? host.distro).isNone) (.unknownDistro host.name host.distro)
  modify fun r => { r with hosts := r.hosts ++ [host] }

/-- Adds an image with a valid and new name. -/
def addImage (image : Image) : Change Unit := do
  checkName .image image.name
  refuseIf (fun r => r.images.any fun i => i.name = image.name) (.duplicateName .image image.name)
  modify fun r => { r with images := r.images ++ [image] }

/-- Adds the records of another registry one by one, distributions before hosts. -/
def addAll (records : Registry) : Change Unit := do
  records.distros.forM addDistro
  records.hosts.forM addHost
  records.images.forM addImage

/-- Checks records: the same records, all added to an empty registry. -/
def check (records : Registry) : Except RegistryError Registry :=
  match addAll records empty with
  | (.ok (), r) => .ok r
  | (.error e, _) => .error e

/-! ## Documents -/

def toValue (r : Registry) : Value :=
  .object [
    ("distros", .list (r.distros.map Distro.toValue)),
    ("hosts", .list (r.hosts.map Host.toValue)),
    ("images", .list (r.images.map Image.toValue))]

/-- Reads the records of a registry document, unchecked. -/
def read (s : Source) : Option Registry := do
  let slots ← s.slots ["distros", "hosts", "images"]
  let distros ← Source.optional slots "distros" [] (Source.asList Distro.read)
  let hosts ← Source.optional slots "hosts" [] (Source.asList Host.read)
  let images ← Source.optional slots "images" [] (Source.asList Image.read)
  some { distros, hosts, images }

end Registry

end BootTree

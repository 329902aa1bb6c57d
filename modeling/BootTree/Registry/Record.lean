/-
  The records of the registry: distributions, hosts with their interfaces, and images that stand for
  themselves; each with its form as data and its reader.

  The paths in a record are texts, as a document gives them. So a record always has a form as data,
  and nothing here stands for a path that is no text.
-/
import BootTree.Registry.TemplateFiles
import BootTree.Text.Class

namespace BootTree

/-- An optional text as data. -/
def Value.ofOptionalText : Option String → Value
  | some s => .text s
  | none => .null

/-! ## Distributions -/

/-- A distribution: a kernel and an initial ram disk, options for the kernel, and boot files. The
paths of kernel and ram disk are texts. -/
structure Distro where
  name : String
  arch : Option String := none
  kernel : String
  initrd : String
  kernelOptions : Fields := []
  templateFiles : TemplateFiles := .empty
  templateVariables : Fields := []
  deriving DecidableEq, Inhabited

namespace Distro

def toValue (d : Distro) : Value :=
  .object [
    ("name", .text d.name),
    ("arch", .ofOptionalText d.arch),
    ("kernel", .text d.kernel),
    ("initrd", .text d.initrd),
    ("kernel_options", .object d.kernelOptions),
    ("template_files", d.templateFiles.toValue),
    ("variables", .object d.templateVariables)]

def fieldNames : List String :=
  ["name", "arch", "kernel", "initrd", "kernel_options", "template_files", "variables"]

def read (s : Source) : Option Distro := do
  let slots ← s.slots fieldNames
  let name ← Source.required slots "name" Source.asText
  let arch ← Source.optional slots "arch" none Source.asOptionalText
  let kernel ← Source.required slots "kernel" Source.asText
  let initrd ← Source.required slots "initrd" Source.asText
  let kernelOptions ← Source.optional slots "kernel_options" [] Source.asFields
  let templateFiles ← Source.optional slots "template_files" .empty fun s =>
    (TemplateFiles.read s).toOption
  let templateVariables ← Source.optional slots "variables" [] Source.asFields
  some { name, arch, kernel, initrd, kernelOptions, templateFiles, templateVariables }

/-- The distribution with one more declared file. -/
def withTemplateFile (d : Distro) (destination source : String) : Distro :=
  { d with templateFiles := d.templateFiles.insert destination source }

def withKernelOption (d : Distro) (key : String) (value : Value) : Distro :=
  { d with kernelOptions := d.kernelOptions.insert key value }

def withVariable (d : Distro) (key : String) (value : Value) : Distro :=
  { d with templateVariables := d.templateVariables.insert key value }

end Distro

/-! ## Hosts -/

/-- A network interface of a host. -/
structure Interface where
  name : String
  macAddress : Option String := none
  ipAddress : Option String := none
  deriving DecidableEq, Inhabited

namespace Interface

def toValue (i : Interface) : Value :=
  .object [
    ("name", .text i.name),
    ("mac_address", .ofOptionalText i.macAddress),
    ("ip_address", .ofOptionalText i.ipAddress)]

def fieldNames : List String := ["name", "mac_address", "ip_address"]

def read (s : Source) : Option Interface := do
  let slots ← s.slots fieldNames
  let name ← Source.required slots "name" Source.asText
  let macAddress ← Source.optional slots "mac_address" none Source.asOptionalText
  let ipAddress ← Source.optional slots "ip_address" none Source.asOptionalText
  some { name, macAddress, ipAddress }

/-- The name of the file that the boot loader looks up for the interface: its address in lower case
with dashes, behind the number of the hardware type. -/
def bootFileName? (i : Interface) : Option String := do
  let mac ← i.macAddress
  match Text.trim mac.toList with
  | [] => none
  | address =>
    let lower := (Text.lowercase (String.ofList address)).toList
    some ("01-" ++ String.ofList (lower.map fun c => if c = ':' then '-' else c))

end Interface

/-- A host that boots a distribution, or falls through to its own disk. -/
structure Host where
  name : String
  distro : String
  hostname : Option String := none
  netboot : Bool := true
  interfaces : List Interface := []
  kernelOptions : Fields := []
  templateFiles : TemplateFiles := .empty
  templateVariables : Fields := []
  deriving DecidableEq, Inhabited

namespace Host

def toValue (h : Host) : Value :=
  .object [
    ("name", .text h.name),
    ("distro", .text h.distro),
    ("hostname", .ofOptionalText h.hostname),
    ("netboot_enabled", .bool h.netboot),
    ("interfaces", .list (h.interfaces.map Interface.toValue)),
    ("kernel_options", .object h.kernelOptions),
    ("template_files", h.templateFiles.toValue),
    ("variables", .object h.templateVariables)]

def fieldNames : List String :=
  ["name", "distro", "hostname", "netboot_enabled", "interfaces", "kernel_options",
    "template_files", "variables"]

def read (s : Source) : Option Host := do
  let slots ← s.slots fieldNames
  let name ← Source.required slots "name" Source.asText
  let distro ← Source.required slots "distro" Source.asText
  let hostname ← Source.optional slots "hostname" none Source.asOptionalText
  let netboot ← Source.optional slots "netboot_enabled" true Source.asBool
  let interfaces ← Source.optional slots "interfaces" [] (Source.asList Interface.read)
  let kernelOptions ← Source.optional slots "kernel_options" [] Source.asFields
  let templateFiles ← Source.optional slots "template_files" .empty fun s =>
    (TemplateFiles.read s).toOption
  let templateVariables ← Source.optional slots "variables" [] Source.asFields
  some { name, distro, hostname, netboot, interfaces, kernelOptions, templateFiles,
         templateVariables }

/-- The host with one more interface. -/
def withInterface (h : Host) (i : Interface) : Host := { h with interfaces := h.interfaces ++ [i] }

/-- The host with one more declared file. -/
def withTemplateFile (h : Host) (destination source : String) : Host :=
  { h with templateFiles := h.templateFiles.insert destination source }

def withKernelOption (h : Host) (key : String) (value : Value) : Host :=
  { h with kernelOptions := h.kernelOptions.insert key value }

def withVariable (h : Host) (key : String) (value : Value) : Host :=
  { h with templateVariables := h.templateVariables.insert key value }

end Host

/-! ## Images -/

/-- An image that boots without a distribution. The path of its file is a text. -/
structure Image where
  name : String
  file : String
  deriving DecidableEq, Inhabited, Repr

namespace Image

def toValue (i : Image) : Value := .object [("name", .text i.name), ("file", .text i.file)]

def read (s : Source) : Option Image := do
  let slots ← s.slots ["name", "file"]
  let name ← Source.required slots "name" Source.asText
  let file ← Source.required slots "file" Source.asText
  some { name, file }

end Image

/-! ## Names -/

/-- The kinds of records. -/
inductive RecordKind where
  | distro
  | host
  | image
  deriving DecidableEq, Repr

def RecordKind.name : RecordKind → String
  | .distro => "distro"
  | .host => "host"
  | .image => "image"

/-- Whether a name can stand as one segment of a path: it is not empty, has neither blanks nor
slashes, and is not `.` or `..`. -/
def isValidName (name : String) : Bool :=
  !(name.toList.isEmpty || name.toList.any Text.isBlank || name.toList.contains '/'
    || name.toList.contains '\\' || name = "." || name = "..")

end BootTree

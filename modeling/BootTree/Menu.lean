/-
  The boot menu: one entry for everything that boots, and the text that the boot loader reads.
-/
import BootTree.Value

namespace BootTree

/-- What an entry boots. -/
inductive EntryKind where
  | distro
  | host
  deriving DecidableEq, Repr, Inhabited

def EntryKind.name : EntryKind → String
  | .distro => "distro"
  | .host => "host"

/-- An entry; kernel and initial ram disk are paths below the boot root. -/
structure MenuEntry where
  name : String
  kind : EntryKind
  kernel : String
  initrd : String
  append : String
  deriving DecidableEq, Repr, Inhabited

namespace MenuEntry

/-- The label. The prefix tells a host from a distribution of the same name, but not from one whose
name has the prefix too. -/
def label (e : MenuEntry) : String :=
  match e.kind with
  | .distro => e.name
  | .host => "host-" ++ e.name

/-- The command line: the initial ram disk first, then the options if there are any. -/
def commandLine (e : MenuEntry) : String :=
  "initrd=" ++ e.initrd ++ (if e.append = "" then "" else " " ++ e.append)

/-- The block of the entry in a boot file. -/
def block (e : MenuEntry) : String :=
  "LABEL " ++ e.label ++ "\n\tMENU LABEL " ++ e.name ++ "\n\tkernel " ++ e.kernel
    ++ "\n\tappend " ++ e.commandLine ++ "\n\tipappend 2\n"

def toValue (e : MenuEntry) : Value :=
  .object [
    ("name", .text e.name),
    ("kind", .text e.kind.name),
    ("kernel", .text e.kernel),
    ("initrd", .text e.initrd),
    ("append", .text e.append)]

end MenuEntry

/-- A menu: its title and its entries in order. -/
structure Menu where
  title : String := ""
  entries : List MenuEntry := []
  deriving DecidableEq, Repr, Inhabited

namespace Menu

/-- The first entry of a kind with a name. -/
def find? (m : Menu) (kind : EntryKind) (name : String) : Option MenuEntry :=
  m.entries.find? fun e => e.kind = kind && e.name = name

def hostEntry? (m : Menu) (name : String) : Option MenuEntry := m.find? .host name

/-- The text before the entries. -/
def header (m : Menu) : String :=
  "DEFAULT menu\nPROMPT 0\nMENU TITLE " ++ m.title
    ++ "\nTIMEOUT 200\nTOTALTIMEOUT 6000\nONTIMEOUT local\n\n"
    ++ "LABEL local\n\tMENU LABEL (local)\n\tMENU DEFAULT\n\tLOCALBOOT -1\n"

/-- The text of the whole menu. -/
def render (m : Menu) : String :=
  m.header ++ String.join (m.entries.map fun e => "\n" ++ e.block) ++ "\nMENU end\n"

def toValue (m : Menu) : Value :=
  .object [("title", .text m.title), ("entries", .list (m.entries.map MenuEntry.toValue))]

end Menu

end BootTree

/-
  The settings of a boot server: where its trees are, which loaders it stages, and the defaults that
  every view on a record starts from.
-/
import BootTree.Path
import BootTree.Registry.Record

namespace BootTree

/-- The settings of a boot server, each with its default. -/
structure Settings where
  server : String := "127.0.0.1"
  nextServer? : Option String := none
  tftpRoot : String := "/srv/tftpboot"
  webRoot : String := "/var/www/bootsync"
  loadersDirectory : String := "/var/lib/bootsync/loaders"
  loaders : List String := ["pxelinux.0", "ldlinux.c32", "menu.c32"]
  menuTitle : String := "Network Boot Menu"
  kernelOptions : Fields := []
  templateVariables : Fields := []
  deriving DecidableEq, Inhabited

namespace Settings

/-- The server that hosts load from; the server itself unless another one is named. -/
def nextServer (s : Settings) : String := s.nextServer?.getD s.server

def bootRoot (s : Settings) : Path := .ofText s.tftpRoot

def webPath (s : Settings) : Path := .ofText s.webRoot

/-- The default settings with another boot root. -/
def ofBootRoot (root : String) : Settings := { tftpRoot := root }

def toValue (s : Settings) : Value :=
  .object [
    ("server", .text s.server),
    ("next_server", .ofOptionalText s.nextServer?),
    ("tftpboot_location", .text s.tftpRoot),
    ("webdir", .text s.webRoot),
    ("bootloaders_dir", .text s.loadersDirectory),
    ("bootloaders", .list (s.loaders.map .text)),
    ("menu_title", .text s.menuTitle),
    ("kernel_options", .object s.kernelOptions),
    ("variables", .object s.templateVariables)]

def fieldNames : List String :=
  ["server", "next_server", "tftpboot_location", "webdir", "bootloaders_dir", "bootloaders",
    "menu_title", "kernel_options", "variables"]

def read (s : Source) : Option Settings := do
  let slots ← s.slots fieldNames
  let absent : Settings := {}
  let server ← Source.optional slots "server" absent.server Source.asText
  let nextServer? ← Source.optional slots "next_server" none Source.asOptionalText
  let tftpRoot ← Source.optional slots "tftpboot_location" absent.tftpRoot Source.asText
  let webRoot ← Source.optional slots "webdir" absent.webRoot Source.asText
  let loadersDirectory ←
    Source.optional slots "bootloaders_dir" absent.loadersDirectory Source.asText
  let loaders ← Source.optional slots "bootloaders" absent.loaders (Source.asList Source.asText)
  let menuTitle ← Source.optional slots "menu_title" absent.menuTitle Source.asText
  let kernelOptions ← Source.optional slots "kernel_options" [] Source.asFields
  let templateVariables ← Source.optional slots "variables" [] Source.asFields
  some { server, nextServer?, tftpRoot, webRoot, loadersDirectory, loaders, menuTitle,
         kernelOptions, templateVariables }

end Settings

end BootTree

/-
  The boot files for pxelinux: menu, host files, staged loaders and images below the boot root.
-/
import BootTree.Sync.Generator

namespace BootTree.Pxe

/-- Where the boot loader looks for its menu and for the files of the hosts. -/
def configDirectory (s : Settings) : Path := s.bootRoot.join "pxelinux.cfg"

def menuPath (s : Settings) : Path := (configDirectory s).join "default"

/-- Where kernel and initial ram disk of a distribution are staged. -/
def imageDirectory (s : Settings) (distro : String) : Path :=
  (s.bootRoot.join "images").join distro

/-- An error with files as an error of a pass. -/
def ofFiles (x : Change FileError α) : Change SyncError α := x.mapError .file

/-! ## Menu -/

/-- The name a file keeps when it is staged. -/
def artifactName (path : String) : String := (Trail.ofText path).fileName?.getD path

/-- The path of a staged file as the boot loader sees it. -/
def imagePath (distro artifact : String) : String :=
  "/images/" ++ distro ++ "/" ++ artifactName artifact

/-- The entry that boots a distribution with the options of a view. -/
def menuEntry (renderer : Renderer) (kind : EntryKind) (name : String) (distro : Distro)
    (view : Blended) : Except SyncError MenuEntry := do
  let append ← renderer.render ((view.text? "kernel_options").getD "") view.values
  .ok {
    name, kind
    kernel := imagePath distro.name distro.kernel
    initrd := imagePath distro.name distro.initrd
    append := String.ofList (Text.trim append.toList) }

/-- The entry of a distribution. -/
def distroEntry (ctx : Context) (distro : Distro) : Except SyncError MenuEntry := do
  let view ← (ctx.resolver.blend (.distro distro) true).mapError .registry
  menuEntry ctx.renderer .distro distro.name distro view

/-- The entry of a host; its distribution must be registered. -/
def hostEntry (ctx : Context) (host : Host) : Except SyncError MenuEntry :=
  match ctx.registry.findDistro? host.distro with
  | none => .error (.distroNotFound host.distro)
  | some distro => do
    let view ← (ctx.resolver.blend (.host host) true).mapError .registry
    menuEntry ctx.renderer .host host.name distro view

/-- The menu: all distributions, then the hosts that boot from the net. -/
def computeMenu (ctx : Context) : Except SyncError Menu := do
  let distros ← ctx.registry.distros.mapM (distroEntry ctx)
  let hosts ← (ctx.registry.hosts.filter Host.netboot).mapM (hostEntry ctx)
  .ok ⟨ctx.settings.menuTitle, distros ++ hosts⟩

/-- Writes the menu and gives the fingerprint of its text. -/
def regenerateMenu (ctx : Context) (menu : Menu) : Change SyncError String := do
  ofFiles (writeText (menuPath ctx.settings) menu.render)
  pure (Sha256.fingerprint menu.render.toUTF8)

/-! ## Hosts -/

/-- The boot file of a host that boots from its own disk. -/
def localConfig : String :=
  "DEFAULT local\nPROMPT 0\nTIMEOUT 0\n\nLABEL local\n\tLOCALBOOT 0\n"

/-- The boot file of a host that boots an entry. -/
def entryConfig (e : MenuEntry) : String :=
  "DEFAULT " ++ e.label ++ "\nPROMPT 0\nTIMEOUT 0\n\n" ++ e.block

/-- The text of the boot files of a host. -/
def hostConfig (host : Host) (menu : Menu) : Except SyncError String :=
  if host.netboot then
    match menu.hostEntry? host.name with
    | some e => .ok (entryConfig e)
    | none => .error (.missingMenuEntry host.name)
  else .ok localConfig

/-- The names of the boot files of a host. -/
def bootFileNames (host : Host) : List String := host.interfaces.filterMap Interface.bootFileName?

/-- Writes the boot file of a host for every interface with an address. -/
def writeHostConfig (ctx : Context) (host : Host) (menu : Menu) : Change SyncError Unit := do
  let content ← Change.inspect fun _ => hostConfig host menu
  (bootFileNames host).forM fun name =>
    ofFiles (writeText ((configDirectory ctx.settings).join name) content)

/-- Where a rendered destination is: below the boot root unless it is absolute. -/
def templateDestination (settings : Settings) (destination : String) : Path :=
  if destination.toList.head? = some '/' then .ofText destination
  else settings.bootRoot.join destination

/-- Renders one declared file of a host and writes it. -/
def writeHostTemplate (ctx : Context) (vars : Fields) (entry : String × String) :
    Change SyncError Unit := do
  let source ← Change.inspect fun _ => ctx.renderer.render entry.2 vars
  let template ← Change.inspect fun t => (t.textAt (.ofText source)).mapError .file
  let rendered ← Change.inspect fun _ => ctx.renderer.render template vars
  let destination ← Change.inspect fun _ => ctx.renderer.render entry.1 vars
  ofFiles (writeText (templateDestination ctx.settings destination) rendered)

/-- Renders and writes the declared files of a host, and gives their number. -/
def writeHostTemplates (ctx : Context) (host : Host) : Change SyncError Nat := do
  if host.templateFiles.isEmpty then pure 0
  else
    let view ← Change.inspect fun _ =>
      (ctx.resolver.blend (.host host) false).mapError SyncError.registry
    host.templateFiles.entries.forM (writeHostTemplate ctx view.values)
    pure host.templateFiles.size

/-! ## Staging -/

/-- Copies one loader if it is there and not current; counts the copies. -/
def stageLoader (directory root : Path) (count : Nat) (loader : String) : Change SyncError Nat := do
  let source := directory.join loader
  if (← get).isFile source.text then
    match ← ofFiles (copyIfChanged source (root.join loader)) with
    | .copied => pure (count + 1)
    | .skipped => pure count
  else pure count

/-- Stages the loaders that are there, and gives the number of copies. -/
def stageLoaders (ctx : Context) (root : Path) : Change SyncError Nat := do
  ofFiles (ensureDirectory root)
  ctx.settings.loaders.foldlM (stageLoader (.ofText ctx.settings.loadersDirectory) root) 0

/-- Copies a kernel, ram disk or image into a directory unless it is current there. -/
def stageArtifact (owner artifact : String) (directory : Path) : Change SyncError CopyStatus := do
  let source := Path.ofText artifact
  if (← get).isFile source.text then
    ofFiles (copyIfChanged source (directory.join (artifactName artifact)))
  else Change.inspect fun _ => .error (.missingArtifact owner artifact)

/-- Stages kernel and initial ram disk of a distribution. -/
def copyDistroImages (ctx : Context) (distro : Distro) : Change SyncError Unit := do
  let directory := imageDirectory ctx.settings distro.name
  ofFiles (ensureDirectory directory)
  let _ ← stageArtifact distro.name distro.kernel directory
  let _ ← stageArtifact distro.name distro.initrd directory

/-- Stages one image in a directory of its own; counts the copies. -/
def copyImage (root : Path) (count : Nat) (image : Image) : Change SyncError Nat := do
  let directory := root.join image.name
  ofFiles (ensureDirectory directory)
  match ← stageArtifact image.name image.file directory with
  | .copied => pure (count + 1)
  | .skipped => pure count

/-- Stages the images that stand for themselves, and gives the number of copies. -/
def copyImages (ctx : Context) : Change SyncError Nat :=
  ctx.registry.images.foldlM (copyImage (ctx.settings.bootRoot.join "images2")) 0

/-! ## The generator -/

/-- The generator that writes these files. It remembers nothing. -/
def generator (ctx : Context) : Generator σ where
  writeHostConfig host menu := .ofChange (writeHostConfig ctx host menu)
  writeHostTemplates host := .ofChange (writeHostTemplates ctx host)
  computeMenu := .ofChange (Change.inspect fun _ => computeMenu ctx)
  regenerateMenu menu := .ofChange (regenerateMenu ctx menu)
  stageLoaders root := .ofChange (stageLoaders ctx root)
  copyDistroImages distro := .ofChange (copyDistroImages ctx distro)
  copyImages := .ofChange (copyImages ctx)

end BootTree.Pxe

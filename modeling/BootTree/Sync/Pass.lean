/-
  Passes over the boot tree: a full one regenerates everything, a partial one the files of the hosts
  that are named, and both end with the menu.

  In a full pass nothing that concerns a distribution or an image stops the pass; it is recorded and
  the next one follows. A failure with a host stops the pass before the menu is written.
-/
import BootTree.Sync.Copier
import BootTree.Sync.Generator

namespace BootTree

/-- What a pass did. -/
inductive Action where
  | stagedLoaders (count : Nat)
  | copiedFiles (copied attempted : Nat) (distro : String)
  | stagedImages (count : Nat)
  | wroteHosts (count : Nat)
  | wroteHost (name : String)
  | skippedHost (identifier : String)
  | regeneratedMenu
  deriving DecidableEq

def Action.message : Action → String
  | .stagedLoaders count => s!"Staged {count} boot loader(s)"
  | .copiedFiles copied attempted distro => s!"Copied {copied} of {attempted} file(s) for {distro}"
  | .stagedImages count => s!"Staged {count} image(s)"
  | .wroteHosts count => s!"Wrote boot config for {count} host(s)"
  | .wroteHost name => s!"Wrote boot config for {name}"
  | .skippedHost identifier => s!"Skipped unknown host {identifier}"
  | .regeneratedMenu => "Regenerated boot menu"

/-- What went wrong without stopping the pass. -/
inductive Trouble where
  | distro (name : String) (error : SyncError)
  | copy (failure : CopyFailure)
  | images (error : SyncError)
  deriving DecidableEq

def Trouble.message : Trouble → String
  | .distro name error => s!"{name}: {error.message}"
  | .copy failure => failure.message
  | .images error => s!"images: {error.message}"

/-- The report of a pass that ran to its end. -/
structure SyncReport where
  actions : List Action := []
  troubles : List Trouble := []
  distros : List CopyReport := []
  hostsSynced : Nat := 0
  menuChecksum? : Option String := none
  deriving DecidableEq

namespace SyncReport

/-- Whether anything went wrong. -/
def hasErrors (r : SyncReport) : Bool := !r.troubles.isEmpty || r.distros.any fun c => !c.isClean

/-- One report after another. -/
def append (a b : SyncReport) : SyncReport where
  actions := a.actions ++ b.actions
  troubles := a.troubles ++ b.troubles
  distros := a.distros ++ b.distros
  hostsSynced := a.hostsSynced + b.hostsSynced
  menuChecksum? := b.menuChecksum? <|> a.menuChecksum?

instance : Append SyncReport := ⟨append⟩

end SyncReport

namespace Sync

variable {σ : Type}

/-- Writes everything for one host; without a menu the menu is computed first. -/
def syncHost (g : Generator σ) (host : Host) (menu? : Option Menu) : Work σ Unit := do
  let menu ← match menu? with
    | some menu => pure menu
    | none => g.computeMenu
  g.writeHostConfig host menu
  let _ ← g.writeHostTemplates host

/-- The part of the report that the copies of a distribution make. -/
def copyPart (distro : Distro) : Except SyncError CopyReport → SyncReport
  | .ok r => {
      actions := [.copiedFiles r.copied r.attempted distro.name]
      troubles := r.failures.map .copy
      distros := [r] }
  | .error e => { troubles := [.distro distro.name e] }

/-- Stages the images of a distribution and copies its files. -/
def syncDistro (ctx : Context) (g : Generator σ) (distro : Distro) : Work σ SyncReport := do
  let staged ← (g.copyDistroImages distro).outcome
  let copies ← (Work.ofChange (copyDistroFiles ctx distro)).outcome
  let stagePart : SyncReport := match staged with
    | .ok () => {}
    | .error e => { troubles := [.distro distro.name e] }
  pure (stagePart ++ copyPart distro copies)

/-- The distributions in turn. -/
def syncDistros (ctx : Context) (g : Generator σ) : List Distro → Work σ SyncReport
  | [] => pure {}
  | distro :: rest => do
    let r ← syncDistro ctx g distro
    let rs ← syncDistros ctx g rest
    pure (r ++ rs)

/-- The hosts in turn. -/
def syncHosts (g : Generator σ) (menu : Menu) : List Host → Work σ Unit
  | [] => pure ()
  | host :: rest => do
    syncHost g host (some menu)
    syncHosts g menu rest

/-- The images that stand for themselves. -/
def imagesPart : Except SyncError Nat → SyncReport
  | .ok count => { actions := [.stagedImages count] }
  | .error e => { troubles := [.images e] }

/-- A full pass. -/
def full (ctx : Context) (g : Generator σ) : Work σ SyncReport := do
  let loaders ← g.stageLoaders ctx.settings.bootRoot
  let distros ← syncDistros ctx g ctx.registry.distros
  let images ← g.copyImages.outcome
  let menu ← g.computeMenu
  syncHosts g menu ctx.registry.hosts
  let checksum ← g.regenerateMenu menu
  let count := ctx.registry.hosts.length
  pure (({ actions := [.stagedLoaders loaders] } : SyncReport) ++ distros ++ imagesPart images ++
    { actions := [.wroteHosts count, .regeneratedMenu]
      hostsSynced := count
      menuChecksum? := some checksum })

/-- Whether an identifier has nothing but blanks. -/
def isBlankIdentifier (identifier : String) : Bool := identifier.toList.all Text.isBlank

/-- The hosts that identifiers lead to, and the identifiers that lead nowhere; an identifier that
leads to several hosts is an error. -/
def resolveHosts (registry : Registry) :
    List String → Except SyncError (List Host × List Action)
  | [] => .ok ([], [])
  | identifier :: rest =>
    match registry.findHost identifier with
    | .many hosts => .error (.ambiguousHost identifier hosts.length)
    | .one host => do
      let (hosts, actions) ← resolveHosts registry rest
      .ok (host :: hosts, actions)
    | .none => do
      let (hosts, actions) ← resolveHosts registry rest
      .ok (hosts, .skippedHost identifier :: actions)

/-- Checks the identifiers before anything is done. -/
def checkIdentifiers (registry : Registry) (identifiers : List String) :
    Except SyncError (List Host × List Action) :=
  match identifiers.findIdx? isBlankIdentifier with
  | some index => .error (.blankIdentifier index)
  | none => resolveHosts registry identifiers

/-- A partial pass over the hosts that identifiers name. -/
def partialPass (ctx : Context) (g : Generator σ) (identifiers : List String) :
    Work σ SyncReport := do
  let (hosts, skipped) ← ExceptT.mk (pure (checkIdentifiers ctx.registry identifiers))
  let menu ← g.computeMenu
  syncHosts g menu hosts
  let checksum ← g.regenerateMenu menu
  pure {
    actions := skipped ++ hosts.map (fun h => .wroteHost h.name) ++ [.regeneratedMenu]
    hostsSynced := hosts.length
    menuChecksum? := some checksum }

/-- The files of all distributions; one without a view is left out. -/
def copyAllDistroFiles (ctx : Context) : List Distro → FileTree → List CopyReport × FileTree
  | [], t => ([], t)
  | distro :: rest, t =>
    let (r, t) := copyDistroFiles ctx distro t
    let (reports, t) := copyAllDistroFiles ctx rest t
    (r.toOption.toList ++ reports, t)

/-- Stages one distribution and copies its files; unlike in a pass, a failure to stage it ends the
work. -/
def addDistro (ctx : Context) (g : Generator σ) (distro : Distro) : Work σ CopyReport := do
  g.copyDistroImages distro
  .ofChange (copyDistroFiles ctx distro)

end Sync

end BootTree

/-
  Copying the files that a distribution declares into the boot tree.

  Every declared entry is rendered, resolved to copy tasks on the tree as it is then, and each task
  is carried out unless its destination is there already. A failure is recorded where it happens and
  stops neither the other tasks nor the other entries.
-/
import BootTree.Files.Change
import BootTree.Glob.Expand
import BootTree.Sync.Context

namespace BootTree

/-- One file to copy. -/
structure CopyTask where
  source : Path
  destination : Path
  deriving DecidableEq, Repr

/-- A copy that was not made. The texts are the paths, or the templates where these could not be
rendered. -/
structure CopyFailure where
  distro : String
  source : String
  destination : String
  error : SyncError
  deriving DecidableEq

def CopyFailure.message (f : CopyFailure) : String :=
  s!"failed to copy {f.source} to {f.destination} for {f.distro}: {f.error.message}"

/-- What became of an entry or of one of its files. -/
inductive CopyOutcome where
  | copied (task : CopyTask)
  | skipped (task : CopyTask)
  | noMatch (source destination : String)
  | failed (failure : CopyFailure)
  deriving DecidableEq

/-- What became of the declared files of a distribution, in order. -/
structure CopyReport where
  distro : String
  outcomes : List CopyOutcome
  deriving DecidableEq

namespace CopyOutcome

def isCopied : CopyOutcome → Bool
  | .copied _ => true
  | _ => false

def isSkipped : CopyOutcome → Bool
  | .skipped _ => true
  | _ => false

def isNoMatch : CopyOutcome → Bool
  | .noMatch _ _ => true
  | _ => false

def failure? : CopyOutcome → Option CopyFailure
  | .failed f => some f
  | _ => none

end CopyOutcome

namespace CopyReport

/-- The number of files, failed ones included. -/
def attempted (r : CopyReport) : Nat := r.outcomes.countP fun o => !o.isNoMatch

def copied (r : CopyReport) : Nat := r.outcomes.countP CopyOutcome.isCopied

def skipped (r : CopyReport) : Nat := r.outcomes.countP CopyOutcome.isSkipped

def failures (r : CopyReport) : List CopyFailure := r.outcomes.filterMap CopyOutcome.failure?

def isClean (r : CopyReport) : Bool := r.failures.isEmpty

end CopyReport

/-! ## Tasks -/

/-- The destination of a match: under its own name in the destination, if that is written as a
directory, else beside it. -/
def placeMatch (destination : Path) (name : String) : Path :=
  if destination.endsInSlash then destination.join name else destination.withFileName name

/-- The copies that a rendered entry stands for. A source without wildcards goes to the destination
itself, if it is there. -/
def resolveCopyTasks (t : FileTree) (destination source : String) :
    Except FileError (List CopyTask) :=
  if Glob.isPattern source then do
    let found ← Glob.expand t source
    .ok (found.filterMap fun p =>
      p.fileName?.map fun name => ⟨p, placeMatch (.ofText destination) name⟩)
  else
    let literal := Path.ofText source
    .ok (if t.has literal.text then [⟨literal, .ofText destination⟩] else [])

/-- Carries a task out; the directory of the destination is made if it is missing. -/
def copyTask (task : CopyTask) : Change FileError CopyStatus := do
  match task.destination.parent? with
  | some parent => ensureDirectory parent
  | none => pure ()
  copyIfAbsent task.source task.destination

/-- The outcome of a task. -/
def runTask (distro : String) (task : CopyTask) (t : FileTree) : CopyOutcome × FileTree :=
  match copyTask task t with
  | (.ok .copied, t') => (.copied task, t')
  | (.ok .skipped, t') => (.skipped task, t')
  | (.error e, t') =>
    (.failed ⟨distro, task.source.text, task.destination.text, .file e⟩, t')

/-- Carries tasks out one after another. -/
def runTasks (distro : String) : List CopyTask → FileTree → List CopyOutcome × FileTree
  | [], t => ([], t)
  | task :: rest, t =>
    let (outcome, t) := runTask distro task t
    let (outcomes, t) := runTasks distro rest t
    (outcome :: outcomes, t)

/-! ## Entries -/

/-- Renders both templates of an entry. -/
def renderEntry (renderer : Renderer) (vars : Fields) (entry : String × String) :
    Except SyncError (String × String) := do
  let destination ← renderer.render entry.1 vars
  let source ← renderer.render entry.2 vars
  .ok (destination, source)

/-- Deals with one declared entry: at least one outcome comes of it. -/
def copyEntry (renderer : Renderer) (distro : String) (vars : Fields) (entry : String × String)
    (t : FileTree) : List CopyOutcome × FileTree :=
  match renderEntry renderer vars entry with
  | .error e => ([.failed ⟨distro, entry.2, entry.1, e⟩], t)
  | .ok (destination, source) =>
    match resolveCopyTasks t destination source with
    | .error e => ([.failed ⟨distro, source, destination, .file e⟩], t)
    | .ok [] => ([.noMatch source destination], t)
    | .ok tasks => runTasks distro tasks t

/-- Deals with the entries in turn. -/
def copyEntries (renderer : Renderer) (distro : String) (vars : Fields) :
    List (String × String) → FileTree → List CopyOutcome × FileTree
  | [], t => ([], t)
  | entry :: rest, t =>
    let (block, t) := copyEntry renderer distro vars entry t
    let (outcomes, t) := copyEntries renderer distro vars rest t
    (block ++ outcomes, t)

/-- The variables that every template of a distribution has besides its view. -/
def imageVariables (settings : Settings) (distro : Distro) : Fields := [
  ("local_img_path", .text ((settings.bootRoot.join "images").join distro.name).text),
  ("web_img_path", .text ((settings.webPath.join "distro_mirror").join distro.name).text)]

/-- Copies the files of a distribution. It fails only where there is no view on the distribution, or
its declared files are no mapping. -/
def copyDistroFiles (ctx : Context) (distro : Distro) : Change SyncError CopyReport := fun t =>
  match ctx.resolver.blend (.distro distro) false with
  | .error e => (.error (.registry e), t)
  | .ok view =>
    match view.templateFiles with
    | .error e => (.error (.registry e), t)
    | .ok files =>
      let vars := Fields.insertAll view.values (imageVariables ctx.settings distro)
      let (outcomes, t) := copyEntries ctx.renderer distro.name vars files.entries t
      (.ok ⟨distro.name, outcomes⟩, t)

end BootTree

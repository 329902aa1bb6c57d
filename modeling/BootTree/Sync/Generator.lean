/-
  What is written during a pass: a generator decides on the files, the pass on their order.

  A generator may keep a memory of its own beside the file tree.
-/
import BootTree.Files.Change
import BootTree.Menu
import BootTree.Sync.Context

namespace BootTree

/-- The file tree, and what a generator remembers. -/
structure Site (σ : Type) where
  tree : FileTree
  memory : σ

/-- Work on a site that may stop with an error; what was done till then stays done. -/
abbrev Work (σ α : Type) := ExceptT SyncError (StateM (Site σ)) α

namespace Work

/-- A change of the file tree as work. -/
def ofChange (x : Change SyncError α) : Work σ α := fun site =>
  match x site.tree with
  | (r, t) => (r, { site with tree := t })

/-- Work of which an error is a result like any other. -/
def outcome (w : Work σ α) : Work σ (Except SyncError α) := fun site =>
  match w site with
  | (r, site) => (.ok r, site)

end Work

/-- The ways in which the files of a boot tree are written. -/
structure Generator (σ : Type) where
  /-- Writes the boot files of a host, one for every interface. -/
  writeHostConfig : Host → Menu → Work σ Unit
  /-- Renders and writes the declared files of a host; gives their number. -/
  writeHostTemplates : Host → Work σ Nat
  /-- Makes the menu of everything in the registry. -/
  computeMenu : Work σ Menu
  /-- Writes the menu; gives its fingerprint. -/
  regenerateMenu : Menu → Work σ String
  /-- Stages the boot loaders below a root; gives the number copied. -/
  stageLoaders : Path → Work σ Nat
  /-- Stages kernel and initial ram disk of a distribution. -/
  copyDistroImages : Distro → Work σ Unit
  /-- Stages the images that stand for themselves; gives the number copied. -/
  copyImages : Work σ Nat

end BootTree

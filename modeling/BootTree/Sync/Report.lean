/-
  Reports as data.
-/
import BootTree.Sync.Pass

namespace BootTree

def CopyTask.fields (task : CopyTask) : Fields :=
  [("source", .text task.source.text), ("destination", .text task.destination.text)]

def CopyFailure.fields (f : CopyFailure) : Fields := [
  ("distro", .text f.distro),
  ("source", .text f.source),
  ("destination", .text f.destination),
  ("message", .text f.error.message)]

/-- An outcome as an object that starts with the word for it. -/
def CopyOutcome.toValue : CopyOutcome → Value
  | .copied task => .object (("status", .text "copied") :: task.fields)
  | .skipped task => .object (("status", .text "skipped") :: task.fields)
  | .noMatch source destination =>
    .object [("status", .text "no_match"), ("source", .text source),
      ("destination", .text destination)]
  | .failed failure => .object (("status", .text "failed") :: failure.fields)

def CopyReport.toValue (r : CopyReport) : Value :=
  .object [("distro", .text r.distro), ("outcomes", .list (r.outcomes.map CopyOutcome.toValue))]

/-- The report of a pass that started at a time. -/
def SyncReport.toValue (startedAt : String) (r : SyncReport) : Value :=
  .object [
    ("success", .bool true),
    ("started_at", .text startedAt),
    ("actions", .list (r.actions.map fun a => .text a.message)),
    ("errors", .list (r.troubles.map fun e => .text e.message)),
    ("distros", .list (r.distros.map CopyReport.toValue)),
    ("hosts_synced", .number (.int r.hostsSynced)),
    ("menu_checksum", .ofOptionalText r.menuChecksum?)]

end BootTree

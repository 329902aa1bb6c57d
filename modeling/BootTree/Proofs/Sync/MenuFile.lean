/-
  The menu that a pass leaves.

  1. **Passes** — a pass is about everything or about the hosts that are named (`Scope`).  Whatever
     it is about, one that runs to its end closes with an ending, which makes the menu of the whole
     registry and writes it after everything else (`exists_ending`).

  2. **The file** — what is written last stays: the file of the menu reads as the menu, and its
     fingerprint is the one that the pass reports (`LeavesMenu`).

  3. **Two passes** — the menu is made from the settings and the registry alone, so it is the same
     after any two passes, on any trees (`passes_leave_one_menu`).
-/
import BootTree.Proofs.Settings.Effects
import BootTree.Proofs.Sync.Partial

namespace BootTree.Sync

/-! ## Passes -/

/-- What a pass is about. -/
inductive Scope where
  | everything
  | hosts (identifiers : List String)

variable {σ τ : Type} {ctx : Context} {scope : Scope} {s s' : Site σ} {u u' : Site τ}
  {report report' : SyncReport}

/-- The pass that is about it. -/
def pass (ctx : Context) (g : Generator σ) : Scope → Work σ SyncReport
  | .everything => full ctx g
  | .hosts identifiers => partialPass ctx g identifiers

/-- The hosts that it is about, in the order in which their files are written. -/
def processed (registry : Registry) : Scope → List Host
  | .everything => registry.hosts
  | .hosts identifiers => identifiers.filterMap (hostOf? registry)

/-- A pass that runs to its end closes with an ending, and reports its fingerprint. -/
theorem exists_ending {g : Generator σ} (h : pass ctx g scope s = (.ok report, s')) :
    ∃ s₁ checksum, ending g (processed ctx.registry scope) s₁ = (.ok checksum, s') ∧
      report.menuChecksum? = some checksum := by
  cases scope with
  | everything =>
    obtain ⟨loaders, s₁, distros, s₂, images, s₃, checksum, -, -, -, hending, rfl⟩ :=
      full_eq_ok.mp h
    exact ⟨s₃, checksum, hending, rfl⟩
  | hosts identifiers =>
    rw [pass] at h
    cases hcheck : checkIdentifiers ctx.registry identifiers with
    | error e =>
      rw [partialPass_of_error hcheck] at h
      cases h
    | ok resolved =>
      obtain ⟨hosts, skipped⟩ := resolved
      obtain rfl := hosts_of_checkIdentifiers hcheck
      rw [partialPass_of_ok hcheck] at h
      obtain ⟨checksum, s₁, hending, hreport⟩ := run_bind_eq_ok.mp h
      cases hreport
      exact ⟨s, checksum, hending, rfl⟩

/-! ## The file -/

/-- The file of the menu has the text of the menu, and the report its fingerprint. -/
structure LeavesMenu (ctx : Context) (menu : Menu) (report : SyncReport) (t : FileTree) :
    Prop where
  text : t.textAt (Pxe.menuPath ctx.settings) = .ok menu.render
  checksum : ∃ checksum, report.menuChecksum? = some checksum ∧
    t.fingerprint (Pxe.menuPath ctx.settings) = .ok checksum

/-- The menu is written after the files of the hosts, so they cannot have replaced it. -/
theorem read_of_endingChange {menu : Menu} {hosts : List Host} {checksum : String}
    {t t' : FileTree} (h : Pxe.endingChange ctx menu hosts t = (.ok checksum, t')) :
    t'.read (Pxe.menuPath ctx.settings).text = .ok menu.render.toUTF8 := by
  obtain ⟨_, t₁, -, hmenu⟩ := run_bind_eq_ok.mp h
  obtain ⟨_, t₂, hwrite, hlast⟩ := run_bind_eq_ok.mp hmenu
  cases hlast
  exact (stored_of_writeAtomic_ok (Change.mapError_eq_ok.mp hwrite)).read

/-- A pass that runs to its end leaves the menu of the whole registry. -/
theorem leavesMenu_of_pass (h : pass ctx (Pxe.generator ctx) scope s = (.ok report, s')) :
    ∃ menu, Pxe.computeMenu ctx = .ok menu ∧
      report.menuChecksum? = some (Sha256.fingerprint menu.render.toUTF8) ∧
      LeavesMenu ctx menu report s'.tree := by
  obtain ⟨s₁, checksum, hending, hreport⟩ := exists_ending h
  obtain ⟨menu, t', hmenu, hchange, rfl⟩ := ending_eq_ok.mp hending
  have hread := read_of_endingChange hchange
  have hchecksum := Pxe.endingChange_eq_ok ctx hchange
  rw [hchecksum] at hreport
  exact ⟨menu, hmenu, hreport, textAt_of_read hread, _, hreport, fingerprint_of_read hread⟩

/-! ## Two passes -/

/-- The menu does not depend on the kind of pass.  Any two passes that run to their ends, over
everything or over any hosts, on any trees and whatever they wrote there, report the same checksum.
Each of them leaves the menu of the whole registry in its file, and the checksum is the one of this
file. -/
theorem passes_leave_one_menu (scope scope' : Scope)
    (h : pass ctx (Pxe.generator ctx) scope s = (.ok report, s'))
    (h' : pass ctx (Pxe.generator ctx) scope' u = (.ok report', u')) :
    report.menuChecksum? = report'.menuChecksum? ∧
    ∃ menu, Pxe.computeMenu ctx = .ok menu ∧ LeavesMenu ctx menu report s'.tree ∧
      LeavesMenu ctx menu report' u'.tree := by
  obtain ⟨menu, hmenu, hchecksum, hleaves⟩ := leavesMenu_of_pass h
  obtain ⟨menu', hmenu', hchecksum', hleaves'⟩ := leavesMenu_of_pass h'
  rw [hmenu] at hmenu'
  cases hmenu'
  exact ⟨hchecksum.trans hchecksum'.symm, menu, hmenu, hleaves, hleaves'⟩

/-- A tree without the directories of the small server. -/
def freshTree : FileTree := FileTree.empty [] "9"

theorem exists_partialPass_fresh : ∃ report s', partialPass smallContext (Pxe.generator smallContext)
    ["h"] (⟨freshTree, ()⟩ : Site Unit) = (.ok report, s') :=
  exists_of_isOk (by decide +kernel)

/-- A full pass on one tree of the small server, and a partial one on another. -/
theorem small_passes_leave_one_menu : ∃ report s' report' u',
    full smallContext (Pxe.generator smallContext) (⟨smallTree, ()⟩ : Site Unit) =
      (.ok report, s') ∧
    partialPass smallContext (Pxe.generator smallContext) ["h"] (⟨freshTree, ()⟩ : Site Unit) =
      (.ok report', u') ∧
    report.menuChecksum? = report'.menuChecksum? ∧
    ∃ menu, Pxe.computeMenu smallContext = .ok menu ∧ LeavesMenu smallContext menu report s'.tree ∧
      LeavesMenu smallContext menu report' u'.tree := by
  obtain ⟨report, s', hfull, -⟩ := exists_full_small
  obtain ⟨report', u', hpartial⟩ := exists_partialPass_fresh
  exact ⟨report, s', report', u', hfull, hpartial,
    passes_leave_one_menu .everything (.hosts ["h"]) hfull hpartial⟩

end BootTree.Sync

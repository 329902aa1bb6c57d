/-
  Hosts that are addressed by their own names.

  An identifier is read as a pattern before it is compared, while names are checked and kept apart as
  plain texts.

  1. **Look-up** — an identifier leads to one host exactly if it matches the name of that host and of
     no other one (`Registry.Valid.findHost_eq_one`).

  2. **Own names** — a host whose name has a meaning as a pattern may share its name with others, or
     not have it at all.  `findHost_ownName` says when a host is found by its name: always if the
     name names itself, and otherwise exactly if it matches itself and no other name.  A partial pass
     with the name is then about this host alone.
-/
import BootTree.Proofs.Glob.OwnText
import BootTree.Proofs.PathAlgebra
import BootTree.Proofs.Registry.Additions
import BootTree.Proofs.Sync.Calls
import Mathlib.Data.List.Nodup

namespace BootTree

variable {r : Registry} {identifier : String} {host : Host}

/-! ## Look-up -/

namespace Registry

theorem mem_hostsMatching :
    host ∈ r.hostsMatching identifier ↔
      host ∈ r.hosts ∧ Glob.matchesName identifier host.name = true :=
  List.mem_filter

theorem findHost_eq_one_iff :
    r.findHost identifier = .one host ↔ r.hostsMatching identifier = [host] := by
  rw [findHost]
  split
  · next h => simp [h]
  · next single h => simp [h]
  · next hosts hnone hone =>
    constructor
    · intro h
      cases h
    · intro h
      exact absurd h (hone host)

namespace Valid

theorem nodup_hosts (hr : r.Valid) : r.hosts.Nodup := List.Nodup.of_map Host.name hr.hostsNodup

/-- Two hosts with one name are the same host. -/
theorem host_eq_of_name_eq (hr : r.Valid) {other : Host} (hhost : host ∈ r.hosts)
    (hother : other ∈ r.hosts) (hname : other.name = host.name) : other = host :=
  List.inj_on_of_nodup_map hr.hostsNodup hother hhost hname

/-- An identifier leads to one host if it matches its name and that of no other host. -/
theorem findHost_eq_one (hr : r.Valid) : r.findHost identifier = .one host ↔
    (host ∈ r.hosts ∧ Glob.matchesName identifier host.name = true) ∧
      ∀ other ∈ r.hosts, Glob.matchesName identifier other.name = true → other = host := by
  rw [findHost_eq_one_iff]
  constructor
  · intro hmatching
    have hmem : ∀ other, other ∈ r.hostsMatching identifier ↔ other = host := by
      simp [hmatching]
    refine ⟨mem_hostsMatching.mp ((hmem host).mpr rfl), fun other hother hmatch => ?_⟩
    exact (hmem other).mp (mem_hostsMatching.mpr ⟨hother, hmatch⟩)
  · rintro ⟨hhost, honly⟩
    have hnodup : (r.hostsMatching identifier).Nodup := hr.nodup_hosts.filter _
    have hperm : (r.hostsMatching identifier).Perm [host] := by
      refine (List.perm_ext_iff_of_nodup hnodup (List.nodup_singleton host)).mpr fun other => ?_
      rw [List.mem_singleton]
      constructor
      · intro hother
        obtain ⟨hmem, hmatch⟩ := mem_hostsMatching.mp hother
        exact honly other hmem hmatch
      · rintro rfl
        exact mem_hostsMatching.mpr hhost
    exact List.perm_singleton.mp hperm

end Valid

end Registry

/-! ## Own names -/

namespace Sync

/-- A valid name is no blank identifier. -/
theorem isBlankIdentifier_of_isValidName {name : String} (h : isValidName name = true) :
    isBlankIdentifier name = false := by
  simp only [isValidName, Bool.not_eq_true', Bool.or_eq_false_iff, List.isEmpty_eq_false_iff] at h
  obtain ⟨⟨⟨⟨⟨hempty, hblank⟩, -⟩, -⟩, -⟩, -⟩ := h
  obtain ⟨c, rest, hname⟩ := List.exists_cons_of_ne_nil hempty
  rw [hname, List.any_cons, Bool.or_eq_false_iff] at hblank
  rw [isBlankIdentifier, hname, List.all_cons, hblank.1, Bool.false_and]

/-- An identifier that leads to one host passes the checks and names that host. -/
theorem checkIdentifiers_of_one (hblank : isBlankIdentifier identifier = false)
    (h : r.findHost identifier = .one host) :
    checkIdentifiers r [identifier] = .ok ([host], []) := by
  have hfirst : [identifier].findIdx? isBlankIdentifier = none := by
    simp [List.findIdx?_cons, hblank]
  rw [checkIdentifiers, hfirst]
  show resolveHosts r [identifier] = .ok ([host], [])
  rw [resolveHosts, h]
  rfl

/-- A partial pass over one identifier that leads to one host is the end of a pass with that host
alone. -/
theorem partialPass_of_one {σ : Type} {ctx : Context} (hblank : isBlankIdentifier identifier = false)
    (h : ctx.registry.findHost identifier = .one host) (g : Generator σ) :
    partialPass ctx g [identifier] = ending g [host] >>= fun checksum => pure {
      actions := [.wroteHost host.name, .regeneratedMenu]
      hostsSynced := 1
      menuChecksum? := some checksum } :=
  partialPass_of_ok (checkIdentifiers_of_one hblank h) g

/-- In a registry that was built by additions, a host whose name names itself is found by its name,
and a partial pass with the name is about this host and no other one.  A name that has a meaning as a
pattern is honoured as one: the host is found by it exactly if the name matches itself and the name
of no other host.  As long as there is no set in it, the name matches itself, so that the host is
neither passed over nor taken for another one. -/
theorem findHost_ownName {calls : List Addition} (hr : Addition.runAll calls .empty = r)
    (hhost : host ∈ r.hosts) :
    (Glob.NamesItself host.name → r.findHost host.name = .one host) ∧
    (r.findHost host.name = .one host ↔ Glob.matchesName host.name host.name = true ∧
      ∀ other ∈ r.hosts, Glob.matchesName host.name other.name = true → other = host) ∧
    ('[' ∉ host.name.toList → r.findHost host.name ≠ .none ∧
      ∀ other, r.findHost host.name = .one other → other = host) ∧
    (r.findHost host.name = .one host → ∀ (σ : Type) (ctx : Context) (g : Generator σ),
      ctx.registry = r →
        partialPass ctx g [host.name] = ending g [host] >>= fun checksum => pure {
          actions := [.wroteHost host.name, .regeneratedMenu]
          hostsSynced := 1
          menuChecksum? := some checksum }) := by
  have hvalid : r.Valid := hr ▸ Addition.runAll_valid calls Registry.valid_empty
  have hname : isValidName host.name = true := hvalid.hostNames host hhost
  refine ⟨fun hitself => ?_, ?_, fun hset => ?_, fun hone σ ctx g hctx => ?_⟩
  · -- names are unique, so no other host has the only text that is matched
    refine hvalid.findHost_eq_one.mpr ⟨⟨hhost, ?_⟩, fun other hother hmatch => ?_⟩
    · exact (Glob.matchesName_of_namesItself hitself).mpr rfl
    · have hsame := (Glob.matchesName_of_namesItself hitself).mp hmatch
      exact hvalid.host_eq_of_name_eq hhost hother hsame
  · rw [hvalid.findHost_eq_one, and_iff_right hhost]
  · have hself := Glob.matchesName_self hset (isPlain_of_isValidName hname).slash
    have hmem : host ∈ r.hostsMatching host.name := Registry.mem_hostsMatching.mpr ⟨hhost, hself⟩
    constructor
    · intro hnone
      rw [Registry.findHost] at hnone
      split at hnone
      · next hempty => simp [hempty] at hmem
      · cases hnone
      · cases hnone
    · intro other hone
      exact ((hvalid.findHost_eq_one.mp hone).2 host hhost hself).symm
  · subst hctx
    exact partialPass_of_one (isBlankIdentifier_of_isValidName hname) hone g

/-- A host of which nothing is given but the name. -/
def namedHost (name : String) : Host := { name, distro := "d" }

/-- Calls that add hosts with the names, and the distribution that they boot. -/
def namedHostCalls (names : List String) : List Addition :=
  .distro { name := "d", kernel := "vmlinuz", initrd := "initrd.img" } ::
    names.map fun name => .host (namedHost name)

/-- A host with a plain name is found beside one whose name matches its name.  Even a name with a
bracket names itself if the bracket opens no set. -/
theorem findHost_ownName_besidePattern :
    let r := Addition.runAll (namedHostCalls ["web*", "web01", "[bad"]) .empty
    (namedHost "web01" ∈ r.hosts ∧ Glob.NamesItself "web01" ∧
      r.findHost "web01" = .one (namedHost "web01")) ∧
    namedHost "[bad" ∈ r.hosts ∧ Glob.NamesItself "[bad" ∧
      r.findHost "[bad" = .one (namedHost "[bad") := by
  intro r
  have hweb : namedHost "web01" ∈ r.hosts := by decide +kernel
  have hbad : namedHost "[bad" ∈ r.hosts := by decide +kernel
  have hplain : Glob.NamesItself "web01" := .inl (by decide)
  have hopen : Glob.NamesItself "[bad" := .inr ⟨⟨0, .range⟩, by decide⟩
  exact ⟨⟨hweb, hplain, (findHost_ownName rfl hweb).1 hplain⟩,
    hbad, hopen, (findHost_ownName rfl hbad).1 hopen⟩

/-- But a name with a set leads to other hosts than its own, and a name with a star to others as
well. -/
theorem findHost_ownName_may_fail : ¬ ∀ (calls : List Addition) (host : Host),
    host ∈ (Addition.runAll calls .empty).hosts →
      (Addition.runAll calls .empty).findHost host.name = .one host := by
  intro hall
  have hset := hall (namedHostCalls ["a", "[ab]", "web*", "web01"]) (namedHost "[ab]")
    (by decide +kernel)
  revert hset
  decide +kernel

example : (Addition.runAll (namedHostCalls ["a", "[ab]", "web*", "web01"]) .empty).findHost "[ab]" =
    .one (namedHost "a") := by
  decide +kernel

example : (Addition.runAll (namedHostCalls ["a", "[ab]", "web*", "web01"]) .empty).findHost "web*" =
    .many [namedHost "web*", namedHost "web01"] := by
  decide +kernel

end Sync

end BootTree

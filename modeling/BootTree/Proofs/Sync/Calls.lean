/-
  The calls of a partial pass.

  Both kinds of passes end in the same way: the menu is made, the hosts are written one after
  another, and the menu is written (`ending`, `carriesOut_ending`).  A partial pass checks its
  identifiers before that, and a refused one calls nothing.
-/
import BootTree.Proofs.Sync.Trace
import BootTree.Sync.Pass

namespace BootTree.Sync

variable {σ : Type}

/-! ## The ending of a pass -/

/-- The end of every pass, with the hosts that it is about. -/
def ending (g : Generator σ) (hosts : List Host) : Work σ String := do
  let menu ← g.computeMenu
  syncHosts g menu hosts
  g.regenerateMenu menu

/-- The calls for a host. -/
def hostCalls (menu : Menu) (host : Host) : List Call :=
  [.writeHostConfig host menu, .writeHostTemplates host]

/-- The calls at the end of a pass. -/
def endingCalls (menu : Menu) (hosts : List Host) : List Call :=
  .computeMenu :: hosts.flatMap (hostCalls menu) ++ [.regenerateMenu menu]

theorem carriesOut_syncHost (g : Generator σ) (host : Host) (menu : Menu) (s : Site σ) :
    CarriesOut (syncHost g.traced host (some menu)) (syncHost g host (some menu)) s
      (hostCalls menu host) :=
  .bind (p := []) (.pure menu s) fun _ _ hmenu => by
    cases hmenu
    exact .bind (p := [_]) (.call _ _ _) fun _ _ _ =>
      .bind (p := [_]) (q := []) (.call _ _ _) fun _ _ _ => .pure () _

/-- The hosts are written in turn, and a host that fails is the last one. -/
theorem carriesOut_syncHosts (g : Generator σ) (menu : Menu) (hosts : List Host) (s : Site σ) :
    CarriesOut (syncHosts g.traced menu hosts) (syncHosts g menu hosts) s
      (hosts.flatMap (hostCalls menu)) := by
  induction hosts generalizing s with
  | nil => exact .pure () s
  | cons host rest ih =>
    exact .bind (carriesOut_syncHost g host menu s) fun _ s₁ _ => ih s₁

/-- A pass ends with one menu for all hosts and for the menu file. -/
theorem carriesOut_ending (g : Generator σ) (hosts : List Host) (s : Site σ) :
    ∃ menu, (∀ m s₁, g.computeMenu s = (.ok m, s₁) → m = menu) ∧
      CarriesOut (ending g.traced hosts) (ending g hosts) s (endingCalls menu hosts) := by
  have hcompute := CarriesOut.call .computeMenu g.computeMenu s
  cases hrun : g.computeMenu s with
  | mk r s₁ =>
    cases r with
    | error e =>
      refine ⟨default, nofun, .bind (p := [_]) hcompute fun m s₂ h => ?_⟩
      rw [hrun] at h
      cases h
    | ok menu =>
      refine ⟨menu, fun m s₂ h => ?_, .bind (p := [_]) hcompute fun m s₂ h => ?_⟩
      · cases h
        rfl
      · rw [hrun] at h
        cases h
        exact .bind (carriesOut_syncHosts g menu hosts s₁) fun _ s₂ _ => .call _ _ s₂

/-! ## Checking identifiers -/

/-- The host that an identifier leads to, if it is one host. -/
def hostOf? (registry : Registry) (identifier : String) : Option Host :=
  match registry.findHost identifier with
  | .one host => some host
  | _ => none

/-- Whether an identifier leads to several hosts. -/
def isAmbiguous (registry : Registry) (identifier : String) : Bool :=
  2 ≤ (registry.hostsMatching identifier).length

theorem resolveHosts_of_ambiguous {registry : Registry} {identifier : String}
    (h : isAmbiguous registry identifier = true) (rest : List String) :
    resolveHosts registry (identifier :: rest) =
      .error (.ambiguousHost identifier (registry.hostsMatching identifier).length) := by
  rw [isAmbiguous, decide_eq_true_eq] at h
  rw [resolveHosts, Registry.findHost]
  match hm : registry.hostsMatching identifier with
  | [] => simp [hm] at h
  | [host] => simp [hm] at h
  | first :: second :: rest => rfl

/-- An identifier that is not ambiguous adds its host, if it has one, to those of the others. -/
theorem resolveHosts_of_not_ambiguous {registry : Registry} {identifier : String}
    (h : isAmbiguous registry identifier = false) (rest : List String) :
    ∃ skipped, resolveHosts registry (identifier :: rest) =
      (resolveHosts registry rest).map fun resolved =>
        ((hostOf? registry identifier).toList ++ resolved.1, skipped ++ resolved.2) := by
  rw [isAmbiguous, decide_eq_false_iff_not] at h
  rw [resolveHosts, hostOf?, Registry.findHost]
  match hm : registry.hostsMatching identifier with
  | [] =>
    refine ⟨[.skippedHost identifier], ?_⟩
    cases resolveHosts registry rest <;> rfl
  | [host] =>
    refine ⟨[], ?_⟩
    cases resolveHosts registry rest <;> rfl
  | first :: second :: others => simp [hm] at h

/-- The first ambiguous identifier is an error; without one, the hosts are those that the
identifiers lead to, in their order. -/
theorem resolveHosts_spec (registry : Registry) (identifiers : List String) :
    match identifiers.find? (isAmbiguous registry) with
    | some identifier => resolveHosts registry identifiers =
        .error (.ambiguousHost identifier (registry.hostsMatching identifier).length)
    | none => ∃ skipped, resolveHosts registry identifiers =
        .ok (identifiers.filterMap (hostOf? registry), skipped) := by
  induction identifiers with
  | nil => exact ⟨[], rfl⟩
  | cons identifier rest ih =>
    rw [List.find?_cons]
    cases hmany : isAmbiguous registry identifier with
    | true => exact resolveHosts_of_ambiguous hmany rest
    | false =>
      obtain ⟨more, hstep⟩ := resolveHosts_of_not_ambiguous hmany rest
      rw [hstep]
      cases hrest : rest.find? (isAmbiguous registry) with
      | some other =>
        rw [hrest] at ih
        dsimp only at ih ⊢
        rw [ih]
        rfl
      | none =>
        rw [hrest] at ih
        obtain ⟨skipped, ih⟩ := ih
        refine ⟨more ++ skipped, ?_⟩
        rw [ih, List.filterMap_cons]
        cases hostOf? registry identifier <;> rfl

/-- Identifiers that pass the check lead to the hosts that they name. -/
theorem hosts_of_checkIdentifiers {registry : Registry} {identifiers : List String}
    {hosts : List Host} {skipped : List Action}
    (h : checkIdentifiers registry identifiers = .ok (hosts, skipped)) :
    hosts = identifiers.filterMap (hostOf? registry) := by
  rw [checkIdentifiers] at h
  split at h
  · cases h
  · have hresolve := resolveHosts_spec registry identifiers
    split at hresolve
    · rw [hresolve] at h
      cases h
    · obtain ⟨skipped', hresolve⟩ := hresolve
      rw [hresolve] at h
      cases h
      rfl

/-! ## A partial pass -/

theorem partialPass_of_error {ctx : Context} {identifiers : List String} {e : SyncError}
    (h : checkIdentifiers ctx.registry identifiers = .error e) (g : Generator σ) (s : Site σ) :
    partialPass ctx g identifiers s = (.error e, s) := by
  rw [partialPass, h]
  rfl

theorem partialPass_of_ok {ctx : Context} {identifiers : List String} {hosts : List Host}
    {skipped : List Action}
    (h : checkIdentifiers ctx.registry identifiers = .ok (hosts, skipped)) (g : Generator σ) :
    partialPass ctx g identifiers = ending g hosts >>= fun checksum => pure {
      actions := skipped ++ hosts.map (fun h => .wroteHost h.name) ++ [.regeneratedMenu]
      hostsSynced := hosts.length
      menuChecksum? := some checksum } := by
  rw [partialPass, h, ending]
  simp only [bind_assoc]
  rfl

/-- A partial pass that is refused for a blank or an ambiguous identifier, the first one of its
kind, calls nothing.  Any other one makes the menu once, writes the hosts that the identifiers lead
to, in their order and as often as they are named, and writes that menu once; it stops after the
first call that fails. -/
theorem partialPass_calls (ctx : Context) (g : Generator σ) (identifiers : List String)
    (s : Site σ) :
    ∃ r s' events,
      Logs (partialPass ctx g.traced identifiers) (partialPass ctx g identifiers) s s' r events ∧
      match identifiers.findIdx? isBlankIdentifier,
        identifiers.find? (isAmbiguous ctx.registry) with
      | some index, _ => r = .error (.blankIdentifier index) ∧ events = [] ∧ s' = s
      | none, some identifier =>
        r = .error (.ambiguousHost identifier (ctx.registry.hostsMatching identifier).length) ∧
          events = [] ∧ s' = s
      | none, none => ∃ menu, (∀ m s₁, g.computeMenu s = (.ok m, s₁) → m = menu) ∧
          Follows (endingCalls menu (identifiers.filterMap (hostOf? ctx.registry))) events
            (failureOf r) ∧
          ∀ report, r = .ok report →
            report.hostsSynced = (identifiers.filterMap (hostOf? ctx.registry)).length := by
  have hresolve := resolveHosts_spec ctx.registry identifiers
  cases hblank : identifiers.findIdx? isBlankIdentifier with
  | some index =>
    have hcheck : checkIdentifiers ctx.registry identifiers = .error (.blankIdentifier index) := by
      rw [checkIdentifiers, hblank]
    refine ⟨_, s, [], ⟨partialPass_of_error hcheck g s, fun earlier => ?_⟩, rfl, rfl, rfl⟩
    rw [partialPass_of_error hcheck, List.append_nil]
  | none =>
    have hcheck : checkIdentifiers ctx.registry identifiers =
        resolveHosts ctx.registry identifiers := by
      rw [checkIdentifiers, hblank]
    cases hmany : identifiers.find? (isAmbiguous ctx.registry) with
    | some identifier =>
      rw [hmany] at hresolve
      refine ⟨_, s, [], ⟨partialPass_of_error (hcheck.trans hresolve) g s, fun earlier => ?_⟩,
        rfl, rfl, rfl⟩
      rw [partialPass_of_error (hcheck.trans hresolve), List.append_nil]
    | none =>
      rw [hmany] at hresolve
      obtain ⟨skipped, hresolve⟩ := hresolve
      have hcheck := hcheck.trans hresolve
      obtain ⟨menu, hmenu, hcarries⟩ :=
        carriesOut_ending g (identifiers.filterMap (hostOf? ctx.registry)) s
      obtain ⟨r, s', events, hlogs, hfollows⟩ := hcarries
      rw [partialPass_of_ok hcheck, partialPass_of_ok hcheck]
      refine ⟨_, _, _, hlogs.bind_pure _, menu, hmenu, ?_, ?_⟩
      · rw [failureOf_map]
        exact hfollows
      · intro report hreport
        cases r with
        | error e => cases hreport
        | ok checksum =>
          cases hreport
          rfl

end BootTree.Sync

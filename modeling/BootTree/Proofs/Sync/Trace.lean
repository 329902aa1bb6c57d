/-
  Which calls a pass makes, in which order, and which of them fail.

  1. **Tracing** — `Generator.traced` is a generator that does what another one does and also keeps
     a list of its calls, each with its error if it failed.  A pass works with any generator, so a
     pass with the traced one shows what the pass does with the other.

  2. **Logs** — `Logs w' w s s' r events`: the work `w` on a site gives `r` and leaves another site,
     and `w'`, the same work with the traced generator, gives and leaves the same and adds `events`
     to the list.  There is one rule for every way in which work is put together, so the calls of a
     pass are found along its text.

  3. **Plans** — `Follows plan events failure?`: the calls were made as planned up to the first one
     that failed, or all of them.  Plans are put together as the work is (`Follows.append`,
     `Follows.stop`).
-/
import BootTree.Proofs.Outcome
import BootTree.Sync.Generator

namespace BootTree

/-! ## Calls -/

/-- A call of a generator. -/
inductive Call where
  | writeHostConfig (host : Host) (menu : Menu)
  | writeHostTemplates (host : Host)
  | computeMenu
  | regenerateMenu (menu : Menu)
  | stageLoaders (root : Path)
  | copyDistroImages (distro : Distro)
  | copyImages

/-- A call that was made, with its error if it failed. -/
structure Event where
  call : Call
  failure? : Option SyncError

/-- The error of a result, if it is one. -/
def failureOf {α : Type} : Except SyncError α → Option SyncError
  | .ok _ => none
  | .error e => some e

theorem failureOf_map {α β : Type} (r : Except SyncError α) (f : α → β) :
    failureOf (r.map f) = failureOf r := by
  cases r <;> rfl

/-- A memory with the list of the calls made so far. -/
structure Traced (σ : Type) where
  memory : σ
  events : List Event

namespace Site

variable {σ : Type}

/-- The site with a list of calls beside its memory. -/
def withEvents (s : Site σ) (events : List Event) : Site (Traced σ) := ⟨s.tree, ⟨s.memory, events⟩⟩

/-- The site without its list of calls. -/
def withoutEvents (s : Site (Traced σ)) : Site σ := ⟨s.tree, s.memory.memory⟩

end Site

namespace Generator

variable {σ α : Type}

/-- The same work, noted down as a call. -/
def trace (call : Call) (w : Work σ α) : Work (Traced σ) α := fun site =>
  match w site.withoutEvents with
  | (r, s) => (r, s.withEvents (site.memory.events ++ [⟨call, failureOf r⟩]))

/-- The generator that does the same and keeps a list of its calls. -/
def traced (g : Generator σ) : Generator (Traced σ) where
  writeHostConfig host menu := trace (.writeHostConfig host menu) (g.writeHostConfig host menu)
  writeHostTemplates host := trace (.writeHostTemplates host) (g.writeHostTemplates host)
  computeMenu := trace .computeMenu g.computeMenu
  regenerateMenu menu := trace (.regenerateMenu menu) (g.regenerateMenu menu)
  stageLoaders root := trace (.stageLoaders root) (g.stageLoaders root)
  copyDistroImages distro := trace (.copyDistroImages distro) (g.copyDistroImages distro)
  copyImages := trace .copyImages g.copyImages

end Generator

/-! ## Logs -/

/-- Work and the same work with a traced generator: both give the same and leave the same site, and
the traced one notes down these calls. -/
structure Logs {σ α : Type} (w' : Work (Traced σ) α) (w : Work σ α) (s s' : Site σ)
    (r : Except SyncError α) (events : List Event) : Prop where
  run : w s = (r, s')
  runTraced : ∀ earlier, w' (s.withEvents earlier) = (r, s'.withEvents (earlier ++ events))

namespace Logs

variable {σ α β : Type} {s s₁ s₂ : Site σ}

theorem call (c : Call) (w : Work σ α) (s : Site σ) :
    Logs (Generator.trace c w) w s (w s).2 (w s).1 [⟨c, failureOf (w s).1⟩] :=
  ⟨rfl, fun _ => rfl⟩

theorem pure (a : α) (s : Site σ) :
    Logs (Pure.pure a : Work (Traced σ) α) (Pure.pure a) s s (.ok a) [] :=
  ⟨rfl, fun earlier => by rw [List.append_nil, run_pure]⟩

theorem bind {w' : Work (Traced σ) α} {w : Work σ α} {f' : α → Work (Traced σ) β}
    {f : α → Work σ β} {a : α} {r : Except SyncError β} {es es' : List Event}
    (h : Logs w' w s s₁ (.ok a) es) (h' : Logs (f' a) (f a) s₁ s₂ r es') :
    Logs (w' >>= f') (w >>= f) s s₂ r (es ++ es') where
  run := by
    rw [run_bind, h.run]
    exact h'.run
  runTraced earlier := by
    rw [run_bind, h.runTraced, ← List.append_assoc]
    exact h'.runTraced (earlier ++ es)

theorem bind_error {w' : Work (Traced σ) α} {w : Work σ α} {f' : α → Work (Traced σ) β}
    {f : α → Work σ β} {e : SyncError} {es : List Event} (h : Logs w' w s s₁ (.error e) es) :
    Logs (w' >>= f') (w >>= f) s s₁ (.error e) es where
  run := by rw [run_bind, h.run]
  runTraced earlier := by rw [run_bind, h.runTraced]

/-- What is made of the result calls nothing. -/
theorem bind_pure {w' : Work (Traced σ) α} {w : Work σ α} {r : Except SyncError α} {es : List Event}
    (h : Logs w' w s s₁ r es) (f : α → β) :
    Logs (w' >>= fun a => Pure.pure (f a)) (w >>= fun a => Pure.pure (f a)) s s₁ (r.map f) es := by
  cases r with
  | error e => exact h.bind_error
  | ok a =>
    rw [← List.append_nil es]
    exact h.bind (pure (f a) s₁)

theorem outcome {w' : Work (Traced σ) α} {w : Work σ α} {r : Except SyncError α} {es : List Event}
    (h : Logs w' w s s₁ r es) : Logs w'.outcome w.outcome s s₁ (.ok r) es where
  run := by rw [Work.outcome, h.run]
  runTraced earlier := by rw [Work.outcome, h.runTraced]

/-- A change of the file tree calls nothing. -/
theorem ofChange (x : Change SyncError α) (s : Site σ) :
    Logs (Work.ofChange x : Work (Traced σ) α) (Work.ofChange x) s
      { s with tree := (x s.tree).2 } (x s.tree).1 [] :=
  ⟨rfl, fun earlier => by rw [List.append_nil]; rfl⟩

end Logs

/-! ## Plans -/

/-- The calls were made as planned: all of them, without a failure, or those up to and including
the first one that failed. -/
def Follows (plan : List Call) (events : List Event) : Option SyncError → Prop
  | none => events = plan.map fun call => ⟨call, none⟩
  | some e => ∃ before call after, plan = before ++ call :: after ∧
      events = before.map (fun call => ⟨call, none⟩) ++ [⟨call, some e⟩]

namespace Follows

variable {p q : List Call} {es es' : List Event}

theorem single (call : Call) (failure? : Option SyncError) :
    Follows [call] [⟨call, failure?⟩] failure? := by
  cases failure? with
  | none => rfl
  | some e => exact ⟨[], call, [], rfl, rfl⟩

/-- After a plan that was carried out, the next one. -/
theorem append {failure? : Option SyncError} (h : Follows p es none) (h' : Follows q es' failure?) :
    Follows (p ++ q) (es ++ es') failure? := by
  have hes : es = p.map fun call => ⟨call, none⟩ := h
  subst hes
  cases failure? with
  | none =>
    have hes' : es' = q.map fun call => ⟨call, none⟩ := h'
    rw [hes', ← List.map_append]
    rfl
  | some e =>
    obtain ⟨before, call, after, rfl, rfl⟩ := h'
    exact ⟨p ++ before, call, after, by simp, by simp⟩

/-- After a failure nothing more is called. -/
theorem stop {e : SyncError} (h : Follows p es (some e)) (q : List Call) :
    Follows (p ++ q) es (some e) := by
  obtain ⟨before, call, after, rfl, rfl⟩ := h
  exact ⟨before, call, after ++ q, by simp, rfl⟩

/-- A plan that was carried out has no failure. -/
theorem succeeded (h : Follows p es none) : ∀ event ∈ es, event.failure? = none := by
  intro event hevent
  have hes : es = p.map fun call => ⟨call, none⟩ := h
  rw [hes] at hevent
  obtain ⟨call, -, rfl⟩ := List.mem_map.mp hevent
  rfl

/-- The last call of a plan that was not carried out is the one that failed; the calls before it are
calls of the plan other than its last one. -/
theorem failed {e : SyncError} (h : Follows p es (some e)) :
    ∃ before call, es = before ++ [⟨call, some e⟩] ∧ call ∈ p ∧
      ∀ event ∈ before, event.call ∈ p.dropLast := by
  obtain ⟨before, call, after, rfl, rfl⟩ := h
  refine ⟨_, call, rfl, by simp, fun event hevent => ?_⟩
  obtain ⟨c, hc, rfl⟩ := List.mem_map.mp hevent
  rw [List.dropLast_append_of_ne_nil (by simp)]
  exact List.mem_append_left _ hc

end Follows

/-! ## Carrying plans out -/

/-- Work on a site makes its calls as planned, and fails with the error of the call that failed, if
one did. -/
def CarriesOut {σ α : Type} (w' : Work (Traced σ) α) (w : Work σ α) (s : Site σ)
    (plan : List Call) : Prop :=
  ∃ r s' events, Logs w' w s s' r events ∧ Follows plan events (failureOf r)

namespace CarriesOut

variable {σ α β : Type} {s : Site σ} {p q : List Call}

theorem call (c : Call) (w : Work σ α) (s : Site σ) : CarriesOut (Generator.trace c w) w s [c] :=
  ⟨_, _, _, .call c w s, .single c _⟩

theorem pure (a : α) (s : Site σ) :
    CarriesOut (Pure.pure a : Work (Traced σ) α) (Pure.pure a) s [] :=
  ⟨_, _, _, .pure a s, rfl⟩

/-- The second plan may depend on what the first step gave and left. -/
theorem bind {w' : Work (Traced σ) α} {w : Work σ α} {f' : α → Work (Traced σ) β}
    {f : α → Work σ β} (h : CarriesOut w' w s p)
    (h' : ∀ a s₁, w s = (.ok a, s₁) → CarriesOut (f' a) (f a) s₁ q) :
    CarriesOut (w' >>= f') (w >>= f) s (p ++ q) := by
  obtain ⟨r, s₁, es, hlogs, hfollows⟩ := h
  cases r with
  | error e => exact ⟨_, _, _, hlogs.bind_error, hfollows.stop q⟩
  | ok a =>
    obtain ⟨r', s₂, es', hlogs', hfollows'⟩ := h' a s₁ hlogs.run
    exact ⟨_, _, _, hlogs.bind hlogs', hfollows.append hfollows'⟩

end CarriesOut

end BootTree

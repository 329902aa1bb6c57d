/-
  Chaining computations that may fail.

  Two kinds occur: an `Except` alone, and one that also carries a state, as a change of a file tree,
  a pass over a site and a command all do.  `bind_eq_ok` and `run_bind_eq_ok` take a chain that
  succeeded apart into the steps that succeeded; `bind_eq_error` and `run_bind_eq_error` find the step
  that failed.  `FailsOnly` says which errors a computation can end with, and has a rule for every way
  in which computations are put together.
-/
import Mathlib.Data.List.Forall2

namespace BootTree

universe u

variable {ε α β : Type u}

/-- A chain succeeds where both of its steps do. -/
theorem bind_eq_ok {x : Except ε α} {f : α → Except ε β} {b : β} :
    (x >>= f) = .ok b ↔ ∃ a, x = .ok a ∧ f a = .ok b := by
  cases x with
  | error e => exact ⟨nofun, nofun⟩
  | ok a => exact ⟨fun h => ⟨a, rfl, h⟩, fun ⟨a', ha, h⟩ => Except.ok.inj ha ▸ h⟩

/-- Where a chain fails, its first step failed, or the second one did after the first succeeded. -/
theorem bind_eq_error {x : Except ε α} {f : α → Except ε β} {e : ε} :
    (x >>= f) = .error e ↔ x = .error e ∨ ∃ a, x = .ok a ∧ f a = .error e := by
  cases x with
  | error e' => exact ⟨fun h => .inl (congrArg Except.error (Except.error.inj h)), fun h => by
      rcases h with h | ⟨a, ha, -⟩
      · exact congrArg Except.error (Except.error.inj h)
      · cases ha⟩
  | ok a =>
    refine ⟨fun h => .inr ⟨a, rfl, h⟩, fun h => ?_⟩
    rcases h with h | ⟨a', ha, h⟩
    · cases h
    · cases ha
      exact h

theorem mapError_eq_ok {ε' : Type u} {x : Except ε α} {f : ε → ε'} {a : α} :
    x.mapError f = .ok a ↔ x = .ok a := by
  cases x with
  | error e => exact ⟨nofun, nofun⟩
  | ok b => exact ⟨fun h => congrArg Except.ok (Except.ok.inj h), fun h => h ▸ rfl⟩

theorem mapError_eq_error {ε' : Type u} {x : Except ε α} {f : ε → ε'} {e' : ε'} :
    x.mapError f = .error e' ↔ ∃ e, x = .error e ∧ e' = f e := by
  cases x with
  | error e =>
    refine ⟨fun h => ⟨e, rfl, (Except.error.inj h).symm⟩, fun ⟨e₁, h, he⟩ => ?_⟩
    rw [he, ← Except.error.inj h]
    rfl
  | ok b => exact ⟨nofun, nofun⟩

/-- Going through a list succeeds where it does for every element. -/
theorem mapM_eq_ok {f : α → Except ε β} {xs : List α} {ys : List β} :
    xs.mapM f = .ok ys ↔ List.Forall₂ (fun x y => f x = .ok y) xs ys := by
  induction xs generalizing ys with
  | nil =>
    rw [List.mapM_nil, List.forall₂_nil_left_iff]
    exact ⟨fun h => (Except.ok.inj h).symm, fun h => congrArg Except.ok h.symm⟩
  | cons x xs ih =>
    rw [List.mapM_cons, bind_eq_ok]
    constructor
    · rintro ⟨y, hy, h⟩
      obtain ⟨rest, hrest, h⟩ := bind_eq_ok.mp h
      cases h
      exact .cons hy (ih.mp hrest)
    · rintro (_ | ⟨hy, hrest⟩)
      exact ⟨_, hy, bind_eq_ok.mpr ⟨_, ih.mpr hrest, rfl⟩⟩

/-- Where going through a list fails, it fails for one of its elements. -/
theorem exists_of_mapM_eq_error {f : α → Except ε β} {xs : List α} {e : ε}
    (h : xs.mapM f = .error e) : ∃ x ∈ xs, f x = .error e := by
  induction xs with
  | nil => cases h
  | cons x xs ih =>
    rw [List.mapM_cons] at h
    rcases bind_eq_error.mp h with hx | ⟨y, -, h⟩
    · exact ⟨x, List.mem_cons_self, hx⟩
    · rcases bind_eq_error.mp h with hrest | ⟨ys, -, h⟩
      · obtain ⟨x', hx', he⟩ := ih hrest
        exact ⟨x', List.mem_cons_of_mem x hx', he⟩
      · cases h

section Forall₂

variable {R : α → β → Prop} {xs : List α} {ys : List β}

/-- What is the same of each element and its result is the same of both lists. -/
theorem map_eq_of_forall₂ {γ : Type u} {f : α → γ} {g : β → γ} (h : List.Forall₂ R xs ys)
    (hR : ∀ x y, R x y → g y = f x) : ys.map g = xs.map f := by
  induction h with
  | nil => rfl
  | cons hxy _ ih => rw [List.map_cons, List.map_cons, hR _ _ hxy, ih]

theorem exists_of_mem_left (h : List.Forall₂ R xs ys) {x : α} (hx : x ∈ xs) :
    ∃ y ∈ ys, R x y := by
  induction h with
  | nil => cases hx
  | cons hxy _ ih =>
    rcases List.mem_cons.mp hx with rfl | hx
    · exact ⟨_, List.mem_cons_self, hxy⟩
    · obtain ⟨y, hy, hR⟩ := ih hx
      exact ⟨y, List.mem_cons_of_mem _ hy, hR⟩

theorem exists_of_mem_right (h : List.Forall₂ R xs ys) {y : β} (hy : y ∈ ys) :
    ∃ x ∈ xs, R x y :=
  exists_of_mem_left h.flip hy

end Forall₂

/-- Where every element has a result, going through a list gives all of them. -/
theorem exists_mapM_eq_ok {f : α → Except ε β} {xs : List α} (h : ∀ x ∈ xs, ∃ y, f x = .ok y) :
    ∃ ys, xs.mapM f = .ok ys := by
  induction xs with
  | nil => exact ⟨[], rfl⟩
  | cons x xs ih =>
    obtain ⟨y, hy⟩ := h x List.mem_cons_self
    obtain ⟨ys, hys⟩ := ih fun x' hx' => h x' (List.mem_cons_of_mem x hx')
    exact ⟨y :: ys, mapM_eq_ok.mpr (.cons hy (mapM_eq_ok.mp hys))⟩

instance decEqExcept [DecidableEq ε] [DecidableEq α] : DecidableEq (Except ε α)
  | .ok a, .ok b => decidable_of_iff (a = b) ⟨congrArg Except.ok, Except.ok.inj⟩
  | .error e, .error e' => decidable_of_iff (e = e') ⟨congrArg Except.error, Except.error.inj⟩
  | .ok _, .error _ => .isFalse nofun
  | .error _, .ok _ => .isFalse nofun

/-! ## With a state -/

variable {σ : Type u}

/-- A chain runs its first step, and its second one on the state left if the first succeeded. -/
theorem run_bind (x : ExceptT ε (StateM σ) α) (f : α → ExceptT ε (StateM σ) β) (s : σ) :
    (x >>= f) s = match x s with
      | (.ok a, s') => f a s'
      | (.error e, s') => (.error e, s') := by
  show (match x s with | (r, s') => ExceptT.bindCont f r s') = _
  rcases x s with ⟨r, s'⟩
  cases r <;> rfl

theorem run_bind_eq_ok {x : ExceptT ε (StateM σ) α} {f : α → ExceptT ε (StateM σ) β} {s s' : σ}
    {b : β} : (x >>= f) s = (.ok b, s') ↔ ∃ a s₁, x s = (.ok a, s₁) ∧ f a s₁ = (.ok b, s') := by
  rw [run_bind]
  rcases x s with ⟨r, s₁⟩
  cases r with
  | error e => exact ⟨nofun, nofun⟩
  | ok a =>
    refine ⟨fun h => ⟨a, s₁, rfl, h⟩, fun ⟨a', s₂, h₁, h₂⟩ => ?_⟩
    cases h₁
    exact h₂

/-- Where a chain fails, its first step failed, or the second one on the state the first left. -/
theorem run_bind_eq_error {x : ExceptT ε (StateM σ) α} {f : α → ExceptT ε (StateM σ) β}
    {s s' : σ} {e : ε} : (x >>= f) s = (.error e, s') ↔
      x s = (.error e, s') ∨ ∃ a s₁, x s = (.ok a, s₁) ∧ f a s₁ = (.error e, s') := by
  rw [run_bind]
  rcases x s with ⟨r, s₁⟩
  cases r with
  | error e' =>
    refine ⟨fun h => .inl ?_, fun h => ?_⟩
    · cases h
      rfl
    · rcases h with h | ⟨_, _, h, _⟩
      · cases h
        rfl
      · cases h
  | ok a =>
    refine ⟨fun h => .inr ⟨a, s₁, rfl, h⟩, fun h => ?_⟩
    rcases h with h | ⟨a', s₂, h₁, h₂⟩
    · cases h
    · cases h₁
      exact h₂

/-- A run is known by its result and the state that it leaves. -/
theorem eq_of_fst {x : α × β} {a : α} (h : x.1 = a) : x = (a, x.2) := Prod.ext h rfl

theorem exists_of_isOk {x : Except ε α × σ} (h : x.1.isOk = true) : ∃ a s, x = (.ok a, s) := by
  obtain ⟨r, s⟩ := x
  cases r with
  | ok a => exact ⟨a, s, rfl⟩
  | error e => cases h

theorem run_get_bind (f : σ → ExceptT ε (StateM σ) β) (s : σ) : (get >>= f) s = f s s := rfl

@[simp] theorem run_pure (a : α) (s : σ) : (pure a : ExceptT ε (StateM σ) α) s = (.ok a, s) := rfl

theorem run_forM_cons_eq_ok {f : α → ExceptT ε (StateM σ) PUnit} {x : α} {xs : List α} {s s' : σ}
    {u : PUnit} : (x :: xs).forM f s = (.ok u, s') ↔
      ∃ s₁, f x s = (.ok ⟨⟩, s₁) ∧ xs.forM f s₁ = (.ok ⟨⟩, s') := by
  rw [show (x :: xs).forM f = (f x >>= fun _ => xs.forM f) from rfl, run_bind_eq_ok]
  exact ⟨fun ⟨_, s₁, hfirst, hrest⟩ => ⟨s₁, hfirst, hrest⟩,
    fun ⟨s₁, hfirst, hrest⟩ => ⟨⟨⟩, s₁, hfirst, hrest⟩⟩

/-- Going through a list comes to its end, or to the first element that fails, on the state that
those before it left. -/
theorem exists_forM_run {f : α → ExceptT ε (StateM σ) PUnit} {xs : List α} {s s' : σ}
    {r : Except ε PUnit} (h : xs.forM f s = (r, s')) :
    ∃ done s₁, done.forM f s = (.ok ⟨⟩, s₁) ∧
      ((r = .ok ⟨⟩ ∧ done = xs ∧ s' = s₁) ∨
        ∃ x rest e, r = .error e ∧ xs = done ++ x :: rest ∧ f x s₁ = (.error e, s')) := by
  induction xs generalizing s with
  | nil =>
    cases h
    exact ⟨[], _, rfl, .inl ⟨rfl, rfl, rfl⟩⟩
  | cons x rest ih =>
    rw [show (x :: rest).forM f = (f x >>= fun _ => rest.forM f) from rfl, run_bind] at h
    rcases hfirst : f x s with ⟨r₁, s₁⟩
    rw [hfirst] at h
    cases r₁ with
    | error e =>
      cases h
      exact ⟨[], s, rfl, .inr ⟨x, rest, e, rfl, rfl, hfirst⟩⟩
    | ok u =>
      obtain ⟨done, s₂, hdone, hend⟩ := ih h
      refine ⟨x :: done, s₂, run_forM_cons_eq_ok.mpr ⟨s₁, hfirst, hdone⟩, ?_⟩
      rcases hend with ⟨hr, rfl, hs⟩ | ⟨failed, later, e, hr, rfl, hfails⟩
      · exact .inl ⟨hr, rfl, hs⟩
      · exact .inr ⟨failed, later, e, hr, rfl, hfails⟩

/-! ## Which errors can come -/

/-- From states of a kind a computation leaves states of that kind, and every error that it ends with
there is of a kind. -/
structure FailsOnly (I : σ → Prop) (P : ε → Prop) (x : ExceptT ε (StateM σ) α) : Prop where
  keeps : ∀ s, I s → I (x s).2
  errors : ∀ s s' e, I s → x s = (.error e, s') → P e

namespace FailsOnly

variable {I : σ → Prop} {P Q : ε → Prop} {x : ExceptT ε (StateM σ) α}
  {f : α → ExceptT ε (StateM σ) β}

/-- Errors that are the same from every state. -/
theorem of_errors (h : ∀ s s' e, x s = (.error e, s') → P e) : FailsOnly (fun _ => True) P x :=
  ⟨fun _ _ => trivial, fun s s' e _ => h s s' e⟩

theorem mono (h : FailsOnly I P x) (hPQ : ∀ e, P e → Q e) : FailsOnly I Q x :=
  ⟨h.keeps, fun s s' e hs he => hPQ e (h.errors s s' e hs he)⟩

theorem pure (a : α) : FailsOnly I P (Pure.pure a : ExceptT ε (StateM σ) α) := by
  refine ⟨fun _ hs => hs, fun s s' e _ h => ?_⟩
  cases h

/-- The second step may rely on what the first one gave. -/
theorem bind (hx : FailsOnly I P x) (hf : ∀ a s s', x s = (.ok a, s') → FailsOnly I P (f a)) :
    FailsOnly I P (x >>= f) where
  keeps s hs := by
    have hfirst := hx.keeps s hs
    rw [run_bind]
    rcases hrun : x s with ⟨r, s₁⟩
    rw [hrun] at hfirst
    cases r with
    | error e => exact hfirst
    | ok a => exact (hf a s s₁ hrun).keeps s₁ hfirst
  errors s s' e hs h := by
    rcases run_bind_eq_error.mp h with h | ⟨a, s₁, ha, h⟩
    · exact hx.errors s s' e hs h
    · have hfirst := hx.keeps s hs
      rw [ha] at hfirst
      exact (hf a s s₁ ha).errors s₁ s' e hfirst h

theorem forM {γ : Type u} {f : γ → ExceptT ε (StateM σ) PUnit} {xs : List γ}
    (h : ∀ x ∈ xs, FailsOnly I P (f x)) : FailsOnly I P (xs.forM f) := by
  induction xs with
  | nil => exact .pure _
  | cons x xs ih =>
    exact .bind (h x List.mem_cons_self) fun _ _ _ _ =>
      ih fun y hy => h y (List.mem_cons_of_mem x hy)

theorem foldlM {γ : Type u} {f : α → γ → ExceptT ε (StateM σ) α} {xs : List γ}
    (h : ∀ a, ∀ x ∈ xs, FailsOnly I P (f a x)) (a : α) : FailsOnly I P (xs.foldlM f a) := by
  induction xs generalizing a with
  | nil => exact .pure a
  | cons x xs ih =>
    rw [List.foldlM_cons]
    exact .bind (h a x List.mem_cons_self) fun b _ _ _ =>
      ih (fun b y hy => h b y (List.mem_cons_of_mem x hy)) b

end FailsOnly

end BootTree

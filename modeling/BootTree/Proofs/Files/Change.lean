/-
  What the changes that may stop half-way leave behind, and directories made with their parents.

  A change is a chain of steps, each of which reads from the tree or tries an elementary change; the
  lemmas on `Change` say what became of each step.  Making directories adds directories where nothing
  stood and does nothing else, also where it fails (`AddsDirectories`).
-/
import BootTree.Files.Change
import BootTree.Proofs.Files.View

namespace BootTree

/-! ## Steps of a change -/

namespace Change

variable {ε ε' α β : Type} {t t' : FileTree}

theorem inspect_eq {f : FileTree → Except ε α} {r : Except ε α} :
    inspect f t = (r, t') ↔ f t = r ∧ t' = t :=
  ⟨fun h => ⟨congrArg Prod.fst h, (congrArg Prod.snd h).symm⟩, fun ⟨h, ht⟩ => Prod.ext h ht.symm⟩

/-- What is read first is read from the tree that the rest starts from. -/
theorem inspect_bind_eq_ok {f : FileTree → Except ε α} {g : α → Change ε β} {b : β} :
    (inspect f >>= g) t = (.ok b, t') ↔ ∃ a, f t = .ok a ∧ g a t = (.ok b, t') := by
  rw [run_bind_eq_ok]
  constructor
  · rintro ⟨a, t₁, hread, hrest⟩
    obtain ⟨hread, rfl⟩ := inspect_eq.mp hread
    exact ⟨a, hread, hrest⟩
  · rintro ⟨a, hread, hrest⟩
    exact ⟨a, t, inspect_eq.mpr ⟨hread, rfl⟩, hrest⟩

theorem inspect_bind_eq_error {f : FileTree → Except ε α} {g : α → Change ε β} {e : ε} :
    (inspect f >>= g) t = (.error e, t') ↔
      (f t = .error e ∧ t' = t) ∨ ∃ a, f t = .ok a ∧ g a t = (.error e, t') := by
  rw [run_bind_eq_error, inspect_eq]
  refine or_congr_right ?_
  constructor
  · rintro ⟨a, t₁, hread, hrest⟩
    obtain ⟨hread, rfl⟩ := inspect_eq.mp hread
    exact ⟨a, hread, hrest⟩
  · rintro ⟨a, hread, hrest⟩
    exact ⟨a, t, inspect_eq.mpr ⟨hread, rfl⟩, hrest⟩

theorem attempt_eq_ok {f : FileTree → Except ε FileTree} {u : Unit} :
    attempt f t = (.ok u, t') ↔ f t = .ok t' := by
  rw [attempt]
  cases f t with
  | error e => exact ⟨nofun, nofun⟩
  | ok t₁ => exact ⟨fun h => congrArg Except.ok (congrArg Prod.snd h), fun h => by cases h; rfl⟩

theorem attempt_eq_error {f : FileTree → Except ε FileTree} {e : ε} :
    attempt f t = (.error e, t') ↔ f t = .error e ∧ t' = t := by
  rw [attempt]
  cases f t with
  | error e' =>
    refine ⟨fun h => ?_, fun ⟨h, ht⟩ => ?_⟩
    · cases h
      exact ⟨rfl, rfl⟩
    · cases h
      rw [ht]
  | ok t₁ => exact ⟨nofun, nofun⟩

theorem mapError_eq_ok {f : ε → ε'} {x : Change ε α} {a : α} :
    mapError f x t = (.ok a, t') ↔ x t = (.ok a, t') := by
  rw [mapError]
  rcases x t with ⟨r, t₁⟩
  cases r with
  | error e => exact ⟨nofun, nofun⟩
  | ok b =>
    refine ⟨fun h => ?_, fun h => ?_⟩
    · cases h
      rfl
    · cases h
      rfl

theorem mapError_eq_error {f : ε → ε'} {x : Change ε α} {e' : ε'} :
    mapError f x t = (.error e', t') ↔ ∃ e, x t = (.error e, t') ∧ e' = f e := by
  rw [mapError]
  rcases x t with ⟨r, t₁⟩
  cases r with
  | error e =>
    refine ⟨fun h => ?_, fun ⟨e₁, h, he⟩ => ?_⟩
    · cases h
      exact ⟨e, rfl, rfl⟩
    · cases h
      rw [he]
  | ok b => exact ⟨nofun, nofun⟩

/-- Putting errors into other words does nothing to the tree. -/
theorem mapError_snd (f : ε → ε') (x : Change ε α) (t : FileTree) :
    (mapError f x t).2 = (x t).2 := by
  rw [mapError]
  rcases x t with ⟨r, t₁⟩
  cases r <;> rfl

end Change

/-! ## Directories -/

/-- The second tree has all that the first one has, and perhaps more directories. -/
structure AddsDirectories (t t' : FileTree) : Prop where
  base : t'.base = t.base
  process : t'.process = t.process
  adds : ∀ q, t'.get? q = t.get? q ∨ t.get? q = none ∧ t'.get? q = some .directory

namespace AddsDirectories

variable {t t' t'' : FileTree}

theorem refl (t : FileTree) : AddsDirectories t t := ⟨rfl, rfl, fun _ => .inl rfl⟩

theorem trans (h : AddsDirectories t t') (h' : AddsDirectories t' t'') :
    AddsDirectories t t'' where
  base := h'.base.trans h.base
  process := h'.process.trans h.process
  adds q := by
    rcases h.adds q with hq | ⟨hnone, hq⟩
    · rw [← hq]
      exact h'.adds q
    · rcases h'.adds q with hq' | ⟨hq', -⟩
      · exact .inr ⟨hnone, hq'.trans hq⟩
      · rw [hq] at hq'
        cases hq'

theorem of_makeDirectory {text : String} (h : t.makeDirectory text = .ok t') :
    AddsDirectories t t' := by
  obtain ⟨name, around, hnames, hnone, rfl⟩ := FileTree.makeDirectory_eq_ok h
  have hmay : t.MayPut name around .directory := ⟨hnames.around, fun e he => by simp_all⟩
  refine ⟨FileTree.base_put .., FileTree.process_put .., fun q => ?_⟩
  rw [FileTree.get?_put hmay]
  by_cases hq : q = name :: around
  · exact .inr ⟨hq ▸ hnone, if_pos hq⟩
  · exact .inl (if_neg hq)

/-- Adding directories changes no file. -/
theorem bytesAt (h : AddsDirectories t t') (q : Place) : t'.bytesAt q = t.bytesAt q := by
  rcases h.adds q with hq | ⟨hnone, hq⟩
  · exact FileTree.bytesAt_congr hq
  · rw [FileTree.bytesAt, FileTree.bytesAt, hnone, hq]

end AddsDirectories

/-- Making a directory with its parents only adds directories, whatever comes of it.  The parents
that are made before it fails stay. -/
theorem makeWithParents_adds (text : String) (ancestors : List Trail) (t : FileTree) :
    AddsDirectories t (makeWithParents text ancestors t).2 := by
  induction ancestors generalizing text t with
  | nil =>
    rw [makeWithParents]
    dsimp only
    split
    · next t' h => exact .of_makeDirectory h
    · split <;> exact .refl t
  | cons parent ancestors ih =>
    rw [makeWithParents]
    dsimp only
    split
    · next t' h => exact .of_makeDirectory h
    · have hparent : AddsDirectories t
          (if parent.text = "" then ((.ok (), t) : Except Cause Unit × FileTree)
            else makeWithParents parent.text ancestors t).2 := by
        split
        · exact .refl t
        · exact ih parent.text t
      split
      · next cause t' h => rwa [h] at hparent
      · next t' h =>
        rw [h] at hparent
        split
        · next t'' h' => exact hparent.trans (.of_makeDirectory h')
        · split <;> exact hparent
    · split <;> exact .refl t

theorem makeDirectories_adds (text : String) (t : FileTree) :
    AddsDirectories t (makeDirectories text t).2 := by
  rw [makeDirectories]
  split
  · exact .refl t
  · rw [Change.mapError_snd]
    exact makeWithParents_adds text _ t

theorem makeDirectories_error {text : String} {t t' : FileTree} {e : FileError}
    (h : makeDirectories text t = (.error e, t')) : ∃ cause, e = .io text cause := by
  rw [makeDirectories] at h
  split at h
  · cases h
  · obtain ⟨cause, -, he⟩ := Change.mapError_eq_error.mp h
    exact ⟨cause, he⟩

theorem ensureDirectory_adds (p : Path) (t : FileTree) :
    AddsDirectories t (ensureDirectory p t).2 := by
  have hrun : ensureDirectory p t
      = if t.isDirectory p.text then (.ok (), t) else makeDirectories p.text t := by
    show (if t.isDirectory p.text then (pure () : Change FileError Unit)
      else makeDirectories p.text) t = _
    split <;> rfl
  rw [hrun]
  split
  · exact .refl t
  · exact makeDirectories_adds p.text t

end BootTree

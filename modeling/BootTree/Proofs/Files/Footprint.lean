/-
  What a change touches, whatever comes of it.

  1. **Footprints** — a change touches a place if something else stands there afterwards.  The files
     that it names say which places these may be: the place of such a file, that of the temporary
     file beside it, and a directory that was missing on the way to it (`Touched`).  No other file
     loses its bytes (`TouchesOnly.bytesAt`).

  2. **Writing at one stroke** — it touches only what its file says, also where it stops half-way
     (`touchesOnly_writeAtomic`).

  3. **Changes** — `Touches P x`: on every tree `x` touches only what the files with `P` say.  There
     is one rule for every way in which changes are put together.
-/
import BootTree.Proofs.Files.Parents

namespace BootTree

variable {P Q : Path → Prop} {t t' t'' : FileTree} {p : Path} {content : ByteArray} {q : Place}

/-! ## Footprints -/

namespace FileTree

/-- Why something else may stand at a place after a change that names these files. -/
inductive Touched (P : Path → Prop) (t t' : FileTree) (q : Place) : Prop where
  | file (p : Path) : P p → q = t.place p.text → Touched P t t' q
  | temporary (p : Path) : P p → q = t.place (temporaryPath t.process p) → Touched P t t' q
  | directory (p : Path) : P p → t.Through p.text q → t.get? q = none →
      t'.get? q = some .directory → Touched P t t' q

/-- A place where the second tree differs from the first one is touched for one of these files. -/
structure TouchesOnly (P : Path → Prop) (t t' : FileTree) : Prop where
  base : t'.base = t.base
  process : t'.process = t.process
  differs : ∀ q, t'.get? q ≠ t.get? q → Touched P t t' q

namespace TouchesOnly

theorem refl (P : Path → Prop) (t : FileTree) : TouchesOnly P t t :=
  ⟨rfl, rfl, fun _ hne => absurd rfl hne⟩

theorem mono (h : TouchesOnly P t t') (hPQ : ∀ p, P p → Q p) : TouchesOnly Q t t' := by
  refine ⟨h.base, h.process, fun q hne => ?_⟩
  cases h.differs q hne with
  | file p hp hq => exact .file p (hPQ p hp) hq
  | temporary p hp hq => exact .temporary p (hPQ p hp) hq
  | directory p hp hq hnone hmade => exact .directory p (hPQ p hp) hq hnone hmade

theorem trans (h : TouchesOnly P t t') (h' : TouchesOnly P t' t'') : TouchesOnly P t t'' := by
  refine ⟨h'.base.trans h.base, h'.process.trans h.process, fun q hne => ?_⟩
  have hplace : ∀ text, t'.place text = t.place text := place_congr h.base
  by_cases hlater : t''.get? q = t'.get? q
  · rw [hlater] at hne
    cases h.differs q hne with
    | file p hp hq => exact .file p hp hq
    | temporary p hp hq => exact .temporary p hp hq
    | directory p hp hq hnone hmade => exact .directory p hp hq hnone (hlater.trans hmade)
  · cases h'.differs q hlater with
    | file p hp hq => exact .file p hp (hq.trans (hplace _))
    | temporary p hp hq =>
      rw [h.process, hplace] at hq
      exact .temporary p hp hq
    | directory p hp hq hnone hmade =>
      by_cases hearlier : t'.get? q = t.get? q
      · exact .directory p hp ((through_congr h.base).mp hq) (hearlier.symm.trans hnone) hmade
      · -- something came to stand there and was gone again, so it was no directory
        cases h.differs q hearlier with
        | file p hp hq => exact .file p hp hq
        | temporary p hp hq => exact .temporary p hp hq
        | directory p hp hq _ hmade' =>
          rw [hmade'] at hnone
          cases hnone

/-- Only the files that are named and the temporary ones beside them get other bytes. -/
theorem bytesAt (h : TouchesOnly P t t') (hne : t'.bytesAt q ≠ t.bytesAt q) :
    ∃ p, P p ∧ (q = t.place p.text ∨ q = t.place (temporaryPath t.process p)) := by
  cases h.differs q fun hsame => hne (bytesAt_congr hsame) with
  | file p hp hq => exact ⟨p, hp, .inl hq⟩
  | temporary p hp hq => exact ⟨p, hp, .inr hq⟩
  | directory p hp hq hnone hmade =>
    rw [FileTree.bytesAt, FileTree.bytesAt, hnone, hmade] at hne
    exact absurd rfl hne

end TouchesOnly

end FileTree

/-! ## Writing at one stroke -/

open FileTree

theorem touchesOnly_withParents (p : Path) (t : FileTree) :
    TouchesOnly (· = p) t (withParents p t) := by
  have hadds := withParents_adds p t
  refine ⟨hadds.base, hadds.process, fun q hne => ?_⟩
  rcases hadds.adds q with hsame | ⟨hnone, hmade⟩
  · exact absurd hsame hne
  · refine .directory p rfl ?_ hnone hmade
    rw [withParents] at hmade
    split at hmade
    · next parent hparent =>
      exact through_of_makeDirectories hparent (by simp [hnone]) hmade
    · rw [hnone] at hmade
      cases hmade

/-- Once the directory is there, only the file and its temporary file are left to touch. -/
theorem touchesOnly_writeThrough {r : Except FileError Unit}
    (h : writeThrough p content t = (r, t')) : TouchesOnly (· = p) t t' := by
  cases r with
  | error e =>
    obtain ⟨-, rfl | hwrite⟩ := writeThrough_eq_error h
    · exact .refl _ _
    · refine ⟨(base_write hwrite).1, (base_write hwrite).2, fun q hne => ?_⟩
      rw [get?_write hwrite] at hne
      split at hne
      · next hq => exact .temporary p rfl hq
      · exact absurd rfl hne
  | ok u =>
    obtain ⟨t₁, hwrite, hrename, -⟩ := writeThrough_eq_ok h
    have hwritten := base_write hwrite
    have hrenamed := base_renameFile hrename
    refine ⟨hrenamed.1.trans hwritten.1, hrenamed.2.trans hwritten.2, fun q hne => ?_⟩
    rw [get?_of_writeThrough_ok h] at hne
    split at hne
    · next hq => exact .file p rfl hq
    · split at hne
      · next hq => exact .temporary p rfl hq
      · exact absurd rfl hne

/-- Writing at one stroke stops with the directories, or goes on where they were made. -/
theorem writeAtomic_withParents (p : Path) (content : ByteArray) (t : FileTree) :
    (∃ e, writeAtomic p content t = (.error e, withParents p t)) ∨
      writeAtomic p content t = writeThrough p content (withParents p t) := by
  rw [writeAtomic, withParents]
  cases (Trail.ofText p.text).parent? with
  | none => exact .inr rfl
  | some parent =>
    dsimp only
    rw [run_bind]
    rcases makeDirectories parent.text t with ⟨r, t₁⟩
    cases r with
    | error e => exact .inl ⟨e, rfl⟩
    | ok u => exact .inr rfl

/-- Writing a file at one stroke touches the file, its temporary file and the directories that were
missing on the way, and nothing else, whatever comes of it. -/
theorem touchesOnly_writeAtomic (p : Path) (content : ByteArray) (t : FileTree) :
    TouchesOnly (· = p) t (writeAtomic p content t).2 := by
  have hparents := touchesOnly_withParents p t
  rcases writeAtomic_withParents p content t with ⟨e, hrun⟩ | hrun
  · rw [hrun]
    exact hparents
  · rw [hrun]
    exact hparents.trans (touchesOnly_writeThrough rfl)

/-! ## Changes -/

namespace Change

variable {ε ε' α β γ : Type}

/-- On every tree the change touches only what these files say, whatever comes of it. -/
def Touches (P : Path → Prop) (x : Change ε α) : Prop := ∀ t, TouchesOnly P t (x t).2

namespace Touches

variable {x : Change ε α} {f : α → Change ε β}

theorem pure (a : α) : Touches P (Pure.pure a : Change ε α) := TouchesOnly.refl P

theorem inspect (f : FileTree → Except ε α) : Touches P (Change.inspect f) := TouchesOnly.refl P

/-- The second step may rely on what the first one gave. -/
theorem bind (hx : Touches P x) (hf : ∀ a t t', x t = (.ok a, t') → Touches P (f a)) :
    Touches P (x >>= f) := by
  intro t
  have hfirst := hx t
  rw [run_bind]
  rcases hrun : x t with ⟨r, t₁⟩
  rw [hrun] at hfirst
  cases r with
  | error e => exact hfirst
  | ok a => exact hfirst.trans (hf a t t₁ hrun t₁)

theorem forM {f : γ → Change ε PUnit} {xs : List γ} (h : ∀ x ∈ xs, Touches P (f x)) :
    Touches P (xs.forM f) := by
  induction xs with
  | nil => exact .pure _
  | cons x xs ih =>
    exact .bind (h x List.mem_cons_self) fun _ _ _ _ =>
      ih fun y hy => h y (List.mem_cons_of_mem x hy)

theorem mapError (hx : Touches P x) (f : ε → ε') : Touches P (Change.mapError f x) := by
  intro t
  rw [mapError_snd]
  exact hx t

theorem writeText (hp : P p) (content : String) : Touches P (BootTree.writeText p content) :=
  fun t => (touchesOnly_writeAtomic p content.toUTF8 t).mono fun _ heq => heq ▸ hp

end Touches

end Change

end BootTree

/-
  Running the same steps once more.

  1. **Mirrors** — steps are run on a tree and leave `final`; then they are run again, on `final`.
     Between two steps the tree of the second run need not be that of the first one: a file can
     already have its last bytes where the first run had not come to them.  It is one or the other
     at every place, or a file that has the fingerprint of the first run's but not of the last one
     (`Alike`).  Comparing with the fingerprint of a source, as staging does, leads from such a pair
     to such a pair (`Alike.settle`), whether or not two contents share a fingerprint.

  2. **Twice** — one step keeps the two runs alike (`FileStep.mirror`), and so do all of them
     (`exists_mirror`).  At the end the first run is at `final`, so the second one is too
     (`Mirrors.get?_eq`).
-/
import BootTree.Proofs.Sync.Frames

namespace BootTree

variable {t t' u : FileTree} {source destination p : Path} {content : String} {step : FileStep}
  {steps : List FileStep}

/-! ## Two runs -/

/-- What the second run has at a place, from what the first one has there and what it left in the
end: one of the two, or bytes with the fingerprint of the one but not of the other. -/
def Alike (now again last : Option ByteArray) : Prop :=
  again = now ∨ again = last ∨ printOf again = printOf now ∧ printOf last ≠ printOf now

namespace Alike

variable {now again last : Option ByteArray}

/-- A copy of the same bytes leads from such a pair to such a pair, though it may be made in one run
only. -/
theorem settle (h : Alike now again last) (content : ByteArray) :
    Alike (settle now content) (settle again content) last := by
  rw [BootTree.settle, BootTree.settle]
  by_cases hnow : printOf now = some (Sha256.fingerprint content)
  · by_cases hagain : printOf again = some (Sha256.fingerprint content)
    · rw [if_pos hnow, if_pos hagain]
      exact h
    · -- only the second run copies, over what is there in the end
      rw [if_pos hnow, if_neg hagain]
      rcases h with rfl | rfl | ⟨hsame, -⟩
      · exact absurd hnow hagain
      · exact .inr (.inr ⟨hnow.symm, fun hlast => hagain (hlast.trans hnow)⟩)
      · exact absurd (hsame.trans hnow) hagain
  · by_cases hagain : printOf again = some (Sha256.fingerprint content)
    · -- only the first run copies, and the second one has what is there in the end
      rw [if_neg hnow, if_pos hagain]
      rcases h with rfl | rfl | ⟨hsame, -⟩
      · exact absurd hagain hnow
      · exact .inr (.inl rfl)
      · exact absurd (hsame.symm.trans hagain) hnow
    · rw [if_neg hnow, if_neg hagain]
      exact .inl rfl

/-- What the first run does not change any more is the same in both. -/
theorem eq_of_last (h : Alike now again last) (hlast : last = now) : again = now := by
  rcases h with hsame | hsame | ⟨-, hother⟩
  · exact hsame
  · exact hsame.trans hlast
  · exact absurd (congrArg printOf hlast) hother

end Alike

/-- The tree of the second run mirrors that of the first one: it has the directories that are there
in the end, and at every place one of the files that the first run has or leaves. -/
structure Mirrors (final t u : FileTree) : Prop where
  base : u.base = t.base
  process : u.process = t.process
  directories : ∀ q, u.get? q = some .directory ↔ final.get? q = some .directory
  alike : ∀ q, Alike (t.bytesAt q) (u.bytesAt q) (final.bytesAt q)

namespace Mirrors

variable {final : FileTree}

theorem hasDirectories (h : Mirrors final t u) (hlater : FileTree.HasDirectories t final) :
    FileTree.HasDirectories t u :=
  ⟨h.base, fun q hq => (h.directories q).mpr (hlater.keeps q hq)⟩

/-- The second run starts where the first one ended. -/
theorem start (hbase : final.base = t.base) (hprocess : final.process = t.process) :
    Mirrors final t final :=
  ⟨hbase, hprocess, fun _ => Iff.rfl, fun _ => .inr (.inl rfl)⟩

/-- At the end of the first run the second one has the same files. -/
theorem get?_eq (h : Mirrors final final u) (q : Place) : u.get? q = final.get? q := by
  have hbytes : u.bytesAt q = final.bytesAt q := (h.alike q).eq_of_last rfl
  have hdirectory := h.directories q
  cases hlast : final.get? q with
  | none =>
    rw [hlast] at hdirectory
    cases hnow : u.get? q with
    | none => rfl
    | some e =>
      cases e with
      | directory => exact absurd (hdirectory.mp hnow) nofun
      | file content =>
        rw [FileTree.bytesAt_eq_some.mpr hnow, FileTree.bytesAt, hlast] at hbytes
        cases hbytes
  | some e =>
    cases e with
    | directory => exact hdirectory.mpr hlast
    | file content =>
      rw [FileTree.bytesAt_eq_some.mpr hlast] at hbytes
      exact FileTree.bytesAt_eq_some.mp hbytes

variable {bytes : ByteArray}

/-- A file that is staged in the first run is staged in the second one. -/
theorem stage (h : Mirrors final t u) {status : CopyStatus}
    (hcopy : copyIfChanged source destination t = (.ok status, t'))
    (hlater : FileTree.HasDirectories t' final)
    (hfiles : ∀ q, (t'.bytesAt q).isSome = true → final.get? q ≠ some .directory)
    (hsource : final.bytesAt (t.place source.text) = t.bytesAt (t.place source.text)) :
    ∃ status' u', copyIfChanged source destination u = (.ok status', u') ∧
      Mirrors final t' u' := by
  obtain ⟨bytes, hsettles⟩ := settles_of_copyIfChanged hcopy
  have hplace : ∀ text, u.place text = t.place text := FileTree.place_congr h.base
  have hdirectories : FileTree.HasDirectories t u := by
    refine h.hasDirectories (FileTree.HasDirectories.trans ?_ hlater)
    exact .of_iff hsettles.base hsettles.directories
  have hread : u.read source.text = .ok bytes := by
    refine hdirectories.read ?_ hsettles.read
    exact (h.alike _).eq_of_last hsource
  have hw : u.Writable destination.text := by
    refine hsettles.writable.mono hdirectories fun hdirectory => ?_
    have hstays : (t'.bytesAt (t.place destination.text)).isSome = true := by
      rw [hsettles.bytesAt, if_pos rfl]
      exact settle_isSome _ bytes
    exact hfiles _ hstays ((h.directories _).mp hdirectory)
  obtain ⟨status', u', hcopy'⟩ := exists_copyIfChanged hread hw
  obtain ⟨bytes', hsettles'⟩ := settles_of_copyIfChanged hcopy'
  have hbytes : bytes' = bytes := Except.ok.inj (hsettles'.read.symm.trans hread)
  subst hbytes
  refine ⟨status', u', hcopy', ?_, ?_, fun q => ?_, fun q => ?_⟩
  · rw [hsettles'.base, hsettles.base, h.base]
  · rw [hsettles'.process, hsettles.process, h.process]
  · rw [hsettles'.directories, h.directories]
  · rw [hsettles.bytesAt, hsettles'.bytesAt, hplace]
    split
    · exact (h.alike q).settle bytes'
    · exact h.alike q

/-- A text that is stored in the first run is stored in the second one. -/
theorem store (h : Mirrors final t u) (hstored : Stored p content.toUTF8 t t')
    (hlater : FileTree.HasDirectories t' final)
    (hfiles : ∀ q, (t'.bytesAt q).isSome = true → final.get? q ≠ some .directory)
    (hclear : final.get? (t.place (temporaryPath t.process p)) ≠ some .directory) :
    ∃ u', writeAtomic p content.toUTF8 u = (.ok (), u') ∧ Mirrors final t' u' := by
  have hplace : ∀ text, u.place text = t.place text := FileTree.place_congr h.base
  have hplace' : ∀ text, t'.place text = t.place text := FileTree.place_congr hstored.base
  have hdirectories : FileTree.HasDirectories t' u :=
    ⟨h.base.trans hstored.base.symm, fun q hq => (h.directories q).mpr (hlater.keeps q hq)⟩
  have hp : final.get? (t.place p.text) ≠ some .directory := by
    refine hfiles _ ?_
    rw [FileTree.bytesAt_eq_some.mpr hstored.file]
    rfl
  have hw : u.Writable p.text := by
    refine hstored.writable.mono hdirectories fun hdirectory => hp ?_
    rw [hplace'] at hdirectory
    exact (h.directories _).mp hdirectory
  have htemporary : u.Writable (temporaryPath u.process p) := by
    rw [h.process]
    refine hstored.temporary.mono hdirectories fun hdirectory => hclear ?_
    rw [hplace'] at hdirectory
    exact (h.directories _).mp hdirectory
  have hlock : u.process.locking p.text = .held := by
    rw [h.process]
    exact hstored.locking
  obtain ⟨u', hrun, hget⟩ :=
    exists_writeAtomic hlock (hstored.parents.mono hdirectories) hw htemporary content.toUTF8
  have hstored' := stored_of_writeAtomic_ok hrun
  rw [h.process] at hget
  simp only [hplace] at hget
  refine ⟨u', hrun, ?_, ?_, fun q => ?_, fun q => ?_⟩
  · rw [hstored'.base, hstored.base, h.base]
  · rw [hstored'.process, hstored.process, h.process]
  · rw [hget]
    by_cases hq : q = t.place p.text
    · rw [if_pos hq, hq]
      exact ⟨nofun, fun hdirectory => absurd hdirectory hp⟩
    · rw [if_neg hq]
      by_cases hq' : q = t.place (temporaryPath t.process p)
      · rw [if_pos hq', hq']
        exact ⟨nofun, fun hdirectory => absurd hdirectory hclear⟩
      · rw [if_neg hq']
        exact h.directories q
  · by_cases hq : q = t.place p.text
    · refine .inl ?_
      rw [hq, FileTree.bytesAt_eq_some.mpr hstored.file, FileTree.bytesAt_eq_some, hget, if_pos rfl]
    · by_cases hq' : q = t.place (temporaryPath t.process p)
      · refine .inl ?_
        rw [FileTree.bytesAt, FileTree.bytesAt, hget, if_neg hq, if_pos hq', hq', hstored.gone]
      · have hsame : u'.bytesAt q = u.bytesAt q := by
          refine FileTree.bytesAt_congr ?_
          rw [hget, if_neg hq, if_neg hq']
        rw [hsame, hstored.changesOnly.bytesAt (by simp [hq, hq'])]
        exact h.alike q

end Mirrors

/-! ## One step, all steps -/

/-- A source that the steps leave alone.  Where it may be missing, its path does not go up, so that
directories that are made meanwhile do not lead to it. -/
def FileStep.SourceKept (step : FileStep) (t : FileTree) (places : List Place) : Prop :=
  ∀ source destination missing?, step = .stage source destination missing? →
    t.place source.text ∉ places ∧ (missing? = none → ".." ∉ (Trail.ofText source.text).segments)

/-- A step that succeeded in the first run does so in the second one, and keeps them alike. -/
theorem FileStep.mirror {final : FileTree} {rest : List FileStep}
    (hrun : step.run t = (.ok (), t')) (hrest : runSteps rest t' = (.ok (), final))
    (hclear : Unobstructed final (step :: rest))
    (hsource : step.SourceKept t (written (step :: rest) t)) (h : Mirrors final t u) :
    ∃ u', step.run u = (.ok (), u') ∧ Mirrors final t' u' := by
  have hall : runSteps (step :: rest) t = (.ok (), final) := runSteps_cons_eq_ok.mpr ⟨t', hrun, hrest⟩
  have hframe := changesOnly_runSteps hall
  have hlater := hasDirectories_runSteps hrest
  have hfiles : ∀ q, (t'.bytesAt q).isSome = true → final.get? q ≠ some .directory :=
    fun q => get?_ne_of_runSteps hrest hclear.tail
  cases step with
  | directory p =>
    have hadds := ensureDirectory_adds p t
    rw [run_directory_eq_ok.mp hrun] at hadds
    have hthere := isDirectory_of_ensureDirectory (run_directory_eq_ok.mp hrun)
    have hmirrors : Mirrors final t' u := by
      refine ⟨h.base.trans hadds.base.symm, h.process.trans hadds.process.symm, h.directories,
        fun q => ?_⟩
      rw [hadds.bytesAt]
      exact h.alike q
    refine ⟨u, run_directory_eq_ok.mpr (ensureDirectory_of_isDirectory ?_), hmirrors⟩
    exact hthere.imp_right (hmirrors.hasDirectories hlater).isDirectory
  | stage source destination missing? =>
    obtain ⟨hkept, hup⟩ := hsource source destination missing? rfl
    have hlast : final.bytesAt (t.place source.text) = t.bytesAt (t.place source.text) :=
      hframe.bytesAt hkept
    rcases run_stage_eq_ok.mp hrun with ⟨hmissing, hnone, rfl⟩ | ⟨hfile, status, hcopy⟩
    · refine ⟨u, run_stage_eq_ok.mpr (.inl ⟨?_, hnone, rfl⟩), h⟩
      rw [FileTree.isFile_congr (hup hnone) h.base ((h.alike _).eq_of_last hlast), hmissing]
    · obtain ⟨status', u', hcopy', hmirrors⟩ := h.stage hcopy hlater hfiles hlast
      obtain ⟨bytes, hsettles⟩ := settles_of_copyIfChanged hcopy'
      refine ⟨u', run_stage_eq_ok.mpr (.inr ⟨?_, status', hcopy'⟩), hmirrors⟩
      exact FileTree.isFile_iff.mpr ⟨bytes, FileTree.read_eq_ok.mp hsettles.read⟩
  | store p content =>
    have hunobstructed := hclear p content List.mem_cons_self
    rw [hframe.process, FileTree.place_congr hframe.base] at hunobstructed
    obtain ⟨u', hrun', hmirrors⟩ :=
      h.store (stored_of_writeAtomic_ok (run_store_eq_ok.mp hrun)) hlater hfiles hunobstructed
    exact ⟨u', run_store_eq_ok.mpr hrun', hmirrors⟩
  | stop e => cases hrun

/-- Steps that succeeded succeed again on the tree that they left, and the second run ends like the
first one. -/
theorem exists_mirror {final : FileTree} (hrun : runSteps steps t = (.ok (), final))
    (hclear : Unobstructed final steps)
    (hsources : ∀ step ∈ steps, step.SourceKept t (written steps t)) (h : Mirrors final t u) :
    ∃ u', runSteps steps u = (.ok (), u') ∧ Mirrors final final u' := by
  induction steps generalizing t u with
  | nil =>
    cases hrun
    exact ⟨u, rfl, h⟩
  | cons step rest ih =>
    obtain ⟨t₁, hstep, hrest⟩ := runSteps_cons_eq_ok.mp hrun
    have hsource := hsources step List.mem_cons_self
    obtain ⟨u₁, hstep', h₁⟩ := FileStep.mirror hstep hrest hclear hsource h
    have hlater : ∀ step' ∈ rest, step'.SourceKept t₁ (written rest t₁) := by
      intro step' hmem source destination missing? hstage
      obtain ⟨hkept, hup⟩ :=
        hsources step' (List.mem_cons_of_mem _ hmem) source destination missing? hstage
      rw [written, hstep, List.mem_append, not_or] at hkept
      rw [FileTree.place_congr (FileStep.hasDirectories hstep).base]
      exact ⟨hkept.2, hup⟩
    obtain ⟨u', hrest', h'⟩ := ih hrest hclear.tail hlater h₁
    exact ⟨u', runSteps_cons_eq_ok.mpr ⟨u₁, hstep', hrest'⟩, h'⟩

end BootTree

/-
  What copying the declared files of a distribution does to the tree.

  1. **Steps** — `CopyStep` is one outcome with the trees before and after it: a task that was
     carried out, or something that was noted down while nothing was done.  The tree after it
     extends the one before it, and only a copy makes a file, where nothing stood
     (`CopyStep.keeps`, `CopyStep.explains`).

  2. **Runs** — `CopyRun` puts steps together, each on the tree that the one before left.  Copying
     the files of a distribution is such a run (`copyDistroFiles_cases`), however many entries
     fail, so that nothing that was there is lost and every new file is the destination of one copy
     (`CopyRun.count_newPlaces`).
-/
import BootTree.Proofs.Files.Copy
import BootTree.Sync.Copier

namespace BootTree

variable {distro : String} {t t₁ t' : FileTree}

/-! ## One task -/

/-- The first half of a task: the directory of its destination is made if it is missing. -/
def CopyTask.prepare (task : CopyTask) : Change FileError Unit :=
  match task.destination.parent? with
  | some parent => ensureDirectory parent
  | none => pure ()

/-- The tree once the directory of the destination of a task is made, as far as it can be. -/
def CopyTask.withDirectory (task : CopyTask) (t : FileTree) : FileTree := (task.prepare t).2

theorem withDirectory_adds (task : CopyTask) (t : FileTree) :
    AddsDirectories t (task.withDirectory t) := by
  rw [CopyTask.withDirectory, CopyTask.prepare]
  cases task.destination.parent? with
  | none => exact .refl t
  | some parent => exact ensureDirectory_adds parent t

theorem copyTask_eq (task : CopyTask) :
    copyTask task = task.prepare >>= fun _ => copyIfAbsent task.source task.destination := by
  rw [copyTask, CopyTask.prepare]
  cases task.destination.parent? with
  | none => rfl
  | some parent => rfl

/-- A task makes the directories on the way to its destination, which may fail, and then copies on
the tree that they leave. -/
theorem copyTask_cases (task : CopyTask) (t : FileTree) :
    (∃ e, copyTask task t = (.error e, task.withDirectory t)) ∨
    copyTask task t = copyIfAbsent task.source task.destination (task.withDirectory t) := by
  rw [copyTask_eq, run_bind, CopyTask.withDirectory]
  rcases task.prepare t with ⟨e | u, t₁⟩
  · exact .inl ⟨e, rfl⟩
  · exact .inr rfl

/-- The file of a task is copied: it was the source's, nothing stood at the destination, and now
both paths lead to the same bytes, while no other file is made or changed. -/
structure Copies (task : CopyTask) (content : ByteArray) (t t' : FileTree) : Prop where
  absent : t.get? (t.place task.destination.text) = none
  source : t.bytesAt (t.place task.source.text) = some content
  readSource : t'.read task.source.text = .ok content
  readDestination : t'.read task.destination.text = .ok content
  bytesAt : ∀ q, t'.bytesAt q =
    if q = t.place task.destination.text then some content else t.bytesAt q

/-- A copy extends the tree. -/
theorem copies_of_copyIfAbsent {task : CopyTask} {content : ByteArray}
    (hadds : AddsDirectories t t₁) (hnew : t₁.isFile task.destination.text = false)
    (hread : t₁.read task.source.text = .ok content)
    (hwrite : t₁.write task.destination.text content = .ok t') :
    t.Extends t' ∧ Copies task content t t' := by
  have hplace : ∀ text, t₁.place text = t.place text := FileTree.place_congr hadds.base
  have hnone := FileTree.get?_of_write_new hwrite hnew
  have hextends := FileTree.Extends.of_write hwrite hnone
  refine ⟨(FileTree.Extends.of_addsDirectories hadds).trans hextends, ?_, ?_,
    hextends.read hread, FileTree.read_eq_ok.mpr (FileTree.entry_of_write hwrite), fun q => ?_⟩
  · rw [hplace] at hnone
    rcases hadds.adds (t.place task.destination.text) with hsame | ⟨hbefore, -⟩
    · exact hsame ▸ hnone
    · exact hbefore
  · rw [← hadds.bytesAt, ← hplace]
    exact FileTree.bytesAt_place_of_read hread
  · rw [FileTree.bytesAt_write hwrite, hplace, hadds.bytesAt]

/-! ## Steps -/

/-- An outcome with the trees before and after it. -/
inductive CopyStep (distro : String) : FileTree → CopyOutcome → FileTree → Prop where
  | task {task : CopyTask} {t t' : FileTree} {outcome : CopyOutcome} :
      runTask distro task t = (outcome, t') → CopyStep distro t outcome t'
  | noMatch {t : FileTree} {source destination : String} :
      CopyStep distro t (.noMatch source destination) t
  | failed {t : FileTree} {failure : CopyFailure} : CopyStep distro t (.failed failure) t

/-- What an outcome says of the files before and after it. -/
def CopyOutcome.Explains (t t' : FileTree) : CopyOutcome → Prop
  | .copied task => ∃ content, Copies task content t t'
  | _ => ∀ q, t'.bytesAt q = t.bytesAt q

/-- A task extends the tree, whatever comes of it, and its outcome says which file it made. -/
theorem runTask_spec {task : CopyTask} {outcome : CopyOutcome}
    (h : runTask distro task t = (outcome, t')) :
    t.Extends t' ∧ outcome.Explains t t' := by
  have hadds := withDirectory_adds task t
  have hextends := FileTree.Extends.of_addsDirectories hadds
  rw [runTask] at h
  rcases copyTask_cases task t with ⟨e, hcopy⟩ | hcopy
  · rw [hcopy] at h
    cases h
    exact ⟨hextends, hadds.bytesAt⟩
  · rw [hcopy] at h
    cases hrun : copyIfAbsent task.source task.destination (task.withDirectory t) with
    | mk r t₂ =>
      rw [hrun] at h
      rcases copyIfAbsent_cases hrun with
        ⟨rfl, -, rfl⟩ | ⟨rfl, hnew, content, hread, hwrite⟩ | ⟨e, rfl, rfl⟩
      · cases h
        exact ⟨hextends, hadds.bytesAt⟩
      · cases h
        obtain ⟨hextends', hcopies⟩ := copies_of_copyIfAbsent hadds hnew hread hwrite
        exact ⟨hextends', content, hcopies⟩
      · cases h
        exact ⟨hextends, hadds.bytesAt⟩

namespace CopyStep

variable {outcome : CopyOutcome}

/-- Whatever comes of an outcome, nothing that was there is lost or changed. -/
theorem keeps (h : CopyStep distro t outcome t') : t.Extends t' := by
  cases h with
  | task hrun => exact (runTask_spec hrun).1
  | noMatch => exact .refl t
  | failed => exact .refl t

theorem explains (h : CopyStep distro t outcome t') : outcome.Explains t t' := by
  cases h with
  | task hrun => exact (runTask_spec hrun).2
  | noMatch => exact fun _ => rfl
  | failed => exact fun _ => rfl

end CopyStep

/-- The place of the file that an outcome tells was made. -/
def CopyOutcome.newPlace? (t : FileTree) : CopyOutcome → Option Place
  | .copied task => some (t.place task.destination.text)
  | _ => none

theorem CopyOutcome.newPlace?_congr (hbase : t'.base = t.base) (outcome : CopyOutcome) :
    outcome.newPlace? t' = outcome.newPlace? t := by
  cases outcome with
  | copied task => exact congrArg some (FileTree.place_congr hbase _)
  | skipped task => rfl
  | noMatch source destination => rfl
  | failed failure => rfl

namespace CopyOutcome.Explains

variable {outcome : CopyOutcome} {q : Place}

/-- Where an outcome tells that a file was made, there was none, and now there is one. -/
theorem new (h : outcome.Explains t t') (hq : outcome.newPlace? t = some q) :
    t.bytesAt q = none ∧ ∃ content, t'.bytesAt q = some content := by
  cases outcome with
  | copied task =>
    obtain ⟨content, hcopies⟩ := h
    cases hq
    refine ⟨?_, content, (hcopies.bytesAt _).trans (if_pos rfl)⟩
    rw [FileTree.bytesAt, hcopies.absent]
  | skipped task => cases hq
  | noMatch source destination => cases hq
  | failed failure => cases hq

/-- Everywhere else the files are as they were. -/
theorem bytesAt (h : outcome.Explains t t') (hq : outcome.newPlace? t ≠ some q) :
    t'.bytesAt q = t.bytesAt q := by
  cases outcome with
  | copied task =>
    obtain ⟨content, hcopies⟩ := h
    rw [hcopies.bytesAt, if_neg]
    rintro rfl
    exact hq rfl
  | skipped task => exact h q
  | noMatch source destination => exact h q
  | failed failure => exact h q

end CopyOutcome.Explains

/-! ## Runs -/

/-- Outcomes one after another, each on the tree that the one before left. -/
inductive CopyRun (distro : String) : FileTree → List CopyOutcome → FileTree → Prop where
  | nil {t : FileTree} : CopyRun distro t [] t
  | cons {t t₁ t' : FileTree} {outcome : CopyOutcome} {rest : List CopyOutcome} :
      CopyStep distro t outcome t₁ → CopyRun distro t₁ rest t' →
        CopyRun distro t (outcome :: rest) t'

namespace CopyRun

variable {outcomes before after : List CopyOutcome}

theorem single {outcome : CopyOutcome} (h : CopyStep distro t outcome t') :
    CopyRun distro t [outcome] t' := .cons h .nil

theorem append (h : CopyRun distro t before t₁) (h' : CopyRun distro t₁ after t') :
    CopyRun distro t (before ++ after) t' := by
  induction h with
  | nil => exact h'
  | cons hstep _ ih => exact .cons hstep (ih h')

/-- A run can be stopped at each of its outcomes. -/
theorem split {outcome : CopyOutcome} (h : CopyRun distro t (before ++ outcome :: after) t') :
    ∃ t₁ t₂, CopyRun distro t before t₁ ∧ CopyStep distro t₁ outcome t₂ ∧
      CopyRun distro t₂ after t' := by
  induction before generalizing t with
  | nil =>
    cases h with
    | cons hstep hrest => exact ⟨t, _, .nil, hstep, hrest⟩
  | cons first before ih =>
    cases h with
    | cons hstep hrest =>
      obtain ⟨t₁, t₂, hbefore, hhere, hafter⟩ := ih hrest
      exact ⟨t₁, t₂, .cons hstep hbefore, hhere, hafter⟩

theorem keeps (h : CopyRun distro t outcomes t') : t.Extends t' := by
  induction h with
  | nil => exact .refl _
  | cons hstep _ ih => exact hstep.keeps.trans ih

/-- A file that is there only after a run is told of by one outcome, and by one only; of any other
file no outcome tells that it was made. -/
theorem count_newPlaces (h : CopyRun distro t outcomes t') (q : Place) :
    outcomes.countP (fun outcome => outcome.newPlace? t = some q) =
      if (t.bytesAt q).isNone && (t'.bytesAt q).isSome then 1 else 0 := by
  induction h with
  | @nil t => cases t.bytesAt q <;> rfl
  | @cons t t₁ t' outcome rest hstep hrest ih =>
    simp only [CopyOutcome.newPlace?_congr hstep.keeps.base] at ih
    rw [List.countP_cons, ih]
    by_cases hq : outcome.newPlace? t = some q
    · -- it is made here, and then it is there for all that follow
      obtain ⟨hnone, content, hsome⟩ := hstep.explains.new hq
      rw [hnone, hsome, hrest.keeps.bytesAt hsome]
      simp [hq]
    · rw [hstep.explains.bytesAt hq]
      simp [hq]

end CopyRun

/-! ## The files of a distribution -/

theorem copyRun_runTasks (tasks : List CopyTask) (t : FileTree) :
    CopyRun distro t (runTasks distro tasks t).1 (runTasks distro tasks t).2 := by
  induction tasks generalizing t with
  | nil => exact .nil
  | cons task rest ih => exact .cons (.task rfl) (ih _)

theorem copyRun_copyEntry (renderer : Renderer) (vars : Fields) (entry : String × String)
    (t : FileTree) : CopyRun distro t (copyEntry renderer distro vars entry t).1
      (copyEntry renderer distro vars entry t).2 := by
  rw [copyEntry]
  split
  · exact .single .failed
  · split
    · exact .single .failed
    · exact .single .noMatch
    · exact copyRun_runTasks _ t

theorem copyRun_copyEntries (renderer : Renderer) (vars : Fields)
    (entries : List (String × String)) (t : FileTree) :
    CopyRun distro t (copyEntries renderer distro vars entries t).1
      (copyEntries renderer distro vars entries t).2 := by
  induction entries generalizing t with
  | nil => exact .nil
  | cons entry rest ih => exact (copyRun_copyEntry renderer vars entry t).append (ih _)

/-- Copying the files of a distribution is a run with the outcomes that are reported; without a
report nothing was done. -/
theorem copyDistroFiles_cases (ctx : Context) (distro : Distro) (t : FileTree) :
    (∃ e, copyDistroFiles ctx distro t = (.error e, t)) ∨
    ∃ report t', copyDistroFiles ctx distro t = (.ok report, t') ∧
      CopyRun distro.name t report.outcomes t' := by
  rw [copyDistroFiles]
  split
  · exact .inl ⟨_, rfl⟩
  · split
    · exact .inl ⟨_, rfl⟩
    · exact .inr ⟨_, _, rfl, copyRun_copyEntries _ _ _ t⟩

/-- Copying the files of a distribution loses nothing and changes no file, whatever comes of it.
With a report, each file that is new is the destination of exactly one copy.  Every outcome belongs
to a step of the run: a copy found nothing at its destination, and source and destination have the
same bytes ever after, while any other outcome neither makes nor changes a file. -/
theorem copyDistroFiles_keeps (ctx : Context) (distro : Distro) (t : FileTree) :
    ∃ r t', copyDistroFiles ctx distro t = (r, t') ∧ t.Extends t' ∧
      ∀ report, r = .ok report →
        (∀ q, t.bytesAt q = none → t'.bytesAt q ≠ none →
          report.outcomes.countP (fun outcome => outcome.newPlace? t = some q) = 1) ∧
        ∀ before outcome after, report.outcomes = before ++ outcome :: after →
          ∃ t₁ t₂, CopyRun distro.name t before t₁ ∧ CopyStep distro.name t₁ outcome t₂ ∧
            CopyRun distro.name t₂ after t' ∧ outcome.Explains t₁ t₂ ∧
            ∀ task, outcome = .copied task → ∃ content,
              t₁.bytesAt (t₁.place task.source.text) = some content ∧
              t'.read task.source.text = .ok content ∧
              t'.read task.destination.text = .ok content := by
  rcases copyDistroFiles_cases ctx distro t with ⟨e, hrun⟩ | ⟨report, t', hrun, hcopies⟩
  · exact ⟨_, t, hrun, .refl t, nofun⟩
  · refine ⟨_, t', hrun, hcopies.keeps, fun report' hreport => ?_⟩
    cases hreport
    refine ⟨fun q hnone hsome => ?_, fun before outcome after houtcomes => ?_⟩
    · rw [hcopies.count_newPlaces, hnone]
      cases hbytes : t'.bytesAt q with
      | none => exact absurd hbytes hsome
      | some content => rfl
    · rw [houtcomes] at hcopies
      obtain ⟨t₁, t₂, hbefore, hstep, hafter⟩ := hcopies.split
      refine ⟨t₁, t₂, hbefore, hstep, hafter, hstep.explains, fun task htask => ?_⟩
      subst htask
      obtain ⟨content, hcopies⟩ := hstep.explains
      exact ⟨content, hcopies.source, hafter.keeps.read hcopies.readSource,
        hafter.keeps.read hcopies.readDestination⟩

end BootTree

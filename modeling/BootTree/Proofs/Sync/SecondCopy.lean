/-
  Copying the declared files of a distribution a second time.

  1. **Tasks** — after a task was carried out, its file is there, and so is the directory around it
     (`InPlace`).  Both stay, whatever is added to the tree, and a task whose file is in place does
     nothing at all (`copyTask_of_inPlace`).

  2. **Runs** — so tasks and entries that went well come to their settled outcomes on every later
     tree, as long as the entries stand for the same tasks there (`ResolvesAlike`): a copy can add a
     file that a wildcard of an entry before it would have matched.  The second run is compared with
     the first one step by step, but all its steps are on the one tree that the first run left.
-/
import BootTree.Proofs.Files.Settle
import BootTree.Proofs.Sync.Copier

namespace BootTree

variable {distro : String} {t t' u : FileTree}

/-! ## Tasks -/

/-- The file of a task is there, and so is the directory that it is copied to. -/
structure CopyTask.InPlace (task : CopyTask) (t : FileTree) : Prop where
  directory : ∀ parent, task.destination.parent? = some parent →
    parent.text = "" ∨ t.isDirectory parent.text = true
  file : t.isFile task.destination.text = true

theorem FileTree.Extends.isDirectory (h : t.Extends u) {text : String}
    (hd : t.isDirectory text = true) : u.isDirectory text = true := by
  rw [isDirectory_iff] at hd ⊢
  exact h.entry hd

theorem FileTree.Extends.isFile (h : t.Extends u) {text : String} (hf : t.isFile text = true) :
    u.isFile text = true := by
  obtain ⟨content, hentry⟩ := isFile_iff.mp hf
  exact isFile_iff.mpr ⟨content, h.entry hentry⟩

/-- What is in place stays in place. -/
theorem CopyTask.InPlace.mono {task : CopyTask} (h : task.InPlace t) (hu : t.Extends u) :
    task.InPlace u where
  directory parent hparent := (h.directory parent hparent).imp_right hu.isDirectory
  file := hu.isFile h.file

/-- Copying a file where none is adds to the tree, and there is a file afterwards. -/
theorem extends_of_copyIfAbsent {source destination : Path} {status : CopyStatus}
    (h : copyIfAbsent source destination t = (.ok status, t')) :
    t.Extends t' ∧ t'.isFile destination.text = true := by
  rcases copyIfAbsent_cases h with ⟨-, hfile, rfl⟩ | ⟨-, hnew, content, -, hwrite⟩ | ⟨e, he, -⟩
  · exact ⟨.refl _, hfile⟩
  · have hextends : t.Extends t' := .of_write hwrite (FileTree.get?_of_write_new hwrite hnew)
    exact ⟨hextends, FileTree.isFile_iff.mpr ⟨content, FileTree.entry_of_write hwrite⟩⟩
  · cases he

/-- Carrying a task out puts its file in place. -/
theorem inPlace_of_copyTask {task : CopyTask} {status : CopyStatus}
    (h : copyTask task t = (.ok status, t')) : task.InPlace t' := by
  rw [copyTask] at h
  cases hparent : task.destination.parent? with
  | none =>
    rw [hparent] at h
    refine ⟨fun parent hsome => ?_, (extends_of_copyIfAbsent h).2⟩
    rw [hparent] at hsome
    cases hsome
  | some parent =>
    rw [hparent] at h
    obtain ⟨made, t₁, hmake, hcopy⟩ := run_bind_eq_ok.mp h
    obtain ⟨hextends, hfile⟩ := extends_of_copyIfAbsent hcopy
    refine ⟨fun parent' hsome => ?_, hfile⟩
    rw [hparent] at hsome
    cases hsome
    -- the file comes after the directory, and takes nothing away
    exact (isDirectory_of_ensureDirectory hmake).imp_right hextends.isDirectory

/-- A task whose file is in place does nothing. -/
theorem copyTask_of_inPlace {task : CopyTask} (h : task.InPlace t) :
    copyTask task t = (.ok .skipped, t) := by
  rw [copyTask]
  cases hparent : task.destination.parent? with
  | none => exact copyIfAbsent_of_isFile h.file
  | some parent =>
    have hmake := ensureDirectory_of_isDirectory (h.directory parent hparent)
    exact run_bind_eq_ok.mpr ⟨(), t, hmake, copyIfAbsent_of_isFile h.file⟩

/-! ## Outcomes -/

/-- What an outcome becomes when it comes to it again: what was copied is there already. -/
def CopyOutcome.settled : CopyOutcome → CopyOutcome
  | .copied task => .skipped task
  | outcome => outcome

/-- A report with its outcomes as they are the second time. -/
def CopyReport.settled (report : CopyReport) : CopyReport :=
  { report with outcomes := report.outcomes.map CopyOutcome.settled }

theorem CopyReport.isClean_iff {report : CopyReport} :
    report.isClean = true ↔ ∀ outcome ∈ report.outcomes, outcome.failure? = none := by
  rw [isClean, failures, List.isEmpty_iff, List.filterMap_eq_nil_iff]

/-- The second time nothing is copied. -/
theorem CopyReport.copied_settled (report : CopyReport) : report.settled.copied = 0 := by
  rw [copied, settled, List.countP_eq_zero]
  intro outcome hmem
  obtain ⟨first, -, rfl⟩ := List.mem_map.mp hmem
  cases first <;> exact Bool.false_ne_true

/-- A task that went well comes to its settled outcome on every later tree. -/
theorem runTask_again {task : CopyTask} {outcome : CopyOutcome}
    (h : runTask distro task t = (outcome, t')) (hclean : outcome.failure? = none)
    (hlater : t'.Extends u) : runTask distro task u = (outcome.settled, u) := by
  rcases hcopy : copyTask task t with ⟨r, t₁⟩
  rw [runTask, hcopy] at h
  cases r with
  | error e =>
    cases h
    cases hclean
  | ok status =>
    -- copied or skipped, the file of the task is in place now
    have hplace := inPlace_of_copyTask hcopy
    have hsettled : outcome.settled = .skipped task ∧ t₁ = t' := by
      cases status with
      | copied =>
        cases h
        exact ⟨rfl, rfl⟩
      | skipped =>
        cases h
        exact ⟨rfl, rfl⟩
    obtain ⟨houtcome, rfl⟩ := hsettled
    rw [runTask, copyTask_of_inPlace (hplace.mono hlater), houtcome]

/-! ## Runs -/

theorem runTasks_cons (task : CopyTask) (rest : List CopyTask) (t : FileTree) :
    runTasks distro (task :: rest) t =
      ((runTask distro task t).1 :: (runTasks distro rest (runTask distro task t).2).1,
        (runTasks distro rest (runTask distro task t).2).2) := rfl

/-- Tasks that went well come to their settled outcomes on every later tree. -/
theorem runTasks_again {tasks : List CopyTask}
    (hclean : ∀ outcome ∈ (runTasks distro tasks t).1, outcome.failure? = none)
    (hlater : (runTasks distro tasks t).2.Extends u) :
    runTasks distro tasks u = ((runTasks distro tasks t).1.map CopyOutcome.settled, u) := by
  induction tasks generalizing t with
  | nil => rfl
  | cons task rest ih =>
    rw [runTasks_cons] at hclean hlater ⊢
    obtain ⟨hhere, hrest⟩ := List.forall_mem_cons.mp hclean
    -- the later tree is one for the first task as well
    have hextends : (runTask distro task t).2.Extends u :=
      (copyRun_runTasks rest _).keeps.trans hlater
    rw [runTasks_cons, runTask_again rfl hhere hextends, ih hrest hlater]
    rfl

variable {renderer : Renderer} {vars : Fields}

section Entry

variable {entry : String × String} {destination source : String}

theorem copyEntry_of_tasks (hrender : renderEntry renderer vars entry = .ok (destination, source))
    {task : CopyTask} {rest : List CopyTask}
    (htasks : resolveCopyTasks t destination source = .ok (task :: rest)) :
    copyEntry renderer distro vars entry t = runTasks distro (task :: rest) t := by
  rw [copyEntry, hrender]
  dsimp only
  rw [htasks]

theorem copyEntry_of_noMatch (hrender : renderEntry renderer vars entry = .ok (destination, source))
    (hnone : resolveCopyTasks t destination source = .ok []) :
    copyEntry renderer distro vars entry t = ([.noMatch source destination], t) := by
  rw [copyEntry, hrender]
  dsimp only
  rw [hnone]

theorem copyEntry_of_unreadable (hrender : renderEntry renderer vars entry = .ok (destination, source))
    {e : FileError} (herror : resolveCopyTasks t destination source = .error e) :
    copyEntry renderer distro vars entry t =
      ([.failed ⟨distro, source, destination, .file e⟩], t) := by
  rw [copyEntry, hrender]
  dsimp only
  rw [herror]

/-- An entry that went well comes to its settled outcomes on every later tree on which it stands for
the same tasks. -/
theorem copyEntry_again
    (hresolves : ∀ destination source, renderEntry renderer vars entry = .ok (destination, source) →
      resolveCopyTasks u destination source = resolveCopyTasks t destination source)
    (hclean : ∀ outcome ∈ (copyEntry renderer distro vars entry t).1, outcome.failure? = none)
    (hlater : (copyEntry renderer distro vars entry t).2.Extends u) :
    copyEntry renderer distro vars entry u =
      ((copyEntry renderer distro vars entry t).1.map CopyOutcome.settled, u) := by
  cases hrender : renderEntry renderer vars entry with
  | error e =>
    rw [copyEntry, copyEntry, hrender]
    rfl
  | ok rendered =>
    obtain ⟨destination, source⟩ := rendered
    have hsame := hresolves destination source hrender
    cases htasks : resolveCopyTasks t destination source with
    | error e =>
      rw [copyEntry_of_unreadable hrender htasks, copyEntry_of_unreadable hrender (hsame.trans htasks)]
      rfl
    | ok tasks =>
      cases tasks with
      | nil =>
        rw [copyEntry_of_noMatch hrender htasks, copyEntry_of_noMatch hrender (hsame.trans htasks)]
        rfl
      | cons task rest =>
        rw [copyEntry_of_tasks hrender htasks] at hclean hlater ⊢
        rw [copyEntry_of_tasks hrender (hsame.trans htasks)]
        exact runTasks_again hclean hlater

end Entry

/-- Each entry stands for the same tasks on a tree as when its turn came. -/
def ResolvesAlike (renderer : Renderer) (distro : String) (vars : Fields)
    (entries : List (String × String)) (t u : FileTree) : Prop :=
  ∀ before entry after, entries = before ++ entry :: after →
    ∀ destination source, renderEntry renderer vars entry = .ok (destination, source) →
      resolveCopyTasks u destination source =
        resolveCopyTasks (copyEntries renderer distro vars before t).2 destination source

theorem resolvesAlike_nil : ResolvesAlike renderer distro vars [] t u := by
  intro before entry after h
  cases before <;> cases h

theorem resolvesAlike_cons {entry : String × String} {rest : List (String × String)} :
    ResolvesAlike renderer distro vars (entry :: rest) t u ↔
      (∀ destination source, renderEntry renderer vars entry = .ok (destination, source) →
        resolveCopyTasks u destination source = resolveCopyTasks t destination source) ∧
      ResolvesAlike renderer distro vars rest (copyEntry renderer distro vars entry t).2 u := by
  constructor
  · intro h
    refine ⟨h [] entry rest rfl, fun before entry' after hrest => ?_⟩
    exact h (entry :: before) entry' after (congrArg (entry :: ·) hrest)
  · rintro ⟨hhere, hrest⟩ before entry' after h
    cases before with
    | nil =>
      cases h
      exact hhere
    | cons first before =>
      cases h
      exact hrest before entry' after rfl

/-- For an entry that is rendered there are only its own texts to look at. -/
theorem ResolvesAlike.cons {entry : String × String} {rest : List (String × String)}
    (destination source : String) (hrender : renderEntry renderer vars entry = .ok (destination, source))
    (hhere : resolveCopyTasks u destination source = resolveCopyTasks t destination source)
    (hrest : ResolvesAlike renderer distro vars rest (copyEntry renderer distro vars entry t).2 u) :
    ResolvesAlike renderer distro vars (entry :: rest) t u := by
  refine resolvesAlike_cons.mpr ⟨fun destination' source' hrender' => ?_, hrest⟩
  rw [hrender] at hrender'
  cases hrender'
  exact hhere

theorem copyEntries_cons (entry : String × String) (rest : List (String × String)) (t : FileTree) :
    copyEntries renderer distro vars (entry :: rest) t =
      ((copyEntry renderer distro vars entry t).1 ++
          (copyEntries renderer distro vars rest (copyEntry renderer distro vars entry t).2).1,
        (copyEntries renderer distro vars rest (copyEntry renderer distro vars entry t).2).2) := rfl

/-- Entries that went well come to their settled outcomes on every later tree on which each of them
stands for the same tasks. -/
theorem copyEntries_again {entries : List (String × String)}
    (hresolves : ResolvesAlike renderer distro vars entries t u)
    (hclean : ∀ outcome ∈ (copyEntries renderer distro vars entries t).1, outcome.failure? = none)
    (hlater : (copyEntries renderer distro vars entries t).2.Extends u) :
    copyEntries renderer distro vars entries u =
      ((copyEntries renderer distro vars entries t).1.map CopyOutcome.settled, u) := by
  induction entries generalizing t with
  | nil => rfl
  | cons entry rest ih =>
    obtain ⟨hhere, hrest⟩ := resolvesAlike_cons.mp hresolves
    rw [copyEntries_cons] at hclean hlater ⊢
    obtain ⟨hblock, hothers⟩ := List.forall_mem_append.mp hclean
    have hextends : (copyEntry renderer distro vars entry t).2.Extends u :=
      (copyRun_copyEntries renderer vars rest _).keeps.trans hlater
    rw [copyEntries_cons, copyEntry_again hhere hblock hextends, ih hrest hothers hlater,
      List.map_append]

/-! ## The files of a distribution -/

/-- What the templates of a distribution are filled from. -/
def copyVariables (ctx : Context) (distro : Distro) (view : Blended) : Fields :=
  Fields.insertAll view.values (imageVariables ctx.settings distro)

section Distribution

variable {ctx : Context} {distro : Distro} {view : Blended} {files : TemplateFiles}
  {report : CopyReport}

/-- Where there is a view that declares files, its entries are dealt with. -/
theorem copyDistroFiles_of_view (hview : ctx.resolver.blend (.distro distro) false = .ok view)
    (hfiles : view.templateFiles = .ok files) (t : FileTree) :
    copyDistroFiles ctx distro t =
      (.ok ⟨distro.name, (copyEntries ctx.renderer distro.name (copyVariables ctx distro view)
          files.entries t).1⟩,
        (copyEntries ctx.renderer distro.name (copyVariables ctx distro view)
          files.entries t).2) := by
  rw [copyDistroFiles, hview]
  dsimp only
  rw [hfiles]
  rfl

/-- Without a view that declares files there is no report. -/
theorem exists_view_of_copyDistroFiles (h : copyDistroFiles ctx distro t = (.ok report, t')) :
    ∃ view files, ctx.resolver.blend (.distro distro) false = .ok view ∧
      view.templateFiles = .ok files := by
  rw [copyDistroFiles] at h
  split at h
  · cases h
  · next view hview =>
    split at h
    · cases h
    · next files hfiles => exact ⟨view, files, hview, hfiles⟩

/-- The copies do not feed one another: on the second tree every entry of the distribution stands for
the tasks for which it stood when its turn came on the first one. -/
def CopiesApart (ctx : Context) (distro : Distro) (t u : FileTree) : Prop :=
  ∀ view files, ctx.resolver.blend (.distro distro) false = .ok view →
    view.templateFiles = .ok files →
      ResolvesAlike ctx.renderer distro.name (copyVariables ctx distro view) files.entries t u

/-- Copying the files of a distribution is idempotent where the copies do not feed one another.  If
all went well the first time, the second time there is a report again, the tree stays exactly as it
was, and every file that was copied is skipped, while all other outcomes are the same. -/
theorem copyDistroFiles_again (h : copyDistroFiles ctx distro t = (.ok report, t'))
    (hclean : report.isClean = true) (hapart : CopiesApart ctx distro t t') :
    copyDistroFiles ctx distro t' = (.ok report.settled, t') ∧ report.settled.copied = 0 := by
  refine ⟨?_, report.copied_settled⟩
  obtain ⟨view, files, hview, hfiles⟩ := exists_view_of_copyDistroFiles h
  have hresolves := hapart view files hview hfiles
  rw [copyDistroFiles_of_view hview hfiles] at h ⊢
  cases h
  rw [copyEntries_again hresolves (CopyReport.isClean_iff.mp hclean) (.refl _)]
  rfl

end Distribution

/-! ### A distribution that declares files

  The second file is for a destination that is taken by then, and the third one is missing. -/

def declaringEntries : List (String × String) :=
  [("/b/{{ name }}/y", "/s/y"), ("/b/d/y", "/s/x"), ("/c", "/s/z")]

def declaringDistro : Distro where
  name := "d"
  kernel := "k"
  initrd := "i"
  templateFiles := .ofList declaringEntries

def declaringContext : Context := .standard {} .empty true

/-- The tree that has two of the files. -/
def declaringTree : FileTree :=
  let t := FileTree.empty [] "8"
  let t := t.put "s" [] .directory
  let t := t.put "x" ["s"] (.file "x".toUTF8)
  t.put "y" ["s"] (.file "y".toUTF8)

/-- The tree with the one file that is copied. -/
def declaringLeft : FileTree :=
  let t := declaringTree.put "b" [] .directory
  let t := t.put "d" ["b"] .directory
  t.put "y" ["d", "b"] (.file "y".toUTF8)

/-- What comes of copying its files. -/
def declaringReport : CopyReport :=
  ⟨"d", [.copied ⟨⟨"/s/y"⟩, ⟨"/b/d/y"⟩⟩, .skipped ⟨⟨"/s/x"⟩, ⟨"/b/d/y"⟩⟩, .noMatch "/s/z" "/c"]⟩

def declaringView : Blended :=
  ⟨Fields.merge declaringContext.settings.layer declaringDistro.layer⟩

theorem templateFiles_declaring : ∃ files, declaringView.templateFiles = .ok files ∧
    files.entries = declaringEntries :=
  ⟨declaringDistro.templateFiles, by decide +kernel, by decide +kernel⟩

/-- The entries with their texts filled in. -/
theorem renderEntry_declaring :
    declaringEntries.map (renderEntry declaringContext.renderer
        (copyVariables declaringContext declaringDistro declaringView)) =
      [.ok ("/b/d/y", "/s/y"), .ok ("/b/d/y", "/s/x"), .ok ("/c", "/s/z")] := by
  decide +kernel

/-- The entries come to these outcomes, and they stand for the same tasks afterwards. -/
theorem copyEntries_declaring {renderer : Renderer} {vars : Fields} (name : String)
    (hrender : declaringEntries.map (renderEntry renderer vars) =
      [.ok ("/b/d/y", "/s/y"), .ok ("/b/d/y", "/s/x"), .ok ("/c", "/s/z")]) :
    copyEntries renderer name vars declaringEntries declaringTree =
        (declaringReport.outcomes, declaringLeft) ∧
      ResolvesAlike renderer name vars declaringEntries declaringTree declaringLeft := by
  simp only [declaringEntries, List.map_cons, List.cons.injEq] at hrender ⊢
  obtain ⟨hfirst, hsecond, hthird, -⟩ := hrender
  have first : copyEntry renderer name vars ("/b/{{ name }}/y", "/s/y") declaringTree =
      ([.copied ⟨⟨"/s/y"⟩, ⟨"/b/d/y"⟩⟩], declaringLeft) := by
    have htasks : resolveCopyTasks declaringTree "/b/d/y" "/s/y" =
        .ok [⟨⟨"/s/y"⟩, ⟨"/b/d/y"⟩⟩] := by decide +kernel
    rw [copyEntry_of_tasks hfirst htasks]
    rfl
  have second : copyEntry renderer name vars ("/b/d/y", "/s/x") declaringLeft =
      ([.skipped ⟨⟨"/s/x"⟩, ⟨"/b/d/y"⟩⟩], declaringLeft) := by
    have htasks : resolveCopyTasks declaringLeft "/b/d/y" "/s/x" =
        .ok [⟨⟨"/s/x"⟩, ⟨"/b/d/y"⟩⟩] := by decide +kernel
    rw [copyEntry_of_tasks hsecond htasks]
    rfl
  have third : copyEntry renderer name vars ("/c", "/s/z") declaringLeft =
      ([.noMatch "/s/z" "/c"], declaringLeft) :=
    copyEntry_of_noMatch hthird (by decide +kernel)
  constructor
  · rw [copyEntries_cons, first, copyEntries_cons, second, copyEntries_cons, third]
    rfl
  · refine .cons "/b/d/y" "/s/y" hfirst (by decide +kernel) ?_
    rw [first]
    refine .cons "/b/d/y" "/s/x" hsecond rfl ?_
    rw [second]
    exact .cons "/c" "/s/z" hthird rfl resolvesAlike_nil

theorem copyDistroFiles_declaring :
    copyDistroFiles declaringContext declaringDistro declaringTree =
      (.ok declaringReport, declaringLeft) := by
  obtain ⟨files, hfiles, hentries⟩ := templateFiles_declaring
  have hcopies := (copyEntries_declaring declaringDistro.name renderEntry_declaring).1
  rw [copyDistroFiles_of_view rfl hfiles, hentries, hcopies]
  rfl

theorem copiesApart_declaring :
    CopiesApart declaringContext declaringDistro declaringTree declaringLeft := by
  intro view files hview hfiles
  obtain ⟨files', hfiles', hentries⟩ := templateFiles_declaring
  cases hview
  cases hfiles.symm.trans hfiles'
  rw [hentries]
  exact (copyEntries_declaring declaringDistro.name renderEntry_declaring).2

/-- These copies do not feed one another, and the second time both files are skipped. -/
theorem copyDistroFiles_declaring_again :
    copyDistroFiles declaringContext declaringDistro declaringTree =
      (.ok declaringReport, declaringLeft) ∧
    declaringReport.isClean = true ∧
    CopiesApart declaringContext declaringDistro declaringTree declaringLeft ∧
    copyDistroFiles declaringContext declaringDistro declaringLeft =
      (.ok ⟨"d", [.skipped ⟨⟨"/s/y"⟩, ⟨"/b/d/y"⟩⟩, .skipped ⟨⟨"/s/x"⟩, ⟨"/b/d/y"⟩⟩,
        .noMatch "/s/z" "/c"]⟩, declaringLeft) := by
  have hclean : declaringReport.isClean = true := by decide
  have hagain := copyDistroFiles_again copyDistroFiles_declaring hclean copiesApart_declaring
  exact ⟨copyDistroFiles_declaring, hclean, copiesApart_declaring, hagain.1⟩

/-- A copy that makes the source of an entry before it does feed that entry: its file is copied the
second time. -/
example :
    let entries := [("/b", "/s/z"), ("/s/z", "/s/x")]
    let first := copyEntries (.placeholders true) "d" [] entries declaringTree
    first.1 = [.noMatch "/s/z" "/b", .copied ⟨⟨"/s/x"⟩, ⟨"/s/z"⟩⟩] ∧
      (copyEntries (.placeholders true) "d" [] entries first.2).1 =
        [.copied ⟨⟨"/s/z"⟩, ⟨"/b"⟩⟩, .skipped ⟨⟨"/s/x"⟩, ⟨"/s/z"⟩⟩] := by
  decide +kernel

end BootTree

/-
  The report of the copier accounts for everything.

  1. **Tasks** — a task comes to one outcome, which tells what the copy gave and names the task
     (`ComesTo`), and tasks come to one outcome each, in their order (`TaskBlock`).

  2. **Entries** — an entry comes to a block of outcomes: one failure if it cannot be rendered or
     its wildcards cannot be expanded, one note if it stands for no tasks, and otherwise what its
     tasks come to (`EntryBlock`).  No block is empty (`EntryBlock.ne_nil`).

  3. **Accounts** — the entries of a distribution come to one block each, every one on the tree that
     the entries before it left, whatever became of them (`Account`).  A report is such an account
     with its blocks put together, and there is no other report (`copyDistroFiles_accounts`).
-/
import BootTree.Proofs.Sync.SecondCopy

namespace BootTree

variable {distro : String} {t t₁ t' : FileTree}

/-! ## Tasks -/

/-- What a task comes to on a tree, and the tree that it leaves.  A failure names the paths of the
task. -/
inductive CopyTask.ComesTo (distro : String) (task : CopyTask) (t : FileTree) :
    CopyOutcome → FileTree → Prop where
  | copied {t' : FileTree} : copyTask task t = (.ok .copied, t') →
      ComesTo distro task t (.copied task) t'
  | skipped {t' : FileTree} : copyTask task t = (.ok .skipped, t') →
      ComesTo distro task t (.skipped task) t'
  | failed {t' : FileTree} {e : FileError} : copyTask task t = (.error e, t') →
      ComesTo distro task t
        (.failed ⟨distro, task.source.text, task.destination.text, .file e⟩) t'

theorem CopyTask.comesTo_iff {task : CopyTask} {outcome : CopyOutcome} :
    task.ComesTo distro t outcome t' ↔ runTask distro task t = (outcome, t') := by
  constructor
  · intro h
    cases h with
    | copied hcopy => rw [runTask, hcopy]
    | skipped hcopy => rw [runTask, hcopy]
    | failed hcopy => rw [runTask, hcopy]
  · intro h
    rw [runTask] at h
    split at h
    · next hcopy =>
      cases h
      exact .copied hcopy
    · next hcopy =>
      cases h
      exact .skipped hcopy
    · next hcopy =>
      cases h
      exact .failed hcopy

/-- One outcome for every task, in their order, each on the tree that the one before left. -/
inductive TaskBlock (distro : String) :
    FileTree → List CopyTask → List CopyOutcome → FileTree → Prop where
  | nil {t : FileTree} : TaskBlock distro t [] [] t
  | cons {t t₁ t' : FileTree} {task : CopyTask} {outcome : CopyOutcome} {rest : List CopyTask}
      {outcomes : List CopyOutcome} : task.ComesTo distro t outcome t₁ →
        TaskBlock distro t₁ rest outcomes t' →
          TaskBlock distro t (task :: rest) (outcome :: outcomes) t'

namespace TaskBlock

variable {tasks : List CopyTask} {outcomes : List CopyOutcome}

theorem of_runTasks (tasks : List CopyTask) (t : FileTree) :
    TaskBlock distro t tasks (runTasks distro tasks t).1 (runTasks distro tasks t).2 := by
  induction tasks generalizing t with
  | nil => exact .nil
  | cons task rest ih =>
    rw [runTasks_cons]
    exact .cons (CopyTask.comesTo_iff.mpr rfl) (ih _)

theorem runTasks_eq (h : TaskBlock distro t tasks outcomes t') :
    runTasks distro tasks t = (outcomes, t') := by
  induction h with
  | nil => rfl
  | cons hhere _ ih => rw [runTasks_cons, CopyTask.comesTo_iff.mp hhere, ih]

theorem length_eq (h : TaskBlock distro t tasks outcomes t') : outcomes.length = tasks.length := by
  induction h with
  | nil => rfl
  | cons _ _ ih => rw [List.length_cons, List.length_cons, ih]

end TaskBlock

/-! ## Entries -/

variable {renderer : Renderer} {vars : Fields} {entry : String × String}

/-- What an entry comes to on a tree, and the tree that it leaves. -/
inductive EntryBlock (renderer : Renderer) (distro : String) (vars : Fields) (t : FileTree)
    (entry : String × String) : List CopyOutcome → FileTree → Prop where
  | unrenderedDestination {e : SyncError} : renderer.render entry.1 vars = .error e →
      EntryBlock renderer distro vars t entry [.failed ⟨distro, entry.2, entry.1, e⟩] t
  | unrenderedSource {destination : String} {e : SyncError} :
      renderer.render entry.1 vars = .ok destination → renderer.render entry.2 vars = .error e →
        EntryBlock renderer distro vars t entry [.failed ⟨distro, entry.2, entry.1, e⟩] t
  | unexpanded {destination source : String} {e : FileError} :
      renderer.render entry.1 vars = .ok destination → renderer.render entry.2 vars = .ok source →
        resolveCopyTasks t destination source = .error e →
          EntryBlock renderer distro vars t entry
            [.failed ⟨distro, source, destination, .file e⟩] t
  | noMatch {destination source : String} :
      renderer.render entry.1 vars = .ok destination → renderer.render entry.2 vars = .ok source →
        resolveCopyTasks t destination source = .ok [] →
          EntryBlock renderer distro vars t entry [.noMatch source destination] t
  | tasks {destination source : String} {tasks : List CopyTask} {outcomes : List CopyOutcome}
      {t' : FileTree} :
      renderer.render entry.1 vars = .ok destination → renderer.render entry.2 vars = .ok source →
        resolveCopyTasks t destination source = .ok tasks → tasks ≠ [] →
          TaskBlock distro t tasks outcomes t' →
            EntryBlock renderer distro vars t entry outcomes t'

theorem renderEntry_eq_ok {destination source : String} :
    renderEntry renderer vars entry = .ok (destination, source) ↔
      renderer.render entry.1 vars = .ok destination ∧
        renderer.render entry.2 vars = .ok source := by
  rw [renderEntry, bind_eq_ok]
  constructor
  · rintro ⟨d, hdestination, h⟩
    obtain ⟨s, hsource, h⟩ := bind_eq_ok.mp h
    cases h
    exact ⟨hdestination, hsource⟩
  · rintro ⟨hdestination, hsource⟩
    exact ⟨destination, hdestination, bind_eq_ok.mpr ⟨source, hsource, rfl⟩⟩

theorem renderEntry_eq_error {e : SyncError} :
    renderEntry renderer vars entry = .error e ↔
      renderer.render entry.1 vars = .error e ∨
        ∃ destination, renderer.render entry.1 vars = .ok destination ∧
          renderer.render entry.2 vars = .error e := by
  rw [renderEntry, bind_eq_error]
  refine or_congr_right (exists_congr fun destination => and_congr_right fun _ => ?_)
  rw [bind_eq_error]
  constructor
  · rintro (hsource | ⟨source, -, h⟩)
    · exact hsource
    · cases h
  · exact .inl

namespace EntryBlock

variable {block : List CopyOutcome}

theorem of_copyEntry (entry : String × String) (t : FileTree) :
    EntryBlock renderer distro vars t entry (copyEntry renderer distro vars entry t).1
      (copyEntry renderer distro vars entry t).2 := by
  cases hrender : renderEntry renderer vars entry with
  | error e =>
    rw [copyEntry, hrender]
    rcases renderEntry_eq_error.mp hrender with hdestination | ⟨destination, hdestination, hsource⟩
    · exact .unrenderedDestination hdestination
    · exact .unrenderedSource hdestination hsource
  | ok rendered =>
    obtain ⟨destination, source⟩ := rendered
    obtain ⟨hdestination, hsource⟩ := renderEntry_eq_ok.mp hrender
    cases htasks : resolveCopyTasks t destination source with
    | error e =>
      rw [copyEntry_of_unreadable hrender htasks]
      exact .unexpanded hdestination hsource htasks
    | ok tasks =>
      cases tasks with
      | nil =>
        rw [copyEntry_of_noMatch hrender htasks]
        exact .noMatch hdestination hsource htasks
      | cons task rest =>
        rw [copyEntry_of_tasks hrender htasks]
        exact .tasks hdestination hsource htasks (List.cons_ne_nil task rest) (.of_runTasks _ t)

theorem copyEntry_eq (h : EntryBlock renderer distro vars t entry block t') :
    copyEntry renderer distro vars entry t = (block, t') := by
  cases h with
  | unrenderedDestination hdestination =>
    rw [copyEntry, renderEntry_eq_error.mpr (.inl hdestination)]
  | unrenderedSource hdestination hsource =>
    rw [copyEntry, renderEntry_eq_error.mpr (.inr ⟨_, hdestination, hsource⟩)]
  | unexpanded hdestination hsource htasks =>
    exact copyEntry_of_unreadable (renderEntry_eq_ok.mpr ⟨hdestination, hsource⟩) htasks
  | noMatch hdestination hsource htasks =>
    exact copyEntry_of_noMatch (renderEntry_eq_ok.mpr ⟨hdestination, hsource⟩) htasks
  | @tasks _ _ tasks _ _ hdestination hsource htasks hsome hblock =>
    obtain ⟨task, rest, rfl⟩ := List.exists_cons_of_ne_nil hsome
    rw [copyEntry_of_tasks (renderEntry_eq_ok.mpr ⟨hdestination, hsource⟩) htasks]
    exact hblock.runTasks_eq

/-- No entry is passed over. -/
theorem ne_nil (h : EntryBlock renderer distro vars t entry block t') : block ≠ [] := by
  cases h with
  | unrenderedDestination => exact List.cons_ne_nil _ _
  | unrenderedSource => exact List.cons_ne_nil _ _
  | unexpanded => exact List.cons_ne_nil _ _
  | noMatch => exact List.cons_ne_nil _ _
  | tasks _ _ _ hsome hblock =>
    intro hempty
    have hlength := hblock.length_eq
    rw [hempty, List.length_nil] at hlength
    exact hsome (List.eq_nil_of_length_eq_zero hlength.symm)

end EntryBlock

/-! ## Accounts -/

/-- One block for every entry, in their order, each on the tree that the one before left. -/
inductive Account (renderer : Renderer) (distro : String) (vars : Fields) :
    FileTree → List (String × String) → List (List CopyOutcome) → FileTree → Prop where
  | nil {t : FileTree} : Account renderer distro vars t [] [] t
  | cons {t t₁ t' : FileTree} {entry : String × String} {block : List CopyOutcome}
      {rest : List (String × String)} {blocks : List (List CopyOutcome)} :
      EntryBlock renderer distro vars t entry block t₁ →
        Account renderer distro vars t₁ rest blocks t' →
          Account renderer distro vars t (entry :: rest) (block :: blocks) t'

namespace Account

variable {entries : List (String × String)} {blocks : List (List CopyOutcome)}

theorem of_copyEntries (renderer : Renderer) (distro : String) (vars : Fields)
    (entries : List (String × String)) (t : FileTree) :
    ∃ blocks, Account renderer distro vars t entries blocks
        (copyEntries renderer distro vars entries t).2 ∧
      (copyEntries renderer distro vars entries t).1 = blocks.flatten := by
  induction entries generalizing t with
  | nil => exact ⟨[], .nil, rfl⟩
  | cons entry rest ih =>
    obtain ⟨blocks, hrest, hflatten⟩ := ih (copyEntry renderer distro vars entry t).2
    rw [copyEntries_cons]
    refine ⟨_ :: blocks, .cons (.of_copyEntry entry t) hrest, ?_⟩
    rw [List.flatten_cons, hflatten]

theorem copyEntries_eq (h : Account renderer distro vars t entries blocks t') :
    copyEntries renderer distro vars entries t = (blocks.flatten, t') := by
  induction h with
  | nil => rfl
  | cons hhere _ ih => rw [copyEntries_cons, hhere.copyEntry_eq, ih, List.flatten_cons]

theorem length_eq (h : Account renderer distro vars t entries blocks t') :
    blocks.length = entries.length := by
  induction h with
  | nil => rfl
  | cons _ _ ih => rw [List.length_cons, List.length_cons, ih]

theorem forall_ne_nil (h : Account renderer distro vars t entries blocks t') :
    ∀ block ∈ blocks, block ≠ [] := by
  induction h with
  | nil => exact fun _ hmem => nomatch hmem
  | cons hhere _ ih => exact List.forall_mem_cons.mpr ⟨hhere.ne_nil, ih⟩

end Account

/-! ## Reports -/

/-- Every outcome is a copy, a skip, a failure, or the note that there was nothing to copy. -/
theorem CopyReport.attempted_eq (report : CopyReport) :
    report.attempted = report.copied + report.skipped + report.failures.length := by
  obtain ⟨distro, outcomes⟩ := report
  simp only [attempted, copied, skipped, failures, List.length_filterMap_eq_countP]
  induction outcomes with
  | nil => rfl
  | cons outcome rest ih =>
    have hone : (if !outcome.isNoMatch then 1 else 0) =
        (if outcome.isCopied then 1 else 0) + (if outcome.isSkipped then 1 else 0) +
          (if outcome.failure?.isSome then 1 else 0) := by
      cases outcome <;> rfl
    rw [List.countP_cons, List.countP_cons, List.countP_cons, List.countP_cons, ih, hone]
    omega

/-- The report of the copier accounts for everything.  It is made exactly where there is a view that
declares files, and it puts together the blocks of the declared entries: one for every entry, in
their order and never empty, each on the tree that the entries before it left.  An attempt is a copy,
a skip or a failure, and every outcome is one but the note that an entry stands for no files. -/
theorem copyDistroFiles_accounts (ctx : Context) (distro : Distro) (report : CopyReport)
    (t t' : FileTree) :
    (copyDistroFiles ctx distro t = (.ok report, t') ↔
      ∃ view files blocks, ctx.resolver.blend (.distro distro) false = .ok view ∧
        view.templateFiles = .ok files ∧
        Account ctx.renderer distro.name (copyVariables ctx distro view) t files.entries blocks t' ∧
        blocks.length = files.size ∧ (∀ block ∈ blocks, block ≠ []) ∧
        report = ⟨distro.name, blocks.flatten⟩) ∧
    report.attempted = report.copied + report.skipped + report.failures.length ∧
    report.attempted = (report.outcomes.filter fun outcome => !outcome.isNoMatch).length := by
  refine ⟨⟨fun h => ?_, ?_⟩, report.attempted_eq, List.countP_eq_length_filter⟩
  · obtain ⟨view, files, hview, hfiles⟩ := exists_view_of_copyDistroFiles h
    obtain ⟨blocks, haccount, hflatten⟩ := Account.of_copyEntries ctx.renderer distro.name
      (copyVariables ctx distro view) files.entries t
    rw [copyDistroFiles_of_view hview hfiles] at h
    cases h
    exact ⟨view, files, blocks, hview, hfiles, haccount, haccount.length_eq,
      haccount.forall_ne_nil, by rw [hflatten]⟩
  · rintro ⟨view, files, blocks, hview, hfiles, haccount, -, -, rfl⟩
    rw [copyDistroFiles_of_view hview hfiles, haccount.copyEntries_eq]

end BootTree

/-
  What keeps a task from copying.

  The destination of a task is a path of names (`Path.IsClean`).  A task makes the directory of its
  destination and copies on the tree that this leaves (`withDirectory`); the directory can be made
  wherever no file is in the way (`copyTask_of_clear`).  So a task skips where there is a file at its
  destination, it copies where nothing is there, no file is in the way and the source is a file, and
  it fails in every other case (`copyTask_obstacles`).

  The source is looked at last.  Through a directory on the way to the destination that was missing,
  a source with `..` may lead to a file that it did not lead to before
  (`copyTask_through_new_directory`); any other source, and one that leads to something already, is
  what it was.
-/
import BootTree.Proofs.Files.Directories
import BootTree.Proofs.Sync.Copier

namespace BootTree

open FileTree
open Trail (IsName textOf)

/-- A path that has only names in it, absolute or relative. -/
def Path.IsClean (p : Path) : Prop := ∀ s ∈ (Trail.ofText p.text).segments, IsName s

instance (p : Path) : Decidable p.IsClean :=
  inferInstanceAs (Decidable (∀ s ∈ (Trail.ofText p.text).segments, IsName s))

theorem Path.IsClean.exists_names {p : Path} (h : p.IsClean) : ∃ rooted name l,
    p = ⟨textOf rooted (name :: l)⟩ ∧ ∀ s ∈ name :: l, IsName s := by
  obtain ⟨name, l, hnames⟩ := List.exists_cons_of_ne_nil (Trail.backward_ne_nil p.text)
  refine ⟨(Trail.ofText p.text).rooted, name, l, ?_, fun s hs => ?_⟩
  · rw [← hnames]
    exact congrArg Path.mk (Trail.text_ofText p.text).symm
  · exact h s (List.mem_reverse.mpr (hnames ▸ hs))

namespace CopyTask

/-- Nothing is in the way of a copy: there is nothing at the destination and no file among its
parents, its path is not too long, and the source is a file. -/
structure Possible (task : CopyTask) (t : FileTree) : Prop where
  absent : t.has task.destination.text = false
  way : ∀ a ∈ (Trail.ofText task.destination.text).ancestors, t.isFile a.text = false
  short : task.destination.text.utf8ByteSize < pathLimit
  source : (task.withDirectory t).isFile task.source.text = true

end CopyTask

variable {task : CopyTask} {t t' : FileTree} {rooted : Bool} {l : List String}
  {name text : String}

/-! ## The directory of the destination -/

section Names

variable (hd : task.destination = ⟨textOf rooted (name :: l)⟩) (hl : ∀ s ∈ name :: l, IsName s)

include hd hl

/-- The directory of the destination is the path without its last name; there is none for a single
name, and then nothing is made. -/
theorem prepare_eq : task.prepare t = ensureDirectory ⟨textOf rooted l⟩ t := by
  obtain ⟨hname, hrest⟩ := List.forall_mem_cons.mp hl
  rw [CopyTask.prepare, hd, Trail.parent?_textOf hrest hname]
  by_cases hempty : textOf rooted l = ""
  · rw [if_pos hempty]
    exact (ensureDirectory_of_isDirectory (.inl hempty)).symm
  · rw [if_neg hempty]

/-- The destination itself is not made a directory. -/
theorem get?_withDirectory_ne (hne : t.get? (t.site rooted (name :: l)) ≠ some .directory) :
    (task.withDirectory t).get? (t.site rooted (name :: l)) ≠ some .directory := by
  obtain ⟨-, hrest⟩ := List.forall_mem_cons.mp hl
  rw [CopyTask.withDirectory, prepare_eq hd hl]
  intro hmade
  -- what is made is on the way, and has fewer names in front of the start
  obtain ⟨m, hm, hsite⟩ := site_of_ensureDirectory hrest hne hmade
  have hlength := congrArg List.length hsite
  have hshorter := hm.length_le
  simp only [site, List.length_append, List.length_cons] at hlength
  omega

/-- Where no file is in the way, the directory of the destination is made, and the task copies. -/
theorem copyTask_of_clear (hstart : t.get? (t.site rooted []) = some .directory)
    (hsize : (textOf rooted (name :: l)).utf8ByteSize < pathLimit) (hclear : t.Clear rooted l) :
    copyTask task t = copyIfAbsent task.source task.destination (task.withDirectory t) ∧
      (task.withDirectory t).get? (t.site rooted l) = some .directory := by
  obtain ⟨hname, hrest⟩ := List.forall_mem_cons.mp hl
  have hsize' : (textOf rooted l).utf8ByteSize < pathLimit :=
    Nat.lt_of_le_of_lt (Trail.size_textOf_le hl (List.suffix_cons name l)) hsize
  obtain ⟨t₁, hmake⟩ := exists_ensureDirectory hrest hsize' hstart hclear
  have hprepare : task.prepare t = (.ok (), t₁) := (prepare_eq hd hl).trans hmake
  rw [copyTask_eq, run_bind, CopyTask.withDirectory, hprepare]
  exact ⟨rfl, get?_of_ensureDirectory hrest hstart hmake⟩

end Names

/-! ## Looking at the tree as it was -/

/-- Whether there is a file at the destination does not depend on the directories that are made. -/
theorem isFile_withDirectory (hup : ".." ∉ (Trail.ofText text).segments) :
    (task.withDirectory t).isFile text = t.isFile text :=
  isFile_congr hup (withDirectory_adds task t).base ((withDirectory_adds task t).bytesAt _)

/-- Nor does what a path leads to already. -/
theorem isFile_withDirectory_of_has (h : t.has text = true) :
    (task.withDirectory t).isFile text = t.isFile text := by
  have hextends := Extends.of_addsDirectories (withDirectory_adds task t)
  rw [has] at h
  cases hentry : t.entry text with
  | error cause =>
    rw [hentry] at h
    cases h
  | ok e => rw [isFile, isFile, hextends.entry hentry, hentry]

/-! ## Endings -/

theorem copyIfAbsent_of_copyTask {status : CopyStatus} (h : (copyTask task t).1 = .ok status) :
    ∃ t', copyIfAbsent task.source task.destination (task.withDirectory t) = (.ok status, t') := by
  rcases copyTask_cases task t with ⟨e, hrun⟩ | hrun
  · rw [hrun] at h
    cases h
  · exact ⟨(copyTask task t).2, hrun.symm.trans (Prod.ext h rfl)⟩

section Endings

variable (hd : task.destination = ⟨textOf rooted (name :: l)⟩) (hl : ∀ s ∈ name :: l, IsName s)

include hd hl

theorem isFile_destination : (task.withDirectory t).isFile task.destination.text =
    t.isFile task.destination.text := by
  refine isFile_withDirectory fun hup => ?_
  rw [hd, Trail.ofText_textOf_of_isName hl (List.cons_ne_nil name l), Trail.segments,
    List.mem_reverse] at hup
  exact (hl ".." hup).proper.2.2 rfl

/-- A task skips exactly where there is a file at its destination. -/
theorem copyTask_skipped_iff (hstart : t.get? (t.site rooted []) = some .directory) :
    (copyTask task t).1 = .ok .skipped ↔ t.isFile task.destination.text = true := by
  constructor
  · intro hskipped
    obtain ⟨t', hcopy⟩ := copyIfAbsent_of_copyTask hskipped
    rcases copyIfAbsent_cases hcopy with ⟨-, hfile, -⟩ | ⟨hcopied, -⟩ | ⟨e, hfailed, -⟩
    · rwa [isFile_destination hd hl] at hfile
    · cases hcopied
    · cases hfailed
  · intro hfile
    obtain ⟨content, hentry⟩ := isFile_iff.mp hfile
    obtain ⟨hlocate, hget⟩ := entry_eq_ok.mp hentry
    rw [hd] at hlocate hget
    rw [place_textOf hl] at hget
    -- what stands at the destination stands in a directory already
    have hclear : t.Clear rooted l := clear_of_directory (get?_around hget)
    obtain ⟨hrun, -⟩ := copyTask_of_clear hd hl hstart (size_of_locate hlocate) hclear
    rw [hrun, copyIfAbsent_of_isFile ((isFile_destination hd hl).trans hfile)]

/-- Where a task copied, nothing was in the way. -/
theorem possible_of_copyTask (hstart : t.get? (t.site rooted []) = some .directory)
    (h : (copyTask task t).1 = .ok .copied) : task.Possible t := by
  have hadds := withDirectory_adds task t
  obtain ⟨t', hcopy⟩ := copyIfAbsent_of_copyTask h
  rcases copyIfAbsent_cases hcopy with
    ⟨hskipped, -⟩ | ⟨-, hnew, content, hread, hwrite⟩ | ⟨e, hfailed, -⟩
  · cases hskipped
  · rw [hd] at hnew hwrite
    have hshort := size_of_locate (locate_of_write hwrite)
    have hclear : t.Clear rooted l := (clear_congr hadds).mp (clear_of_write hl hwrite)
    -- only directories came in between, so what is missing now was missing before
    have hnone : t.get? (t.site rooted (name :: l)) = none := by
      have hfree := get?_of_write_new hwrite hnew
      rw [place_textOf hl, site_congr hadds.base] at hfree
      rcases hadds.adds (t.site rooted (name :: l)) with hsame | ⟨hbefore, -⟩
      · rw [← hsame, hfree]
      · exact hbefore
    refine { absent := ?_, way := ?_, short := ?_, source := ?_ }
    · rw [hd, has_textOf hl hshort, hnone]
      rfl
    · rw [hd]
      exact (clear_iff_ancestors hl hshort hstart).mp hclear
    · rwa [hd]
    · exact isFile_iff.mpr ⟨content, read_eq_ok.mp hread⟩
  · cases hfailed

/-- Where nothing is in the way, a task copies. -/
theorem copyTask_of_possible (hstart : t.get? (t.site rooted []) = some .directory)
    (h : task.Possible t) : (copyTask task t).1 = .ok .copied := by
  obtain ⟨habsent, hway, hshort, hsource⟩ := h
  have hadds := withDirectory_adds task t
  rw [hd] at habsent hway hshort
  have hclear := (clear_iff_ancestors hl hshort hstart).mpr hway
  obtain ⟨hrun, hdirectory⟩ := copyTask_of_clear hd hl hstart hshort hclear
  have hnone : t.get? (t.site rooted (name :: l)) = none := by
    rwa [has_textOf hl hshort, Option.isSome_eq_false_iff, Option.isNone_iff_eq_none] at habsent
  have hnew : (task.withDirectory t).isFile task.destination.text = false := by
    rw [isFile_destination hd hl, hd, isFile_textOf hl hshort, bytesAt, hnone]
    rfl
  have hwritable : (task.withDirectory t).Writable task.destination.text := by
    have hfree := get?_withDirectory_ne hd hl (t := t) (by simp [hnone])
    rw [← site_congr hadds.base] at hdirectory hfree
    rw [hd]
    exact writable_of_directory hl hshort hdirectory hfree
  obtain ⟨content, hentry⟩ := isFile_iff.mp hsource
  obtain ⟨t', hwrite⟩ := exists_write hwritable content
  rw [hrun, copyIfAbsent_of_write hnew (read_eq_ok.mpr hentry) hwrite]

end Endings

/-- A task to a path of names skips exactly where there is a file at its destination.  It copies
exactly where nothing is there, none of the parents is a file, the path is not too long, and the
source is a file once the directories on the way to the destination are there; otherwise it fails.  A
source that leads to something, or that does not go up, is a file then if it is one before.  Parents
that are missing are no reason to fail, and nor is a destination without any. -/
theorem copyTask_obstacles (task : CopyTask) (t : FileTree) (hclean : task.destination.IsClean)
    (hstart : t.get? (t.origin (Trail.ofText task.destination.text)) = some .directory) :
    ((copyTask task t).1 = .ok .skipped ↔ t.isFile task.destination.text = true) ∧
    ((copyTask task t).1 = .ok .copied ↔ task.Possible t) ∧
    ((∃ e, (copyTask task t).1 = .error e) ↔
      t.isFile task.destination.text = false ∧ ¬ task.Possible t) ∧
    (t.has task.source.text = true ∨ ".." ∉ (Trail.ofText task.source.text).segments →
      (task.withDirectory t).isFile task.source.text = t.isFile task.source.text) := by
  obtain ⟨rooted, name, l, hd, hl⟩ := hclean.exists_names
  rw [hd, Trail.ofText_textOf_of_isName hl (List.cons_ne_nil name l)] at hstart
  have hskipped := copyTask_skipped_iff hd hl hstart
  have hcopied : (copyTask task t).1 = .ok .copied ↔ task.Possible t :=
    ⟨possible_of_copyTask hd hl hstart, copyTask_of_possible hd hl hstart⟩
  refine ⟨hskipped, hcopied, ?_, fun hsource => ?_⟩
  · rw [← hcopied, ← Bool.not_eq_true, ← hskipped]
    rcases (copyTask task t).1 with e | (_ | _)
    · exact ⟨fun _ => ⟨nofun, nofun⟩, fun _ => ⟨e, rfl⟩⟩
    · exact ⟨nofun, fun h => absurd rfl h.2⟩
    · exact ⟨nofun, fun h => absurd rfl h.1⟩
  · rcases hsource with hthere | hup
    · exact isFile_withDirectory_of_has hthere
    · exact isFile_withDirectory hup

/-! ### Through a directory that is made -/

def plainTree : FileTree := (FileTree.empty [] "15").put "f" [] (.file "F".toUTF8)

/-- To a file below directories that are missing. -/
def deepTask : CopyTask := ⟨⟨"f"⟩, ⟨"x/y/z"⟩⟩

/-- From a path through a directory that is missing, to a file in it. -/
def throughTask : CopyTask := ⟨⟨"x/../f"⟩, ⟨"x/y"⟩⟩

theorem copyTask_obstacles_deep :
    deepTask.destination.IsClean ∧
    plainTree.get? (plainTree.origin (Trail.ofText deepTask.destination.text)) = some .directory ∧
    (copyTask deepTask plainTree).1 = .ok .copied := by
  have hclean : deepTask.destination.IsClean := by decide +kernel
  have hstart : plainTree.get? (plainTree.origin (Trail.ofText deepTask.destination.text)) =
      some .directory := by
    decide +kernel
  have hpossible : deepTask.Possible plainTree :=
    { absent := by decide +kernel
      way := by decide +kernel
      short := by decide +kernel
      source := by decide +kernel }
  exact ⟨hclean, hstart, (copyTask_obstacles deepTask plainTree hclean hstart).2.1.mpr hpossible⟩

/-- A source that is no file before the copy can be one once the directory of the destination is
there. -/
theorem copyTask_through_new_directory :
    throughTask.destination.IsClean ∧
    plainTree.get? plainTree.base = some .directory ∧
    ¬ ((copyTask throughTask plainTree).1 = .ok .copied ↔
      plainTree.has throughTask.destination.text = false ∧
      (∀ a ∈ (Trail.ofText throughTask.destination.text).ancestors,
        plainTree.isFile a.text = false) ∧
      plainTree.isFile throughTask.source.text = true) := by
  have hcopied : (copyTask throughTask plainTree).1 = .ok .copied := by decide +kernel
  have hsource : plainTree.isFile throughTask.source.text = false := by decide +kernel
  refine ⟨by decide +kernel, by decide +kernel, fun hiff => ?_⟩
  have hfile := (hiff.mp hcopied).2.2
  rw [hsource] at hfile
  cases hfile

end BootTree

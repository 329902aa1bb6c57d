/-
  Where the files that a source stands for are copied to.

  A source without wildcards goes to the destination itself (`resolveCopyTasks_of_plain`).  A pattern
  fans out: every file it matches keeps its name, and all of them come to one directory, the
  destination itself if that is written as a directory, else the one around it (`FansOut`).  The
  destination may be any text, so that directory is told up to the slashes at its end.
-/
import BootTree.Proofs.Path
import BootTree.Proofs.Sync.Copier

namespace BootTree

/-! ## Wildcards -/

/-- The characters that make a source a pattern. -/
def wildcards : List Char := ['*', '?', '[', ']']

theorem Glob.isPattern_iff {source : String} :
    isPattern source = true ↔ ∃ c ∈ source.toList, c ∈ wildcards := by
  rw [isPattern, List.any_eq_true]
  refine exists_congr fun c => and_congr_right fun _ => ?_
  simp only [isMeta, wildcards, Bool.or_eq_true, decide_eq_true_eq, List.mem_cons, List.not_mem_nil,
    or_false]
  tauto

/-- The paths that a pattern is expanded to are normalized. -/
theorem Glob.backslash_not_mem_of_expand {t : FileTree} {source : String} {found : List Path}
    (h : expand t source = .ok found) : ∀ p ∈ found, '\\' ∉ p.text.toList := by
  obtain ⟨tokens, -, h⟩ := bind_eq_ok.mp h
  obtain ⟨components, -, h⟩ := bind_eq_ok.mp h
  cases h
  intro p hp
  obtain ⟨text, -, rfl⟩ := List.mem_map.mp hp
  exact Path.backslash_not_mem text

/-! ## Placing a match -/

/-- The directory that all matches are copied to; none if that is where relative paths start. -/
def fanOutParent (destination : Path) : Option Path :=
  if destination.endsInSlash then some destination else destination.parent?

section Place

variable {destination : Path} {name : String}

theorem placeMatch_eq (destination : Path) (name : String) : placeMatch destination name =
    ((fanOutParent destination).getD ⟨""⟩).join name := by
  rw [placeMatch, fanOutParent]
  split
  · rfl
  · rw [Path.withFileName]
    cases destination.parent? with
    | none => rfl
    | some parent => rfl

theorem fileName?_placeMatch (hname : Path.IsSegment name) :
    (placeMatch destination name).fileName? = some name := by
  rw [placeMatch_eq]
  exact Path.fileName?_join hname

/-- The directory that matches are copied to, as a path text. -/
theorem parent?_placeMatch (hname : Path.IsSegment name) : (placeMatch destination name).parent? =
    ((fanOutParent destination).getD ⟨""⟩).around := by
  rw [placeMatch_eq]
  exact Path.parent?_join hname

theorem trimmed_around_fanOutParent (destination : Path) :
    ((fanOutParent destination).getD ⟨""⟩).around.map Path.trimmed =
      (fanOutParent destination).map Path.trimmed := by
  cases hparent : fanOutParent destination with
  | none =>
    rw [Option.getD_none, Path.around_eq_none_iff.mpr rfl]
  | some parent =>
    have hne : parent.text ≠ "" := by
      rw [fanOutParent] at hparent
      split at hparent
      · next hslash =>
        cases hparent
        rintro hempty
        simp [Path.endsInSlash, hempty] at hslash
      · exact Path.text_parent?_ne hparent
    obtain ⟨q, haround, htrimmed⟩ := Path.exists_around hne
    rw [Option.getD_some, haround, Option.map_some, Option.map_some, htrimmed]

end Place

/-! ## Tasks -/

/-- The tasks for the files that a pattern matches: one for each that has a name, in their order, to a
destination with the same name.  The destinations are all in one directory, up to slashes at its end
that of the destination. -/
structure FansOut (destination : Path) (found : List Path) (tasks : List CopyTask) : Prop where
  sources : tasks.map CopyTask.source = found.filter fun p => p.fileName?.isSome
  names : ∀ task ∈ tasks, task.destination.fileName? = task.source.fileName?
  parents : ∃ parent, (∀ task ∈ tasks, task.destination.parent? = parent) ∧
    parent.map Path.trimmed = (fanOutParent destination).map Path.trimmed

/-- The task for a file that a pattern matches. -/
def taskFor? (destination : Path) (p : Path) : Option CopyTask :=
  p.fileName?.map fun name => ⟨p, placeMatch destination name⟩

theorem map_source_filterMap (destination : Path) (found : List Path) :
    (found.filterMap (taskFor? destination)).map CopyTask.source =
      found.filter fun p => p.fileName?.isSome := by
  induction found with
  | nil => rfl
  | cons p rest ih =>
    cases hname : p.fileName? with
    | none =>
      rw [List.filterMap_cons_none (by rw [taskFor?, hname]; rfl), ih,
        List.filter_cons_of_neg (by simp [hname])]
    | some name =>
      rw [List.filterMap_cons_some (by rw [taskFor?, hname]; rfl), List.map_cons, ih,
        List.filter_cons_of_pos (by simp [hname])]

theorem fansOut_filterMap {destination : Path} {found : List Path}
    (hfound : ∀ p ∈ found, '\\' ∉ p.text.toList) :
    FansOut destination found (found.filterMap (taskFor? destination)) := by
  -- a task is that of a match with a name, and the name is one part of a path
  have htask : ∀ task ∈ found.filterMap (taskFor? destination), ∃ name, Path.IsSegment name ∧
      task.source.fileName? = some name ∧ task.destination = placeMatch destination name := by
    intro task hmem
    obtain ⟨p, hp, htask⟩ := List.mem_filterMap.mp hmem
    obtain ⟨name, hname, rfl⟩ := Option.map_eq_some_iff.mp htask
    exact ⟨name, Path.isSegment_of_fileName? (hfound p hp) hname, hname, rfl⟩
  refine ⟨map_source_filterMap destination found, fun task hmem => ?_, _, fun task hmem => ?_,
    trimmed_around_fanOutParent destination⟩
  · obtain ⟨name, hsegment, hsource, hdestination⟩ := htask task hmem
    rw [hdestination, hsource, fileName?_placeMatch hsegment]
  · obtain ⟨name, hsegment, -, hdestination⟩ := htask task hmem
    rw [hdestination, parent?_placeMatch hsegment]

theorem resolveCopyTasks_of_plain (t : FileTree) (destination : String) {source : String}
    (h : Glob.isPattern source = false) : resolveCopyTasks t destination source =
      .ok (if t.has (Path.ofText source).text then [⟨.ofText source, .ofText destination⟩] else []) := by
  rw [resolveCopyTasks, h]
  rfl

theorem resolveCopyTasks_of_pattern (t : FileTree) (destination : String) {source : String}
    (h : Glob.isPattern source = true) : resolveCopyTasks t destination source =
      (Glob.expand t source).map fun found => found.filterMap (taskFor? (.ofText destination)) := by
  rw [resolveCopyTasks, if_pos h]
  cases Glob.expand t source <;> rfl

/-- Every file that a source stands for is placed.  A source without wildcards stands for one copy to
the very destination, if there is anything at it, and else for none.  A pattern that can be expanded
stands for one copy of each match that has a name, in the order of the matches and under the same
names, and all of them come to one directory: the destination, if it ends in a slash, and else its
parent. -/
theorem resolveCopyTasks_places (t : FileTree) (destination source : String) :
    ((∀ c ∈ source.toList, c ∉ wildcards) → resolveCopyTasks t destination source =
      .ok (if t.has (Path.ofText source).text then [⟨.ofText source, .ofText destination⟩] else [])) ∧
    ((∃ c ∈ source.toList, c ∈ wildcards) →
      (∀ found, Glob.expand t source = .ok found →
        ∃ tasks, resolveCopyTasks t destination source = .ok tasks ∧
          FansOut (.ofText destination) found tasks) ∧
      ∀ e, Glob.expand t source = .error e → resolveCopyTasks t destination source = .error e) := by
  constructor
  · intro hplain
    refine resolveCopyTasks_of_plain t destination (Bool.eq_false_iff.mpr fun hpattern => ?_)
    obtain ⟨c, hc, hwild⟩ := Glob.isPattern_iff.mp hpattern
    exact hplain c hc hwild
  · intro hwild
    have htasks := resolveCopyTasks_of_pattern t destination (Glob.isPattern_iff.mpr hwild)
    refine ⟨fun found hfound => ?_, fun e herror => ?_⟩
    · refine ⟨_, by rw [htasks, hfound]; rfl, fansOut_filterMap ?_⟩
      exact Glob.backslash_not_mem_of_expand hfound
    · rw [htasks, herror]
      rfl

/-! ### Two loaders -/

def loadersTree : FileTree :=
  let t := (FileTree.empty [] "14").put "s" [] .directory
  let t := t.put "a.c32" ["s"] (.file "a".toUTF8)
  t.put "b.c32" ["s"] (.file "b".toUTF8)

/-- The tokens of `*.c32`. -/
def loaderTokens : List Glob.Token := [.anySequence, .char '.', .char 'c', .char '3', .char '2']

theorem inside_loadersTree :
    Glob.inside loadersTree "/s" = [("/s/a.c32", "a.c32"), ("/s/b.c32", "b.c32")] := by
  have hplace : loadersTree.locate "/s" = .ok ["s"] := by decide +kernel
  have hdirectory : loadersTree.isDirectory "/s" = true := by decide +kernel
  -- the names stand in their order already
  have hlist : loadersTree.list ["s"] =
      [("a.c32", .file "a".toUTF8), ("b.c32", .file "b".toUTF8)] := by
    rw [FileTree.list, List.mergeSort_of_pairwise (by decide +kernel)]
    decide +kernel
  rw [Glob.inside, hplace]
  dsimp only
  rw [if_pos hdirectory, hlist]
  decide +kernel

theorem expand_loadersTree :
    Glob.expand loadersTree "/s/*.c32" = .ok [⟨"/s/a.c32"⟩, ⟨"/s/b.c32"⟩] := by
  have hthere : loadersTree.has "/s" = true ∧ loadersTree.isDirectory "/s" = true := by
    decide +kernel
  have hs : Glob.extend "/" "s" = "/s" := by decide +kernel
  have hmatches : Glob.expandFrom loadersTree false pathLimit [.name "s", .wild loaderTokens] "/" =
      ["/s/a.c32", "/s/b.c32"] := by
    rw [Glob.expandFrom, Glob.expandFrom, hs, inside_loadersTree]
    simp only [hthere]
    decide +kernel
  have hchars : "/s/*.c32".toList = ['/', 's', '/', '*', '.', 'c', '3', '2'] := by decide
  refine bind_eq_ok.mpr ⟨[.char '/', .char 's', .char '/'] ++ loaderTokens, by decide +kernel,
    bind_eq_ok.mpr ⟨[.name "s", .wild loaderTokens], by decide +kernel, ?_⟩⟩
  simp only [hchars, List.getLast?_cons_cons, List.getLast?_singleton, Option.some.injEq,
    Char.reduceEq, decide_false, List.isEmpty_cons, Bool.false_eq_true, ↓reduceIte, Glob.collapse,
    reduceCtorEq, List.head?_cons, List.head?_nil, and_self, hmatches]
  decide +kernel

/-- A pattern for both of them, to a destination with a backslash and a doubled slash; one of them by
its own path; and what is no pattern. -/
theorem resolveCopyTasks_places_loaders :
    (∃ c ∈ "/s/*.c32".toList, c ∈ wildcards) ∧
    Glob.expand loadersTree "/s/*.c32" = .ok [⟨"/s/a.c32"⟩, ⟨"/s/b.c32"⟩] ∧
    (∃ tasks, resolveCopyTasks loadersTree "boot/\\x" "/s/*.c32" = .ok tasks ∧
      FansOut (.ofText "boot/\\x") [⟨"/s/a.c32"⟩, ⟨"/s/b.c32"⟩] tasks) ∧
    (∀ c ∈ "s\\a.c32".toList, c ∉ wildcards) ∧
    resolveCopyTasks loadersTree "boot\\" "s\\a.c32" = .ok [⟨⟨"s/a.c32"⟩, ⟨"boot/"⟩⟩] ∧
    (∃ c ∈ "***".toList, c ∈ wildcards) ∧
    Glob.expand loadersTree "***" = .error (.pattern "***" ⟨2, .wildcards⟩) ∧
    resolveCopyTasks loadersTree "boot" "***" = .error (.pattern "***" ⟨2, .wildcards⟩) := by
  have hwild : ∃ c ∈ "/s/*.c32".toList, c ∈ wildcards := ⟨'*', by decide, by decide⟩
  have hplain : ∀ c ∈ "s\\a.c32".toList, c ∉ wildcards := by
    have hall : ("s\\a.c32".toList.all fun c => decide (c ∉ wildcards)) = true := by decide
    exact fun c hc => of_decide_eq_true (List.all_eq_true.mp hall c hc)
  have hstars : ∃ c ∈ "***".toList, c ∈ wildcards := ⟨'*', by decide, by decide⟩
  have hfault : Glob.expand loadersTree "***" = .error (.pattern "***" ⟨2, .wildcards⟩) := by
    decide +kernel
  refine ⟨hwild, expand_loadersTree, ?_, hplain, ?_, hstars, hfault, ?_⟩
  · exact ((resolveCopyTasks_places _ _ _).2 hwild).1 _ expand_loadersTree
  · rw [(resolveCopyTasks_places _ _ _).1 hplain]
    decide +kernel
  · exact ((resolveCopyTasks_places _ _ _).2 hstars).2 _ hfault

/-- The shapes that a destination can have. -/
example : ["boot/", "boot//x", "/", "x", "/x", ""].map (fun destination =>
    (placeMatch (.ofText destination) "a.c32").text) =
      ["boot/a.c32", "boot/a.c32", "/a.c32", "a.c32", "/a.c32", "a.c32"] := by
  decide +kernel

end BootTree

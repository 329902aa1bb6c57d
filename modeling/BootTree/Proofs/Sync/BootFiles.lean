/-
  Storing the boot files.

  All boot files, the menu among them, are stored below one directory.  A name without slashes makes
  no directories there (`get?_of_store`), but a name with slashes may lead through more of them.  So
  the directory of one boot file could come to stand where the temporary file of another one was.
  Where no path of a boot file leads through such a place (`StoresApart`), none does
  (`unobstructed_of_runSteps`).
-/
import BootTree.Proofs.Files.Join
import BootTree.Proofs.Files.Parents
import BootTree.Proofs.Sync.Frames

namespace BootTree

/-! ## Joined paths -/

namespace Trail

theorem segments_append {a : String} (h : a ≠ "") (b : String) :
    (ofText (a ++ "/" ++ b)).segments = (ofText a).segments ++ parts b ∧
      (ofText (a ++ "/" ++ b)).rooted = (ofText a).rooted := by
  have hne : a.toList ≠ [] := by simpa using h
  have hhead : (a ++ "/" ++ b).toList.head? = a.toList.head? := by
    rw [String.append_assoc, String.toList_append, List.head?_append_of_ne_nil _ hne]
  refine ⟨?_, by rw [rooted_eq, rooted_eq, hhead]⟩
  have hparts := parts_append a b
  rw [parts_eq (a ++ "/" ++ b), parts_eq a, hhead, List.append_assoc] at hparts
  exact List.append_cancel_left hparts

end Trail

namespace Path

theorem text_join {p : Path} (hne : p.text ≠ "") (hslash : p.endsInSlash = false) (s : String) :
    (p.join s).text = p.text ++ "/" ++ (ofText s).text := by
  rw [join, if_neg hne, if_neg (by simp [hslash])]

theorem exists_text_join (p : Path) (s : String) :
    ∃ front, (p.join s).text = front ++ (ofText s).text := by
  rw [join]
  split
  · exact ⟨"", by simp⟩
  · split
    · exact ⟨p.text, rfl⟩
    · exact ⟨p.text ++ "/", rfl⟩

end Path

namespace Pxe

variable {ctx : Context} {menu : Menu} {t t' final : FileTree} {name : String} {q : Place}

theorem configDirectory_ne (s : Settings) : (configDirectory s).text ≠ "" := by
  obtain ⟨front, htext⟩ := Path.exists_text_join s.bootRoot "pxelinux.cfg"
  rw [configDirectory, htext, Path.text_ofText (by decide)]
  intro hempty
  have := congrArg String.toList hempty
  simp at this

theorem endsInSlash_configDirectory (s : Settings) : (configDirectory s).endsInSlash = false := by
  obtain ⟨front, htext⟩ := Path.exists_text_join s.bootRoot "pxelinux.cfg"
  have hlast : (configDirectory s).text.toList.getLast? = some 'g' := by
    rw [configDirectory, htext, Path.text_ofText (by decide), String.toList_append,
      List.getLast?_append_of_ne_nil _ (by decide)]
    decide
  rw [Path.endsInSlash, hlast]
  decide

theorem text_bootPath (ctx : Context) (name : String) : (bootPath ctx name).text =
    (configDirectory ctx.settings).text ++ "/" ++ (Path.ofText name).text :=
  Path.text_join (configDirectory_ne _) (endsInSlash_configDirectory _) name

/-- The segments of the directory that all boot files are in. -/
def configSegments (ctx : Context) : List String :=
  (Trail.ofText (configDirectory ctx.settings).text).segments

theorem segments_bootPath (ctx : Context) (name : String) :
    (Trail.ofText (bootPath ctx name).text).segments =
        configSegments ctx ++ Trail.parts (Path.ofText name).text ∧
      t.origin (Trail.ofText (bootPath ctx name).text) =
        t.origin (Trail.ofText (configDirectory ctx.settings).text) := by
  rw [text_bootPath]
  have hjoined := Trail.segments_append (configDirectory_ne ctx.settings) (Path.ofText name).text
  exact ⟨hjoined.1, by rw [FileTree.origin, FileTree.origin, hjoined.2]⟩

/-- The directory of the boot files is there, with all that its path goes through. -/
def HasConfigDirectory (ctx : Context) (t : FileTree) : Prop :=
  ∀ front, front <+: configSegments ctx → t.get?
    (FileTree.walk (t.origin (Trail.ofText (configDirectory ctx.settings).text)) front) =
      some .directory

theorem HasConfigDirectory.mono (h : HasConfigDirectory ctx t)
    (ht : FileTree.HasDirectories t t') : HasConfigDirectory ctx t' := by
  intro front hfront
  have horigin : t'.origin (Trail.ofText (configDirectory ctx.settings).text) =
      t.origin (Trail.ofText (configDirectory ctx.settings).text) := by
    rw [FileTree.origin, FileTree.origin, ht.base]
  rw [horigin]
  exact ht.keeps _ (h front hfront)

/-- It is there after a boot file was stored. -/
theorem hasConfigDirectory_of_locate (h : t.locate (bootPath ctx name).text =
    .ok (t.place (bootPath ctx name).text)) : HasConfigDirectory ctx t := by
  rintro front ⟨middle, hmiddle⟩
  refine FileTree.get?_of_through h ?_
  obtain ⟨hsegments, horigin⟩ := segments_bootPath (t := t) ctx name
  refine ⟨front, middle ++ Trail.parts (Path.ofText name).text, ?_, ?_, by rw [horigin]⟩
  · rw [hsegments, ← hmiddle, List.append_assoc]
  · simp [Trail.parts, Trail.cut_ne_nil]

/-! ## Plain names -/

/-- On the way to a boot file whose name has no slashes there is the directory of the boot files, with
all that its path goes through, and nothing else. -/
theorem prefix_of_through (h : t.Through (bootPath ctx name).text q) (hname : Path.IsPlain name) :
    ∃ front, front <+: configSegments ctx ∧ q =
      FileTree.walk (t.origin (Trail.ofText (configDirectory ctx.settings).text)) front := by
  obtain ⟨front, back, hsplit, hback, rfl⟩ := h
  obtain ⟨hsegments, horigin⟩ := segments_bootPath (t := t) ctx name
  rw [hsegments, Path.text_ofText hname.backslash, Trail.parts_of_not_mem hname.slash] at hsplit
  refine ⟨front, ?_, by rw [horigin]⟩
  have hfront : front <+: (configSegments ctx ++ [name]).dropLast := by
    rw [hsplit, List.dropLast_append_of_ne_nil hback]
    exact List.prefix_append _ _
  rwa [List.dropLast_concat] at hfront

/-- Storing such a file makes no directories where that of the boot files is there. -/
theorem get?_of_store {content : ByteArray} (hname : Path.IsPlain name)
    (h : writeAtomic (bootPath ctx name) content t = (.ok (), t'))
    (hthere : HasConfigDirectory ctx t) (hq : t'.get? q = some .directory) :
    t.get? q = some .directory := by
  by_contra hnone
  obtain ⟨front, hfront, rfl⟩ := prefix_of_through (through_of_writeAtomic_ok h hnone hq) hname
  exact hnone (hthere front hfront)

theorem place_temporaryPath_bootPath (t : FileTree) (hname : Path.IsPlain name) :
    t.place (temporaryPath t.process (bootPath ctx name)) =
      temporaryName t.process.tag name :: t.place (configDirectory ctx.settings).text := by
  obtain ⟨hsegments, horigin⟩ := segments_bootPath (t := t) ctx name
  rw [Path.text_ofText hname.backslash, Trail.parts_of_not_mem hname.slash] at hsegments
  have hbackward : (Trail.ofText (bootPath ctx name).text).backward =
      name :: (configSegments ctx).reverse := by
    rw [← List.reverse_reverse (Trail.backward _)]
    exact (congrArg List.reverse hsegments).trans List.reverse_concat
  rw [FileTree.place_temporaryPath hbackward hname.proper, horigin, List.reverse_reverse]
  rfl

/-! ## Temporary files -/

/-- Steps that store files, none of which has a path that leads through a temporary file. -/
structure StoresApart (t : FileTree) (steps : List FileStep) : Prop where
  stores : ∀ step ∈ steps, ∃ p content, step = .store p content
  apart : ∀ p content p' content', .store p content ∈ steps → .store p' content' ∈ steps →
    ¬ t.Through p'.text (t.place (temporaryPath t.process p))

namespace StoresApart

variable {step : FileStep} {steps : List FileStep}

theorem tail (h : StoresApart t (step :: steps)) : StoresApart t steps where
  stores step' hmem := h.stores step' (List.mem_cons_of_mem _ hmem)
  apart p content p' content' hmem hmem' :=
    h.apart p content p' content' (List.mem_cons_of_mem _ hmem) (List.mem_cons_of_mem _ hmem')

theorem congr (h : StoresApart t steps) (hbase : t'.base = t.base)
    (hprocess : t'.process = t.process) : StoresApart t' steps where
  stores := h.stores
  apart p content p' content' hmem hmem' := by
    rw [hprocess, FileTree.place_congr hbase, FileTree.through_congr hbase]
    exact h.apart p content p' content' hmem hmem'

end StoresApart

/-- Storing files makes no directory where none of their paths leads through. -/
theorem get?_ne_of_runSteps_stores {steps : List FileStep}
    (h : runSteps steps t = (.ok (), final))
    (hstores : ∀ step ∈ steps, ∃ p content, step = .store p content)
    (hthrough : ∀ p content, .store p content ∈ steps → ¬ t.Through p.text q)
    (hne : t.get? q ≠ some .directory) : final.get? q ≠ some .directory := by
  induction steps generalizing t with
  | nil =>
    cases h
    exact hne
  | cons step rest ih =>
    obtain ⟨t₁, hstep, hrest⟩ := runSteps_cons_eq_ok.mp h
    obtain ⟨p, content, rfl⟩ := hstores step List.mem_cons_self
    have hwrite := FileStep.run_store_eq_ok.mp hstep
    refine ih hrest (fun step' hmem => hstores step' (List.mem_cons_of_mem _ hmem)) ?_ ?_
    · intro p' content' hmem
      rw [FileTree.through_congr (base_of_writeAtomic hwrite).1]
      exact hthrough p' content' (List.mem_cons_of_mem _ hmem)
    · exact fun hmade =>
        hthrough p content List.mem_cons_self (through_of_writeAtomic_ok hwrite hne hmade)

/-- A file that is stored leaves directories wherever its path leads through. -/
theorem get?_of_store_mem {steps : List FileStep} {p : Path} {content : String}
    (h : runSteps steps t = (.ok (), final)) (hmem : .store p content ∈ steps)
    (hthrough : t.Through p.text q) : final.get? q = some .directory := by
  obtain ⟨t₁, t₂, hrun, hbefore, hafter, -⟩ := exists_run_of_mem h hmem
  have hstored := stored_of_writeAtomic_ok (FileStep.run_store_eq_ok.mp hrun)
  have hlocate := (FileTree.entry_eq_ok.mp (FileTree.read_eq_ok.mp hstored.read)).1
  refine hafter.keeps _ (FileTree.get?_of_through hlocate ?_)
  rw [FileTree.through_congr hstored.base, FileTree.through_congr hbefore.base]
  exact hthrough

/-- Storing such files leaves no directory in the place of a temporary file. -/
theorem unobstructed_of_runSteps {steps : List FileStep}
    (h : runSteps steps t = (.ok (), final)) (hapart : StoresApart t steps) :
    Unobstructed final steps := by
  induction steps generalizing t with
  | nil => exact fun p content hmem => nomatch hmem
  | cons step rest ih =>
    obtain ⟨t₁, hstep, hrest⟩ := runSteps_cons_eq_ok.mp h
    have hframe := FileStep.changesOnly hstep
    intro p content hmem
    rcases List.mem_cons.mp hmem with rfl | hlater
    · have hstored := stored_of_writeAtomic_ok (FileStep.run_store_eq_ok.mp hstep)
      have hall := changesOnly_runSteps h
      rw [hall.process, FileTree.place_congr hall.base]
      -- the temporary file is gone, and no path that comes later leads through its place
      refine get?_ne_of_runSteps_stores hrest hapart.tail.stores (fun p' content' hmem' => ?_) ?_
      · rw [FileTree.through_congr hframe.base]
        exact hapart.apart p content p' content' List.mem_cons_self (List.mem_cons_of_mem _ hmem')
      · rw [hstored.gone]
        exact nofun
    · exact ih hrest (hapart.tail.congr hframe.base hframe.process) p content hlater

/-! ## The ending of a pass -/

/-- Steps that succeed do not stop. -/
theorem stop_not_mem_of_runSteps {steps : List FileStep} (h : runSteps steps t = (.ok (), t'))
    (e : SyncError) : .stop e ∉ steps := by
  induction steps generalizing t with
  | nil => exact List.not_mem_nil
  | cons step rest ih =>
    obtain ⟨t₁, hstep, hrest⟩ := runSteps_cons_eq_ok.mp h
    intro hmem
    rcases List.mem_cons.mp hmem with rfl | hmem
    · cases hstep
    · exact ih hrest hmem

/-- The boot files of a pass over hosts, with their names and contents. -/
inductive BootFile (menu : Menu) (hosts : List Host) : String → String → Prop where
  | host {host : Host} {name content : String} : host ∈ hosts → hostConfig host menu = .ok content →
      name ∈ bootFileNames host → BootFile menu hosts name content
  | menu : BootFile menu hosts "default" menu.render

/-- The steps at the end of a pass, if they succeed, store the boot files. -/
theorem mem_endingSteps {hosts : List Host} {step : FileStep}
    (hrun : runSteps (endingSteps ctx menu hosts) t = (.ok (), t'))
    (h : step ∈ endingSteps ctx menu hosts) : ∃ name content,
      step = .store (bootPath ctx name) content ∧ BootFile menu hosts name content := by
  have hstop := stop_not_mem_of_runSteps hrun
  rcases List.mem_append.mp h with hmem | hmem
  · obtain ⟨host, hhost, hmem⟩ := List.mem_flatMap.mp hmem
    rw [hostSteps] at hmem
    split at hmem
    · next content hcontent =>
      obtain ⟨name, hname, rfl⟩ := List.mem_map.mp hmem
      exact ⟨name, content, rfl, .host hhost hcontent hname⟩
    · next e he =>
      rw [List.mem_singleton.mp hmem] at h
      exact absurd h (hstop e)
  · exact ⟨"default", menu.render, List.mem_singleton.mp hmem, .menu⟩

/-- The names of all boot files. -/
def allBootNames (hosts : List Host) : List String := hosts.flatMap bootFileNames ++ ["default"]

theorem BootFile.mem_allBootNames {hosts : List Host} {content : String}
    (h : BootFile menu hosts name content) : name ∈ allBootNames hosts := by
  cases h with
  | host hhost _ hname => exact List.mem_append_left _ (List.mem_flatMap.mpr ⟨_, hhost, hname⟩)
  | menu => exact List.mem_append_right _ List.mem_cons_self

/-- Each of the names is stored at the end of a pass that succeeds. -/
theorem exists_store_of_mem_allBootNames {hosts : List Host}
    (hrun : runSteps (endingSteps ctx menu hosts) t = (.ok (), t'))
    (h : name ∈ allBootNames hosts) :
    ∃ content, .store (bootPath ctx name) content ∈ endingSteps ctx menu hosts := by
  rcases List.mem_append.mp h with h | h
  · obtain ⟨host, hhost, hname⟩ := List.mem_flatMap.mp h
    have hmem : ∀ step ∈ hostSteps ctx menu host, step ∈ endingSteps ctx menu hosts :=
      fun step hstep => List.mem_append_left _ (List.mem_flatMap.mpr ⟨host, hhost, hstep⟩)
    cases hcontent : hostConfig host menu with
    | error e =>
      refine absurd (hmem (.stop e) ?_) (stop_not_mem_of_runSteps hrun e)
      rw [hostSteps, hcontent]
      exact List.mem_singleton_self _
    | ok content =>
      refine ⟨content, hmem _ ?_⟩
      rw [hostSteps, hcontent]
      exact List.mem_map_of_mem hname
  · rw [List.mem_singleton.mp h]
    exact ⟨menu.render, List.mem_append_right _ (List.mem_singleton_self _)⟩

/-- No path of a boot file leads through the place of a temporary file. -/
def BootFilesApart (ctx : Context) (t : FileTree) : Prop :=
  ∀ name ∈ allBootNames ctx.registry.hosts, ∀ other ∈ allBootNames ctx.registry.hosts,
    ¬ t.Through (bootPath ctx other).text (t.place (temporaryPath t.process (bootPath ctx name)))

theorem storesApart_endingSteps (hapart : BootFilesApart ctx t)
    (hrun : runSteps (endingSteps ctx menu ctx.registry.hosts) t = (.ok (), t')) :
    StoresApart t (endingSteps ctx menu ctx.registry.hosts) where
  stores step hmem := by
    obtain ⟨name, content, hstep, -⟩ := mem_endingSteps hrun hmem
    exact ⟨_, content, hstep⟩
  apart p content p' content' hmem hmem' := by
    obtain ⟨name, _, hstore, hfile⟩ := mem_endingSteps hrun hmem
    obtain ⟨other, _, hstore', hother⟩ := mem_endingSteps hrun hmem'
    cases hstore
    cases hstore'
    exact hapart name hfile.mem_allBootNames other hother.mem_allBootNames

theorem isPlain_default : Path.IsPlain "default" :=
  ⟨⟨by decide, by decide, by decide⟩, by decide, by decide⟩

end Pxe

end BootTree

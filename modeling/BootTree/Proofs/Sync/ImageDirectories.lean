/-
  What staging a distribution touches.

  1. **Directories** — making sure of a directory makes it and what is missing on the way to it, and
     does nothing else, whatever comes of it (`made_of_ensureDirectory`).

  2. **Artifacts** — staging an artifact puts a file at the place that its name leads to from the
     directory, or leaves the tree as it is (`stageArtifact_cases`).  What the steps do one after the
     other is again nothing but this (`StagesOnly`).

  3. **Distributions** — so staging a distribution touches the way to its directory and at most two
     places more, which is inside the directory if the names do not lead out of it
     (`copyDistroImages_confined_iff`).  A name without backslashes does not.  One with backslashes is a
     single name where the artifact comes from but a path where it goes to, and may lead into the
     directory of another distribution (`copyDistroImages_may_stray`).
-/
import BootTree.Proofs.Files.Parents
import BootTree.Proofs.Sync.Staging

namespace BootTree

variable {t t' : FileTree} {p : Path} {q : Place}

/-! ## Directories -/

/-- A directory that was missing: the one at the path, or one on the way to it. -/
structure Made (p : Path) (t t' : FileTree) (q : Place) : Prop where
  way : q = t.place p.text ∨ t.Through p.text q
  missing : t.get? q = none
  made : t'.get? q = some .directory

theorem bytesAt_of_made (h : Made p t t' q) : t'.bytesAt q = t.bytesAt q := by
  rw [FileTree.bytesAt, FileTree.bytesAt, h.missing, h.made]

theorem way_of_makeDirectories {text : String} (hnone : t.get? q ≠ some .directory)
    (hmade : (makeDirectories text t).2.get? q = some .directory) :
    q = t.place text ∨ t.Through text q := by
  rw [makeDirectories] at hmade
  split at hmade
  · exact absurd hmade hnone
  · rw [Change.mapError_snd] at hmade
    rcases eq_place_of_makeWithParents hnone hmade with hq | ⟨a, ha, rfl⟩
    · exact .inl hq
    · obtain ⟨hstops, hshorter⟩ :=
        Trail.stopsOn_of_mem_ancestorsFrom (s := text) rfl (List.suffix_refl _) ha
      exact .inr (hstops.through hshorter)

theorem made_of_ensureDirectory (h : (ensureDirectory p t).2.get? q ≠ t.get? q) :
    Made p t (ensureDirectory p t).2 q := by
  rcases (ensureDirectory_adds p t).adds q with hsame | ⟨hnone, hmade⟩
  · exact absurd hsame h
  · refine ⟨?_, hnone, hmade⟩
    rw [ensureDirectory, run_get_bind] at hmade
    split at hmade
    · rw [run_pure, hnone] at hmade
      cases hmade
    · exact way_of_makeDirectories (by simp [hnone]) hmade

namespace Pxe

variable {ctx : Context} {d : Distro} {artifact owner : String} {directory : Path}

/-! ## Artifacts -/

/-- An artifact that is a file may be put where its name leads to; otherwise nothing is done. -/
theorem stageArtifact_cases (owner artifact : String) (directory : Path) (t : FileTree) :
    (stageArtifact owner artifact directory t).2 = t ∨
    t.isFile (Path.ofText artifact).text = true ∧ ∃ content,
      t.write (directory.join (artifactName artifact)).text content =
        .ok (stageArtifact owner artifact directory t).2 := by
  rw [stageArtifact, run_get_bind]
  by_cases hfile : t.isFile (Path.ofText artifact).text = true
  · rw [if_pos hfile, ofFiles, Change.mapError_snd]
    rcases copyIfChanged_cases (r := (copyIfChanged (.ofText artifact)
      (directory.join (artifactName artifact)) t).1) rfl with
      ⟨-, hsame, -⟩ | ⟨-, content, -, hwrite⟩ | ⟨e, -, hsame, -⟩
    · exact .inl hsame
    · exact .inr ⟨hfile, content, hwrite⟩
    · exact .inl hsame
  · rw [if_neg hfile]
    exact .inl rfl

/-- An artifact was put at a place: its name leads there from the directory and is followed to a proper
name, and a file is there now. -/
structure Put (directory : Path) (artifact : String) (t t' : FileTree) (q : Place) : Prop where
  place : q = t.place (directory.join (artifactName artifact)).text
  name : ∃ front last, Artifact artifact front last
  file : ∃ content, t'.get? q = some (.file content)

/-- Where there is another entry after an artifact was put, there are other bytes. -/
theorem Put.bytesAt_ne (h : Put directory artifact t t' q) (hne : t'.get? q ≠ t.get? q) :
    t'.bytesAt q ≠ t.bytesAt q := by
  obtain ⟨content, hfile⟩ := h.file
  intro hsame
  rw [FileTree.bytesAt_eq_some.mpr hfile] at hsame
  exact hne (hfile.trans (FileTree.bytesAt_eq_some.mp hsame.symm).symm)

/-- From the first tree to the second one, nothing was done but to make the directory, with what was
missing on the way to it, and to put these artifacts into it. -/
structure StagesOnly (directory : Path) (artifacts : List String) (t t' : FileTree) : Prop where
  base : t'.base = t.base
  differs : ∀ q, t'.get? q ≠ t.get? q →
    Made directory t t' q ∨ ∃ artifact ∈ artifacts, Put directory artifact t t' q

namespace StagesOnly

variable {artifacts : List String} {t'' : FileTree}

theorem refl (directory : Path) (artifacts : List String) (t : FileTree) :
    StagesOnly directory artifacts t t :=
  ⟨rfl, fun _ hne => absurd rfl hne⟩

theorem trans (h : StagesOnly directory artifacts t t') (h' : StagesOnly directory artifacts t' t'') :
    StagesOnly directory artifacts t t'' := by
  refine ⟨h'.base.trans h.base, fun q hne => ?_⟩
  have hplace : ∀ text, t'.place text = t.place text := FileTree.place_congr h.base
  by_cases hlater : t''.get? q = t'.get? q
  · rw [hlater] at hne
    rcases h.differs q hne with hmade | ⟨artifact, hmem, hput⟩
    · exact .inl ⟨hmade.way, hmade.missing, hlater.trans hmade.made⟩
    · obtain ⟨content, hfile⟩ := hput.file
      exact .inr ⟨artifact, hmem, hput.place, hput.name, content, hlater.trans hfile⟩
  · rcases h'.differs q hlater with hmade | ⟨artifact, hmem, hput⟩
    · refine .inl ⟨?_, ?_, hmade.made⟩
      · rw [← hplace, ← FileTree.through_congr h.base]
        exact hmade.way
      · -- nothing was there in between, so nothing came to be there before
        have hnone := hmade.missing
        by_contra hsome
        rcases h.differs q (hnone ▸ Ne.symm hsome) with hmade' | ⟨_, -, hput'⟩
        · rw [hmade'.made] at hnone
          cases hnone
        · obtain ⟨content, hfile⟩ := hput'.file
          rw [hfile] at hnone
          cases hnone
    · exact .inr ⟨artifact, hmem, hput.place.trans (hplace _), hput.name, hput.file⟩

theorem ensureDirectory (directory : Path) (artifacts : List String) (t : FileTree) :
    StagesOnly directory artifacts t (BootTree.ensureDirectory directory t).2 :=
  ⟨(ensureDirectory_adds directory t).base, fun _ hne => .inl (made_of_ensureDirectory hne)⟩

theorem stageArtifact (owner : String) (hmem : artifact ∈ artifacts) (directory : Path)
    (t : FileTree) :
    StagesOnly directory artifacts t (Pxe.stageArtifact owner artifact directory t).2 := by
  rcases stageArtifact_cases owner artifact directory t with hsame | ⟨hfile, content, hwrite⟩
  · rw [hsame]
    exact .refl _ _ _
  · refine ⟨(FileTree.base_write hwrite).1, fun q hne => .inr ⟨artifact, hmem, ?_⟩⟩
    obtain ⟨front, last, -, hname, -⟩ := exists_artifact hfile
    have hget := FileTree.get?_write hwrite q
    rw [hget] at hne
    split at hne
    · next hq =>
      rw [if_pos hq] at hget
      exact ⟨hq, ⟨front, last, hname⟩, content, hget⟩
    · exact absurd rfl hne

/-- Two steps that do nothing else. -/
theorem bind {ε α β : Type} {x : Change ε α} {f : α → Change ε β}
    (hx : ∀ t, StagesOnly directory artifacts t (x t).2)
    (hf : ∀ a t, StagesOnly directory artifacts t (f a t).2) (t : FileTree) :
    StagesOnly directory artifacts t ((x >>= f) t).2 := by
  have hfirst := hx t
  rw [run_bind]
  rcases hrun : x t with ⟨r, t₁⟩
  rw [hrun] at hfirst
  cases r with
  | error e => exact hfirst
  | ok a => exact hfirst.trans (hf a t₁)

/-- A file that changes was put, as new directories make no difference to files. -/
theorem exists_put (h : StagesOnly directory artifacts t t') (hne : t'.bytesAt q ≠ t.bytesAt q) :
    ∃ artifact ∈ artifacts, Put directory artifact t t' q := by
  rcases h.differs q fun hsame => hne (FileTree.bytesAt_congr hsame) with hmade | hput
  · exact absurd (bytesAt_of_made hmade) hne
  · exact hput

end StagesOnly

/-! ## Distributions -/

/-- Staging a distribution makes its directory and puts its kernel and its ram disk there. -/
theorem stagesOnly_copyDistroImages (ctx : Context) (d : Distro) (t : FileTree) :
    StagesOnly (imageDirectory ctx.settings d.name) [d.kernel, d.initrd] t
      (copyDistroImages ctx d t).2 := by
  have hkernel : d.kernel ∈ [d.kernel, d.initrd] := List.mem_cons_self
  have hinitrd : d.initrd ∈ [d.kernel, d.initrd] := List.mem_cons_of_mem _ List.mem_cons_self
  refine .bind (fun t => ?_) (fun _ => .bind (.stageArtifact d.name hkernel _)
    fun _ => .bind (.stageArtifact d.name hinitrd _) fun _ t => .refl _ _ t) t
  rw [ofFiles, Change.mapError_snd]
  exact .ensureDirectory _ _ t

/-- The place of the directory that a distribution is staged in. -/
def imagePlace (s : Settings) (t : FileTree) (distro : String) : Place :=
  t.place (imageDirectory s distro).text

/-- A place below another one. -/
def IsBelow (top q : Place) : Prop := ∃ front, front ≠ [] ∧ q = front ++ top

/-- Everything that is touched is below the directory of the distribution, or is this directory or one
on the way to it, newly made. -/
def Confined (s : Settings) (distro : String) (t t' : FileTree) : Prop :=
  ∀ q, t'.get? q ≠ t.get? q →
    Made (imageDirectory s distro) t t' q ∨ IsBelow (imagePlace s t distro) q

/-- The place of an artifact under a name without backslashes is in the directory. -/
theorem stagedPlace_of_plain (s : Settings) {distro : String} (h : Path.IsPlain distro)
    (hname : ∃ front last, Artifact artifact front last)
    (hplain : '\\' ∉ (artifactName artifact).toList) (t : FileTree) :
    stagedPlace s t distro artifact = artifactName artifact :: imagePlace s t distro := by
  obtain ⟨front, last, ha⟩ := hname
  rw [stagedPlace_eq s h ha, imagePlace, place_imageDirectory s h]
  obtain ⟨rfl, rfl⟩ := ha.of_plain hplain
  rfl

/-- No two distributions are staged in one directory, or one in the directory of the other. -/
theorem eq_of_imagePlace_suffix {s : Settings} {distro other name : String}
    (h : Path.IsPlain distro) (hother : Path.IsPlain other)
    (hsuffix : imagePlace s t other <:+ name :: imagePlace s t distro) : other = distro := by
  rw [imagePlace, imagePlace, place_imageDirectory s h, place_imageDirectory s hother] at hsuffix
  rcases List.suffix_cons_iff.mp hsuffix with heq | hsuffix
  · have hlength := congrArg List.length heq
    simp only [List.length_cons] at hlength
    omega
  · exact (List.cons.inj (hsuffix.eq_of_length rfl)).1

section Staged

variable {s : Settings} {distro : String} {artifacts : List String}

/-- What was done is confined to the directory exactly if the files that change are. -/
theorem StagesOnly.confined_iff (h : StagesOnly (imageDirectory s distro) artifacts t t') :
    Confined s distro t t' ↔ ∀ artifact ∈ artifacts,
      t'.bytesAt (stagedPlace s t distro artifact) ≠ t.bytesAt (stagedPlace s t distro artifact) →
        IsBelow (imagePlace s t distro) (stagedPlace s t distro artifact) := by
  constructor
  · intro hconfined artifact _ hne
    rcases hconfined _ fun hsame => hne (FileTree.bytesAt_congr hsame) with hmade | hbelow
    · exact absurd (bytesAt_of_made hmade) hne
    · exact hbelow
  · intro hbelow q hne
    rcases h.differs q hne with hmade | ⟨artifact, hmem, hput⟩
    · exact .inl hmade
    · have hplace : q = stagedPlace s t distro artifact := hput.place
      have hchanged := hput.bytesAt_ne hne
      rw [hplace] at hchanged
      exact .inr (hplace ▸ hbelow artifact hmem hchanged)

/-- An artifact with such a name that was put is in the directory. -/
theorem Put.place_of_plain {artifact : String} (h : Put (imageDirectory s distro) artifact t t' q)
    (hdistro : Path.IsPlain distro) (hplain : '\\' ∉ (artifactName artifact).toList) :
    q = artifactName artifact :: imagePlace s t distro :=
  h.place.trans (stagedPlace_of_plain s hdistro h.name hplain t)

variable (h : StagesOnly (imageDirectory s distro) artifacts t t') (hdistro : Path.IsPlain distro)
  (hplain : ∀ artifact ∈ artifacts, '\\' ∉ (artifactName artifact).toList)

include h hdistro hplain

theorem StagesOnly.confined_of_plain : Confined s distro t t' := by
  intro q hne
  rcases h.differs q hne with hmade | ⟨artifact, hmem, hput⟩
  · exact .inl hmade
  · exact .inr ⟨[artifactName artifact], List.cons_ne_nil _ _,
      hput.place_of_plain hdistro (hplain artifact hmem)⟩

/-- The files of another distribution are as they were. -/
theorem StagesOnly.bytesAt_of_other {other : String} (hother : Path.IsPlain other)
    (hapart : other ≠ distro) (hq : imagePlace s t other <:+ q) : t'.bytesAt q = t.bytesAt q := by
  by_contra hne
  obtain ⟨artifact, hmem, hput⟩ := h.exists_put hne
  rw [hput.place_of_plain hdistro (hplain artifact hmem)] at hq
  exact hapart (eq_of_imagePlace_suffix hdistro hother hq)

end Staged

/-- Whatever comes of it, staging a distribution makes its directory, with what is missing on the way to
it, and puts files at most at the two places that the names of its kernel and its ram disk lead to.  It
is confined to the directory exactly if the files that change there are below it.  Under a valid name,
and with names without backslashes for both files, it is; then no file in the directory of any other
distribution changes. -/
theorem copyDistroImages_confined_iff (ctx : Context) (d : Distro) (t : FileTree) :
    let t' := (copyDistroImages ctx d t).2
    (∀ q, t'.get? q ≠ t.get? q → Made (imageDirectory ctx.settings d.name) t t' q ∨
      ∃ artifact ∈ [d.kernel, d.initrd], q = stagedPlace ctx.settings t d.name artifact ∧
        ∃ content, t'.get? q = some (.file content)) ∧
    (Confined ctx.settings d.name t t' ↔ ∀ artifact ∈ [d.kernel, d.initrd],
      t'.bytesAt (stagedPlace ctx.settings t d.name artifact) ≠
          t.bytesAt (stagedPlace ctx.settings t d.name artifact) →
        IsBelow (imagePlace ctx.settings t d.name) (stagedPlace ctx.settings t d.name artifact)) ∧
    (isValidName d.name = true →
      (∀ artifact ∈ [d.kernel, d.initrd], '\\' ∉ (artifactName artifact).toList) →
        Confined ctx.settings d.name t t' ∧
        ∀ other, isValidName other = true → other ≠ d.name → ∀ q,
          imagePlace ctx.settings t other <:+ q → t'.bytesAt q = t.bytesAt q) := by
  intro t'
  have hstages : StagesOnly (imageDirectory ctx.settings d.name) [d.kernel, d.initrd] t t' :=
    stagesOnly_copyDistroImages ctx d t
  refine ⟨fun q hne => ?_, hstages.confined_iff, fun hvalid hplain => ?_⟩
  · rcases hstages.differs q hne with hmade | ⟨artifact, hmem, hput⟩
    · exact .inl hmade
    · exact .inr ⟨artifact, hmem, hput.place, hput.file⟩
  · have hdistro := isPlain_of_isValidName hvalid
    exact ⟨hstages.confined_of_plain hdistro hplain, fun other hother hapart q hq =>
      hstages.bytesAt_of_other hdistro hplain (isPlain_of_isValidName hother) hapart hq⟩

/-- A distribution whose kernel has backslashes in its last name. -/
def strayDistro : Distro := { name := "d", kernel := "src/..\\e\\linux", initrd := "src/initrd" }

def strayContext : Context :=
  .standard { tftpRoot := "boot" } (Addition.runAll
    [.distro strayDistro, .distro { name := "e", kernel := "linux", initrd := "initrd" }] .empty) false

/-- A boot tree with the kernel of another distribution. -/
def strayTree : FileTree :=
  let t := (FileTree.empty [] "11").put "src" [] .directory
  let t := t.put "initrd" ["src"] (.file "RAM".toUTF8)
  let t := t.put "e" [] .directory
  let t := t.put "linux" ["e"] (.file "NEW".toUTF8)
  let t := t.put "boot" [] .directory
  let t := t.put "images" ["boot"] .directory
  let t := t.put "e" ["images", "boot"] .directory
  t.put "linux" ["e", "images", "boot"] (.file "KERNEL".toUTF8)

/-- Staging this distribution goes well and replaces the kernel of the other one. -/
theorem copyDistroImages_may_stray : strayDistro ∈ strayContext.registry.distros ∧
    (copyDistroImages strayContext strayDistro strayTree).1 = .ok () ∧
    ¬ Confined strayContext.settings strayDistro.name strayTree
      (copyDistroImages strayContext strayDistro strayTree).2 ∧
    ∃ other ∈ strayContext.registry.distros, other.name ≠ strayDistro.name ∧
      ∃ q, imagePlace strayContext.settings strayTree other.name <:+ q ∧
        strayTree.bytesAt q = some "KERNEL".toUTF8 ∧
        (copyDistroImages strayContext strayDistro strayTree).2.bytesAt q = some "NEW".toUTF8 := by
  have hold : strayTree.get? ["linux", "e", "images", "boot"] = some (.file "KERNEL".toUTF8) := by
    decide +kernel
  have hnew : (copyDistroImages strayContext strayDistro strayTree).2.get?
      ["linux", "e", "images", "boot"] = some (.file "NEW".toUTF8) := by decide +kernel
  refine ⟨by decide +kernel, by decide +kernel, fun hconfined => ?_,
    { name := "e", kernel := "linux", initrd := "initrd" }, by decide +kernel, by decide,
    ["linux", "e", "images", "boot"], by decide +kernel, FileTree.bytesAt_eq_some.mpr hold,
    FileTree.bytesAt_eq_some.mpr hnew⟩
  have hne : (copyDistroImages strayContext strayDistro strayTree).2.get?
      ["linux", "e", "images", "boot"] ≠ strayTree.get? ["linux", "e", "images", "boot"] := by
    decide +kernel
  rcases hconfined _ hne with hmade | ⟨front, -, hbelow⟩
  · have hnone := hmade.missing
    rw [hold] at hnone
    cases hnone
  · have hplace : imagePlace strayContext.settings strayTree strayDistro.name =
        ["d", "images", "boot"] := by decide +kernel
    have hsuffix : ["d", "images", "boot"] <:+ ["linux", "e", "images", "boot"] :=
      ⟨front, by rw [hbelow, hplace]⟩
    exact absurd hsuffix (by decide)

end Pxe

end BootTree

/-
  Whether the menu boots what was staged.

  1. **Names** — the menu puts the path of a staged file together as text, while staging joins the
     same names to the boot root, and joining turns backslashes into slashes.  A name without
     backslashes is one part of both, so both lead to one place (`place_stagedPath`,
     `bootPlace_imagePath`); a name with a backslash leads elsewhere in the tree than in the menu
     (`Artifact`).

  2. **Bytes** — kernel and ram disk are staged one after the other into one directory, so the
     second one may take the place of the first (`staged_of_ok`).

  Hence the menu boots what the sources held exactly if the two files keep different names or are
  equal, as long as their names have no backslashes (`boots_iff`).
-/
import BootTree.Proofs.Files.Copy
import BootTree.Proofs.Files.Join
import BootTree.Proofs.PathAlgebra
import BootTree.Proofs.Sync.Menu

namespace BootTree

/-! ## Names -/

namespace Pxe

variable {t t' : FileTree} {artifact distro : String}

/-- The name under which an artifact is staged is followed in a path through `front` to `last`. -/
structure Artifact (artifact : String) (front : List String) (last : String) : Prop where
  proper : Trail.IsProper (artifactName artifact)
  slash : '/' ∉ (artifactName artifact).toList
  parts : Trail.parts (Path.ofText (artifactName artifact)).text = front ++ [last]
  lastProper : Trail.IsProper last
  backslash : '\\' ∉ last.toList

namespace Artifact

variable {front : List String} {last : String}

/-- A name without backslashes is followed in one step. -/
theorem of_plain (h : Artifact artifact front last) (hplain : '\\' ∉ (artifactName artifact).toList) :
    front = [] ∧ last = artifactName artifact := by
  have hparts := h.parts
  rw [Path.text_ofText hplain, Trail.parts_of_not_mem h.slash] at hparts
  have hsplit := List.append_singleton_inj.mp (List.nil_append _ |>.trans hparts)
  exact ⟨hsplit.1.symm, hsplit.2.symm⟩

/-- A name with a backslash is not the one that it is followed to. -/
theorem ne_of_backslash (h : Artifact artifact front last) {other : String}
    (hother : '\\' ∈ (artifactName other).toList) : artifactName other ≠ last := by
  rintro he
  rw [he] at hother
  exact h.backslash hother

end Artifact

/-- The file of an artifact has the last name that its staged name is followed to. -/
theorem exists_artifact (h : t.isFile (Path.ofText artifact).text = true) :
    ∃ front last around, Artifact artifact front last ∧
      t.place (Path.ofText artifact).text = last :: around := by
  obtain ⟨content, hentry⟩ := FileTree.isFile_iff.mp h
  obtain ⟨last, before, hbackward, hproper⟩ := FileTree.backward_of_entry_file hentry
  obtain ⟨name, hname, hslash, hsplit⟩ := Trail.exists_lastPart artifact
  -- the path of the artifact ends in what the path of its native name ends in
  have hlast : (Trail.parts (Path.ofText name).text).getLast? = some last := by
    have hpath : (Trail.parts (Path.ofText artifact).text).getLast? = some last := by
      rw [Trail.getLast?_parts, hbackward, List.head?_cons]
    rcases hsplit with rfl | ⟨outer, rfl⟩
    · exact hpath
    · rw [Path.text_ofText_append, Trail.parts_append, List.getLast?_append_of_ne_nil] at hpath
      · exact hpath
      · simp [Trail.parts, Trail.cut_ne_nil]
  obtain ⟨front, hfront⟩ := List.getLast?_eq_some_iff.mp hlast
  have hmem : last ∈ Trail.parts (Path.ofText name).text := by simp [hfront]
  have hnameProper : Trail.IsProper name := by
    by_cases hback : '\\' ∈ name.toList
    · refine ⟨?_, ?_, ?_⟩
      · rintro rfl
        simp at hback
      · rintro rfl
        simp at hback
      · rintro rfl
        simp at hback
    · rw [Path.text_ofText hback, Trail.parts_of_not_mem hslash, List.getLast?_singleton] at hlast
      rw [Option.some.inj hlast]
      exact hproper
  have hartifact : artifactName artifact = name := by
    rw [Trail.getLast?_parts] at hname
    obtain ⟨outer, houter⟩ := List.head?_eq_some_iff.mp hname
    rw [artifactName, Trail.fileName?_eq houter hnameProper, Option.getD_some]
  refine ⟨front, last, _, ?_, FileTree.place_eq_of_backward hbackward hproper⟩
  exact {
    proper := hartifact ▸ hnameProper
    slash := hartifact ▸ hslash
    parts := hartifact ▸ hfront
    lastProper := hproper
    backslash := fun hc => Path.backslash_not_mem name (Trail.mem_of_mem_parts hmem hc) }

/-! ## Places -/

/-- The place of the file that an artifact is staged from. -/
def sourcePlace (t : FileTree) (artifact : String) : Place := t.place (Path.ofText artifact).text

/-- Where an artifact of a distribution is staged. -/
def stagedPath (s : Settings) (distro artifact : String) : Path :=
  (imageDirectory s distro).join (artifactName artifact)

def stagedPlace (s : Settings) (t : FileTree) (distro artifact : String) : Place :=
  t.place (stagedPath s distro artifact).text

/-- The place of the file that a path of the menu names below the boot root. -/
def bootPlace (s : Settings) (t : FileTree) (path : String) : Place :=
  FileTree.walk (t.place s.bootRoot.text) (Trail.parts path)

theorem place_imageDirectory (s : Settings) (h : Path.IsPlain distro) :
    t.place (imageDirectory s distro).text = distro :: "images" :: t.place s.bootRoot.text := by
  have himages : Path.IsPlain "images" := isPlain_of_isValidName (by decide)
  rw [imageDirectory, FileTree.place_join_of_isPlain h, FileTree.place_join_of_isPlain himages]

theorem stagedPlace_eq (s : Settings) (h : Path.IsPlain distro) {front : List String} {last : String}
    (ha : Artifact artifact front last) : stagedPlace s t distro artifact =
      last :: FileTree.walk (distro :: "images" :: t.place s.bootRoot.text) front := by
  have hne : (imageDirectory s distro).text ≠ "" := Path.join_ne_empty h
  rw [stagedPlace, stagedPath, FileTree.place_join fun hempty => absurd hempty hne, ha.parts,
    FileTree.walk_append, FileTree.walk_isProper ha.lastProper, place_imageDirectory s h]

/-- In the menu the name of an artifact stands for itself. -/
theorem bootPlace_imagePath (s : Settings) (h : Path.IsPlain distro) {front : List String}
    {last : String} (ha : Artifact artifact front last) :
    bootPlace s t (imagePath distro artifact) =
      artifactName artifact :: distro :: "images" :: t.place s.bootRoot.text := by
  have htext : imagePath distro artifact =
      "/images" ++ "/" ++ distro ++ "/" ++ artifactName artifact := rfl
  have himages : Trail.parts "/images" = ["", "images"] := by decide
  rw [bootPlace, htext, Trail.parts_append, Trail.parts_append, Trail.parts_of_not_mem h.slash,
    Trail.parts_of_not_mem ha.slash, himages]
  simp [FileTree.walk, h.proper.1, h.proper.2.1, h.proper.2.2, ha.proper.1, ha.proper.2.1,
    ha.proper.2.2]

/-! ## Bytes -/

/-- No two different contents among these have the same fingerprint. -/
def TellsApart (contents : List ByteArray) : Prop :=
  ∀ a ∈ contents, ∀ b ∈ contents, Sha256.fingerprint a = Sha256.fingerprint b → a = b

theorem tellsApart_pair {a b : ByteArray} (h : Sha256.fingerprint a ≠ Sha256.fingerprint b) :
    TellsApart [a, b] := by
  intro x hx y hy hsame
  rcases List.mem_pair.mp hx with rfl | rfl
  · rcases List.mem_pair.mp hy with rfl | rfl
    · rfl
    · exact absurd hsame h
  · rcases List.mem_pair.mp hy with rfl | rfl
    · exact absurd hsame.symm h
    · rfl

/-- The places of the files that are compared when a distribution is staged. -/
def comparedPlaces (s : Settings) (t : FileTree) (d : Distro) : List Place :=
  [sourcePlace t d.kernel, sourcePlace t d.initrd, stagedPlace s t d.name d.kernel,
    stagedPlace s t d.name d.initrd]

theorem stageArtifact_eq_ok {owner : String} {directory : Path} {status : CopyStatus}
    (h : stageArtifact owner artifact directory t = (.ok status, t')) :
    t.isFile (Path.ofText artifact).text = true ∧
      copyIfChanged (.ofText artifact) (directory.join (artifactName artifact)) t =
        (.ok status, t') := by
  rw [stageArtifact, run_get_bind] at h
  split at h
  · next hfile => exact ⟨hfile, Change.mapError_eq_ok.mp h⟩
  · cases h

/-- A distribution is staged where its directory could be made and both files could be copied. -/
theorem copyDistroImages_eq_ok {ctx : Context} {d : Distro}
    (h : copyDistroImages ctx d t = (.ok (), t')) : ∃ t₀ t₁ status status',
      AddsDirectories t t₀ ∧
      t₀.isFile (Path.ofText d.kernel).text = true ∧
      copyIfChanged (.ofText d.kernel) (stagedPath ctx.settings d.name d.kernel) t₀ =
        (.ok status, t₁) ∧
      t₁.isFile (Path.ofText d.initrd).text = true ∧
      copyIfChanged (.ofText d.initrd) (stagedPath ctx.settings d.name d.initrd) t₁ =
        (.ok status', t') := by
  obtain ⟨u, t₀, hmake, h⟩ := run_bind_eq_ok.mp h
  obtain ⟨status, t₁, hkernel, h⟩ := run_bind_eq_ok.mp h
  obtain ⟨status', t₂, hinitrd, h⟩ := run_bind_eq_ok.mp h
  cases h
  have hadds := ensureDirectory_adds (imageDirectory ctx.settings d.name) t
  rw [Change.mapError_eq_ok.mp hmake] at hadds
  obtain ⟨hfile, hcopy⟩ := stageArtifact_eq_ok hkernel
  obtain ⟨hfile', hcopy'⟩ := stageArtifact_eq_ok hinitrd
  exact ⟨t₀, t₁, status, status', hadds, hfile, hcopy, hfile', hcopy'⟩

/-- What staging a distribution leaves: the kernel and the ram disk at their places, the ram disk
last, and every other file as it was.  The ram disk is read after the kernel was staged. -/
structure Staged (s : Settings) (d : Distro) (t t' : FileTree) (kernel initrd : ByteArray) :
    Prop where
  base : t'.base = t.base
  kernelRead : t.bytesAt (sourcePlace t d.kernel) = some kernel
  initrdRead : (if sourcePlace t d.initrd = stagedPlace s t d.name d.kernel then some kernel
    else t.bytesAt (sourcePlace t d.initrd)) = some initrd
  bytesAt : ∀ q, t'.bytesAt q =
    if q = stagedPlace s t d.name d.initrd then some initrd
    else if q = stagedPlace s t d.name d.kernel then some kernel else t.bytesAt q

theorem staged_of_ok {ctx : Context} {d : Distro}
    (hsha : TellsApart ((comparedPlaces ctx.settings t d).filterMap t.bytesAt))
    (h : copyDistroImages ctx d t = (.ok (), t')) :
    ∃ kernel initrd, Staged ctx.settings d t t' kernel initrd := by
  obtain ⟨t₀, t₁, status, status', hadds, -, hcopy, -, hcopy'⟩ := copyDistroImages_eq_ok h
  have hsame : ∀ p ∈ comparedPlaces ctx.settings t d, ∀ q ∈ comparedPlaces ctx.settings t d,
      ∀ a b, t.bytesAt p = some a → t.bytesAt q = some b →
        Sha256.fingerprint a = Sha256.fingerprint b → a = b :=
    fun p hp q hq a b ha hb => hsha a (List.mem_filterMap.mpr ⟨p, hp, ha⟩) b
      (List.mem_filterMap.mpr ⟨q, hq, hb⟩)
  have hplace₀ : ∀ text, t₀.place text = t.place text := FileTree.place_congr hadds.base
  obtain ⟨kernel, hread, hbytes⟩ := bytesAt_of_copyIfChanged_ok hcopy fun a b ha hb => by
    rw [hplace₀, hadds.bytesAt] at ha hb
    exact hsame (sourcePlace t d.kernel) (by simp [comparedPlaces])
      (stagedPlace ctx.settings t d.name d.kernel) (by simp [comparedPlaces]) a b ha hb
  have hkernel : t.bytesAt (sourcePlace t d.kernel) = some kernel := by
    rw [sourcePlace, ← hplace₀, ← hadds.bytesAt]
    exact FileTree.bytesAt_place_of_read hread
  have hbase₁ : t₁.base = t.base := (base_of_copyIfChanged hcopy).1.trans hadds.base
  have hplace₁ : ∀ text, t₁.place text = t.place text := FileTree.place_congr hbase₁
  have hbytes₁ : ∀ q, t₁.bytesAt q =
      if q = stagedPlace ctx.settings t d.name d.kernel then some kernel else t.bytesAt q := by
    intro q
    rw [hbytes, hplace₀, hadds.bytesAt]
    rfl
  -- what is compared after the kernel was staged was there before, perhaps as the kernel
  have hold : ∀ p ∈ comparedPlaces ctx.settings t d, ∀ a, t₁.bytesAt p = some a →
      ∃ q ∈ comparedPlaces ctx.settings t d, t.bytesAt q = some a := by
    intro p hp a ha
    rw [hbytes₁] at ha
    split at ha
    · exact ⟨sourcePlace t d.kernel, by simp [comparedPlaces], hkernel.trans ha⟩
    · exact ⟨p, hp, ha⟩
  obtain ⟨initrd, hread', hbytes'⟩ := bytesAt_of_copyIfChanged_ok hcopy' fun a b ha hb => by
    rw [hplace₁] at ha hb
    obtain ⟨p, hp, ha⟩ := hold (sourcePlace t d.initrd) (by simp [comparedPlaces]) a ha
    obtain ⟨q, hq, hb⟩ :=
      hold (stagedPlace ctx.settings t d.name d.initrd) (by simp [comparedPlaces]) b hb
    exact hsame p hp q hq a b ha hb
  refine ⟨kernel, initrd, (base_of_copyIfChanged hcopy').1.trans hbase₁, hkernel, ?_,
    fun q => ?_⟩
  · have hinitrd := FileTree.bytesAt_place_of_read hread'
    rwa [hplace₁, hbytes₁] at hinitrd
  · rw [hbytes', hplace₁, hbytes₁]
    rfl

/-! ## What the menu boots -/

/-- The file of an artifact was there, and the file that a path of the menu names has the bytes that
it had. -/
def Boots (s : Settings) (t t' : FileTree) (path artifact : String) : Prop :=
  (t.bytesAt (sourcePlace t artifact)).isSome = true ∧
    t'.bytesAt (bootPlace s t' path) = t.bytesAt (sourcePlace t artifact)

instance (s : Settings) (t t' : FileTree) (path artifact : String) :
    Decidable (Boots s t t' path artifact) :=
  inferInstanceAs (Decidable (_ ∧ t'.bytesAt _ = t.bytesAt _))

theorem bootPlace_congr (s : Settings) (h : t'.base = t.base) (path : String) :
    bootPlace s t' path = bootPlace s t path := by
  rw [bootPlace, bootPlace, FileTree.place_congr h]

section Staged

variable {s : Settings} {d : Distro} {kernel initrd : ByteArray}
  {kernelFront initrdFront : List String} {kernelLast initrdLast : String}

/-- Both files were there when they were staged, so their names are followed to last names. -/
theorem artifacts_of_ok {ctx : Context} (h : copyDistroImages ctx d t = (.ok (), t')) :
    (∃ front last, Artifact d.kernel front last) ∧
      ∃ front last, Artifact d.initrd front last ∧
        ∃ around, sourcePlace t d.initrd = last :: around := by
  obtain ⟨t₀, t₁, status, status', hadds, hfile, hcopy, hfile', -⟩ := copyDistroImages_eq_ok h
  obtain ⟨front, last, -, hk, -⟩ := exists_artifact hfile
  obtain ⟨front', last', around, hi, hsource⟩ := exists_artifact hfile'
  have hbase : t₁.base = t.base := (base_of_copyIfChanged hcopy).1.trans hadds.base
  rw [FileTree.place_congr hbase] at hsource
  exact ⟨⟨front, last, hk⟩, front', last', hi, around, hsource⟩

/-- Staged under names that stand for themselves, both files are what the menu boots exactly if they
are not staged over one another, or are equal. -/
theorem Staged.boots_of_plain (h : Staged s d t t' kernel initrd) (hd : Path.IsPlain d.name)
    (hk : Artifact d.kernel kernelFront kernelLast) (hi : Artifact d.initrd initrdFront initrdLast)
    (hsource : ∃ around, sourcePlace t d.initrd = initrdLast :: around)
    (hkPlain : '\\' ∉ (artifactName d.kernel).toList)
    (hiPlain : '\\' ∉ (artifactName d.initrd).toList) :
    (Boots s t t' (imagePath d.name d.kernel) d.kernel ∧
        Boots s t t' (imagePath d.name d.initrd) d.initrd ↔
      artifactName d.kernel ≠ artifactName d.initrd ∨
        t.bytesAt (sourcePlace t d.kernel) = t.bytesAt (sourcePlace t d.initrd)) := by
  obtain ⟨rfl, rfl⟩ := hk.of_plain hkPlain
  obtain ⟨rfl, rfl⟩ := hi.of_plain hiPlain
  obtain ⟨around, hsource⟩ := hsource
  have hkPlace : bootPlace s t' (imagePath d.name d.kernel) = stagedPlace s t d.name d.kernel := by
    rw [bootPlace_congr s h.base, bootPlace_imagePath s hd hk, stagedPlace_eq s hd hk]
    rfl
  have hiPlace : bootPlace s t' (imagePath d.name d.initrd) = stagedPlace s t d.name d.initrd := by
    rw [bootPlace_congr s h.base, bootPlace_imagePath s hd hi, stagedPlace_eq s hd hi]
    rfl
  have hinitrd := h.initrdRead
  rw [Boots, Boots, hkPlace, hiPlace, h.bytesAt, h.bytesAt, if_pos rfl, if_pos rfl, h.kernelRead]
  constructor
  · rintro ⟨⟨-, hkernel⟩, -, hram⟩
    by_cases hname : artifactName d.kernel = artifactName d.initrd
    · have hplace : stagedPlace s t d.name d.kernel = stagedPlace s t d.name d.initrd := by
        rw [stagedPlace_eq s hd hk, stagedPlace_eq s hd hi, hname]
      rw [if_pos hplace] at hkernel
      exact .inr (hkernel.symm.trans hram)
    · exact .inl hname
  · rintro (hname | hequal)
    · have hplace : stagedPlace s t d.name d.kernel ≠ stagedPlace s t d.name d.initrd := by
        rw [stagedPlace_eq s hd hk, stagedPlace_eq s hd hi]
        exact fun he => hname (List.cons.inj he).1
      have hread : sourcePlace t d.initrd ≠ stagedPlace s t d.name d.kernel := by
        rw [hsource, stagedPlace_eq s hd hk]
        exact fun he => hname (List.cons.inj he).1.symm
      rw [if_neg hread] at hinitrd
      rw [if_neg hplace, hinitrd]
      exact ⟨⟨rfl, rfl⟩, rfl, rfl⟩
    · rw [← hequal, ite_self] at hinitrd
      cases hinitrd
      rw [ite_self, ← hequal]
      exact ⟨⟨rfl, rfl⟩, rfl, rfl⟩

/-- Under a name with a backslash nothing is staged where the menu says. -/
theorem Staged.bytesAt_of_backslash (h : Staged s d t t' kernel initrd) (hd : Path.IsPlain d.name)
    (hk : Artifact d.kernel kernelFront kernelLast) (hi : Artifact d.initrd initrdFront initrdLast)
    {front : List String} {last : String} (ha : Artifact artifact front last)
    (hback : '\\' ∈ (artifactName artifact).toList) :
    t'.bytesAt (bootPlace s t' (imagePath d.name artifact)) =
      t.bytesAt (bootPlace s t (imagePath d.name artifact)) := by
  rw [bootPlace_congr s h.base, bootPlace_imagePath s hd ha, h.bytesAt, stagedPlace_eq s hd hk,
    stagedPlace_eq s hd hi, if_neg, if_neg]
  · exact fun he => hk.ne_of_backslash hback (List.cons.inj he).1
  · exact fun he => hi.ne_of_backslash hback (List.cons.inj he).1

end Staged

/-- Staging a registered distribution leaves what the menu boots, as far as the names of its files
have no backslashes: then both files that the menu names have the bytes that kernel and ram disk had
before, exactly if these keep different names or are equal.  A name with a backslash is a path to
the staging and a name to the menu, and what the menu names is then left as it was. -/
theorem boots_iff {ctx : Context} {calls : List Addition} {d : Distro} {e : MenuEntry}
    (hregistry : ctx.registry = Addition.runAll calls .empty) (hd : d ∈ ctx.registry.distros)
    (hentry : distroEntry ctx d = .ok e)
    (hsha : TellsApart ((comparedPlaces ctx.settings t d).filterMap t.bytesAt))
    (h : copyDistroImages ctx d t = (.ok (), t')) :
    ('\\' ∉ (artifactName d.kernel).toList → '\\' ∉ (artifactName d.initrd).toList →
      (Boots ctx.settings t t' e.kernel d.kernel ∧ Boots ctx.settings t t' e.initrd d.initrd ↔
        artifactName d.kernel ≠ artifactName d.initrd ∨
          t.bytesAt (sourcePlace t d.kernel) = t.bytesAt (sourcePlace t d.initrd))) ∧
    ('\\' ∈ (artifactName d.kernel).toList →
      t'.bytesAt (bootPlace ctx.settings t' e.kernel) =
        t.bytesAt (bootPlace ctx.settings t e.kernel)) ∧
    ('\\' ∈ (artifactName d.initrd).toList →
      t'.bytesAt (bootPlace ctx.settings t' e.initrd) =
        t.bytesAt (bootPlace ctx.settings t e.initrd)) := by
  have hvalid : ctx.registry.Valid := hregistry ▸ Addition.runAll_valid calls Registry.valid_empty
  have hname : Path.IsPlain d.name := isPlain_of_isValidName (hvalid.distroNames d hd)
  obtain ⟨-, -, hkernel, hinitrd⟩ := distroEntry_eq_ok hentry
  obtain ⟨kernel, initrd, hstaged⟩ := staged_of_ok hsha h
  obtain ⟨⟨kernelFront, kernelLast, hk⟩, initrdFront, initrdLast, hi, hsource⟩ := artifacts_of_ok h
  rw [hkernel, hinitrd]
  exact ⟨hstaged.boots_of_plain hname hk hi hsource, hstaged.bytesAt_of_backslash hname hk hi hk,
    hstaged.bytesAt_of_backslash hname hk hi hi⟩

/-- A distribution with its files in two directories. -/
def twoSourcesDistro (initrd : String) : Distro := { name := "d", kernel := "a/linux", initrd }

def twoSourcesContext (initrd : String) : Context :=
  .standard { tftpRoot := "boot" }
    (Addition.runAll [.distro (twoSourcesDistro initrd)] .empty) false

def twoSourcesEntry (initrd : String) : MenuEntry where
  name := "d"
  kind := .distro
  kernel := "/images/d/linux"
  initrd := imagePath "d" initrd
  append := ""

/-- Two directories, with a file each that has the name of the other one, and a third file. -/
def twoSourcesTree : FileTree :=
  let t := (FileTree.empty [] "2").put "a" [] .directory
  let t := t.put "linux" ["a"] (.file "K".toUTF8)
  let t := t.put "b" [] .directory
  let t := t.put "linux" ["b"] (.file "I".toUTF8)
  t.put "initrd" ["b"] (.file "I".toUTF8)

theorem copyDistroImages_twoSources {initrd : String} (h : initrd = "b/linux" ∨ initrd = "b/initrd") :
    copyDistroImages (twoSourcesContext initrd) (twoSourcesDistro initrd) twoSourcesTree =
      (.ok (), (copyDistroImages (twoSourcesContext initrd) (twoSourcesDistro initrd)
        twoSourcesTree).2) := by
  apply eq_of_fst
  rcases h with rfl | rfl
  · decide +kernel
  · decide +kernel

/-- Nothing stands where the two files are staged, so only they are compared. -/
theorem tellsApart_twoSources {initrd : String} (h : initrd = "b/linux" ∨ initrd = "b/initrd") :
    TellsApart ((comparedPlaces (twoSourcesContext initrd).settings twoSourcesTree
      (twoSourcesDistro initrd)).filterMap twoSourcesTree.bytesAt) := by
  have hcontents : (comparedPlaces (twoSourcesContext initrd).settings twoSourcesTree
      (twoSourcesDistro initrd)).filterMap twoSourcesTree.bytesAt = ["K".toUTF8, "I".toUTF8] := by
    rcases h with rfl | rfl
    · decide +kernel
    · decide +kernel
  rw [hcontents]
  exact tellsApart_pair (by decide +kernel)

/-- A kernel and a ram disk with names of their own are both booted. -/
theorem boots_twoSources : ∃ t', copyDistroImages (twoSourcesContext "b/initrd")
      (twoSourcesDistro "b/initrd") twoSourcesTree = (.ok (), t') ∧
    Boots (twoSourcesContext "b/initrd").settings twoSourcesTree t'
      (twoSourcesEntry "b/initrd").kernel (twoSourcesDistro "b/initrd").kernel ∧
    Boots (twoSourcesContext "b/initrd").settings twoSourcesTree t'
      (twoSourcesEntry "b/initrd").initrd (twoSourcesDistro "b/initrd").initrd := by
  have hregistry : (twoSourcesContext "b/initrd").registry =
      Addition.runAll [.distro (twoSourcesDistro "b/initrd")] .empty := rfl
  have hmem : twoSourcesDistro "b/initrd" ∈ (twoSourcesContext "b/initrd").registry.distros := by
    decide +kernel
  have hentry : distroEntry (twoSourcesContext "b/initrd") (twoSourcesDistro "b/initrd") =
      .ok (twoSourcesEntry "b/initrd") := by decide +kernel
  have hrun := copyDistroImages_twoSources (.inr (rfl : "b/initrd" = "b/initrd"))
  refine ⟨_, hrun, ?_⟩
  have hboots := boots_iff hregistry hmem hentry (tellsApart_twoSources (.inr rfl)) hrun
  exact (hboots.1 (by decide +kernel) (by decide +kernel)).mpr (.inl (by decide +kernel))

/-- But a kernel and a ram disk of one name are staged over one another. -/
theorem staged_may_not_boot : ¬ ∀ (settings : Settings) (calls : List Addition) (d : Distro)
    (e : MenuEntry) (t t' : FileTree), d ∈ (Addition.runAll calls .empty).distros →
      distroEntry (.standard settings (Addition.runAll calls .empty) false) d = .ok e →
      TellsApart ((comparedPlaces settings t d).filterMap t.bytesAt) →
      copyDistroImages (.standard settings (Addition.runAll calls .empty) false) d t =
        (.ok (), t') →
      Boots settings t t' e.kernel d.kernel ∧ Boots settings t t' e.initrd d.initrd := by
  intro hall
  have hrun := copyDistroImages_twoSources (.inl (rfl : "b/linux" = "b/linux"))
  have hboots := hall { tftpRoot := "boot" } [.distro (twoSourcesDistro "b/linux")]
    (twoSourcesDistro "b/linux") (twoSourcesEntry "b/linux") twoSourcesTree _ (by decide +kernel)
    (by decide +kernel) (tellsApart_twoSources (.inl rfl)) hrun
  have hoverwritten : ¬ Boots { tftpRoot := "boot" } twoSourcesTree
      (copyDistroImages (twoSourcesContext "b/linux") (twoSourcesDistro "b/linux")
        twoSourcesTree).2 (twoSourcesEntry "b/linux").kernel (twoSourcesDistro "b/linux").kernel := by
    decide +kernel
  exact hoverwritten hboots.1

end Pxe

end BootTree

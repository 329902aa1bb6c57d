/-
  Where the elementary changes of a tree succeed.

  1. **Directories** — `HasDirectories t u`: what can be followed in `t` can be followed in `u`.  No
     change takes a directory away, so this holds of every tree and all that come after it.

  2. **Paths that do not go up** — such a path leads to a file wherever bytes are at its place
     (`isFile_congr`), while one with `..` also needs the directory that it comes back from.

  3. **Writable paths** — a file can be written at a path, whatever its bytes, if the path ends in a
     name in a directory that is there and no directory has that name (`Writable`, `exists_write`).
     The same condition on both paths lets a file be renamed (`exists_renameFile`).  A path stays
     writable in a tree with the same directories, or more, unless a directory has come to stand
     there (`Writable.mono`).

  4. **Directories that are there** — making one again does nothing (`makeDirectories_of_isDirectory`),
     and one that was made is there (`isDirectory_of_makeDirectories`).
-/
import BootTree.Proofs.Files.Copy

namespace BootTree

namespace FileTree

variable {t t' u : FileTree} {text : String}

/-! ## The directories of two trees -/

theorem isDirectory_iff : t.isDirectory text = true ↔ t.entry text = .ok .directory := by
  rw [isDirectory]
  split
  · next h => exact ⟨fun _ => h, fun _ => rfl⟩
  · next hne => exact ⟨fun h => absurd h (by simp), fun h => absurd h hne⟩

/-- The second tree has the directories of the first one, and paths start from the same places. -/
structure HasDirectories (t u : FileTree) : Prop where
  base : u.base = t.base
  keeps : ∀ q, t.get? q = some .directory → u.get? q = some .directory

namespace HasDirectories

theorem refl (t : FileTree) : HasDirectories t t := ⟨rfl, fun _ h => h⟩

theorem trans {t'' : FileTree} (h : HasDirectories t t') (h' : HasDirectories t' t'') :
    HasDirectories t t'' :=
  ⟨h'.base.trans h.base, fun q hq => h'.keeps q (h.keeps q hq)⟩

theorem place (h : HasDirectories t u) (text : String) : u.place text = t.place text :=
  place_congr h.base text

theorem locate (h : HasDirectories t u) {q : Place} (hl : t.locate text = .ok q) :
    u.locate text = .ok q :=
  locate_mono h.base h.keeps hl

theorem isDirectory (h : HasDirectories t u) (hd : t.isDirectory text = true) :
    u.isDirectory text = true := by
  obtain ⟨hlocate, hget⟩ := entry_eq_ok.mp (isDirectory_iff.mp hd)
  rw [isDirectory_iff, entry_eq_ok, h.place]
  exact ⟨h.locate hlocate, h.keeps _ hget⟩

/-- A path reads the same where the bytes at its place are the same. -/
theorem read (h : HasDirectories t u) {content : ByteArray}
    (hbytes : u.bytesAt (t.place text) = t.bytesAt (t.place text))
    (hr : t.read text = .ok content) : u.read text = .ok content := by
  obtain ⟨hlocate, -⟩ := entry_eq_ok.mp (read_eq_ok.mp hr)
  have hold : t.bytesAt (t.place text) = some content := bytesAt_place_of_read hr
  rw [read_eq_ok, entry_eq_ok, h.place]
  exact ⟨h.locate hlocate, bytesAt_eq_some.mp (hbytes.trans hold)⟩

/-- The directory of a change is found as before. -/
theorem target (h : HasDirectories t u) {target : Target} (ht : t.target text = .ok target) :
    u.target text = .ok target := by
  obtain ⟨checked, hcheck, ht⟩ := bind_eq_ok.mp ht
  have horigin : u.origin (Trail.ofText text) = t.origin (Trail.ofText text) := by
    rw [origin, origin, h.base]
  refine bind_eq_ok.mpr ⟨checked, hcheck, ?_⟩
  dsimp only at ht ⊢
  cases hdrop : (Trail.ofText text).backward.dropWhile (· = "") with
  | nil => rwa [hdrop] at ht
  | cons name before =>
    rw [hdrop] at ht
    obtain ⟨around, hfollow, ht⟩ := bind_eq_ok.mp ht
    have hdirectory : t.get? around = some .directory := by
      cases hget : t.get? around with
      | none => rw [hget] at ht; cases ht
      | some e =>
        cases e with
        | file content => rw [hget] at ht; cases ht
        | directory => rfl
    rw [hdirectory] at ht
    refine bind_eq_ok.mpr ⟨around, ?_, ?_⟩
    · rw [horigin]
      exact follow_mono h.keeps hfollow
    · rw [h.keeps around hdirectory]
      exact ht

theorem of_addsDirectories (h : AddsDirectories t u) : HasDirectories t u :=
  ⟨h.base, fun q hq => (Extends.of_addsDirectories h).keeps q _ hq⟩

/-- Writing a file replaces no directory. -/
theorem of_write {content : ByteArray} (h : t.write text content = .ok t') :
    HasDirectories t t' := by
  obtain ⟨name, around, hnames, hmay, -⟩ := write_eq_ok h
  refine ⟨(base_write h).1, fun q hq => ?_⟩
  rw [get?_write h, if_neg]
  · exact hq
  · rintro rfl
    have hkind := hmay.2 _ (hnames.place ▸ hq)
    cases hkind

/-- Renaming a file neither replaces a directory nor takes one away. -/
theorem of_renameFile {old new : String} {content : ByteArray}
    (hold : t.bytesAt (t.place old) = some content) (h : t.renameFile old new = .ok t') :
    HasDirectories t t' := by
  obtain ⟨name, around, c, name', around', -, hnames, -, -, -, hmay, -⟩ := renameFile_eq_ok h
  refine ⟨(base_renameFile h).1, fun q hq => ?_⟩
  rw [get?_renameFile hold h, if_neg, if_neg]
  · exact hq
  · rintro rfl
    rw [bytesAt_eq_some, hq] at hold
    cases hold
  · rintro rfl
    have hkind := hmay.2 _ (hnames.place ▸ hq)
    cases hkind

end HasDirectories

/-! ## Paths that do not go up -/

/-- What stands below a place stands in a directory there. -/
theorem get?_of_suffix {p q : Place} {e : Entry} (h : t.get? q = some e) (hsuffix : p <:+ q)
    (hne : p ≠ q) : t.get? p = some .directory := by
  induction q generalizing e with
  | nil => exact absurd (List.suffix_nil.mp hsuffix) hne
  | cons name around ih =>
    have haround : t.get? around = some .directory := get?_around h
    rcases List.suffix_cons_iff.mp hsuffix with hsame | hbelow
    · exact absurd hsame hne
    · by_cases hp : p = around
      · rw [hp, haround]
      · exact ih haround hbelow hp

/-- Without `..` segments lead to the place itself or below it. -/
theorem suffix_walk {segments : List String} (h : ".." ∉ segments) (p : Place) :
    p <:+ walk p segments := by
  induction segments generalizing p with
  | nil => exact List.suffix_refl p
  | cons segment rest ih =>
    have hrest : ".." ∉ rest := fun hmem => h (List.mem_cons_of_mem _ hmem)
    have hup : segment ≠ ".." := fun he => h (he ▸ List.mem_cons_self)
    rw [walk]
    split
    · exact ih hrest p
    · exact (List.suffix_cons segment p).trans (ih hrest (segment :: p))

/-- A path that does not go up can be followed to whatever stands at its place, if it can be
followed to the same elsewhere. -/
theorem follow_congr {segments : List String} (hup : ".." ∉ segments) {p q : Place}
    (hf : t.follow p segments = .ok q) (hsame : u.get? q = t.get? q)
    (hsome : (u.get? q).isSome = true) : u.follow p segments = .ok q := by
  induction segments generalizing p with
  | nil => exact hf
  | cons segment rest ih =>
    have hrest : ".." ∉ rest := fun hmem => hup (List.mem_cons_of_mem _ hmem)
    have hsegment : segment ≠ ".." := fun he => hup (he ▸ List.mem_cons_self)
    have hp : t.get? p = some .directory := get?_of_follow_cons hf
    have hq : q = walk p (segment :: rest) := eq_walk_of_follow hf
    have hu : u.get? p = some .directory := by
      by_cases hpq : p = q
      · rw [hpq, hsame, ← hpq, hp]
      · obtain ⟨e, he⟩ := Option.isSome_iff_exists.mp hsome
        exact get?_of_suffix he (hq ▸ suffix_walk hup p) hpq
    rw [follow, hp] at hf
    rw [follow, hu]
    dsimp only at hf ⊢
    split at hf
    · next hidle =>
      rw [if_pos hidle]
      exact ih hrest hf
    · next hidle =>
      rw [if_neg hidle, if_neg hsegment]
      split at hf
      · cases hf
      · next hshort =>
        rw [if_neg hshort]
        exact ih hrest hf

theorem isFile_of_bytesAt (hup : ".." ∉ (Trail.ofText text).segments) (hbase : u.base = t.base)
    (hbytes : u.bytesAt (t.place text) = t.bytesAt (t.place text)) (h : t.isFile text = true) :
    u.isFile text = true := by
  obtain ⟨content, hentry⟩ := isFile_iff.mp h
  obtain ⟨hlocate, hget⟩ := entry_eq_ok.mp hentry
  have hget' : u.get? (t.place text) = some (.file content) :=
    bytesAt_eq_some.mp (hbytes.trans (bytesAt_eq_some.mpr hget))
  obtain ⟨checked, hcheck, hfollow⟩ := bind_eq_ok.mp hlocate
  refine isFile_iff.mpr ⟨content, ?_⟩
  rw [entry_eq_ok, place_congr hbase]
  refine ⟨bind_eq_ok.mpr ⟨checked, hcheck, ?_⟩, hget'⟩
  have horigin : u.origin (Trail.ofText text) = t.origin (Trail.ofText text) := by
    rw [origin, origin, hbase]
  dsimp only at hfollow ⊢
  rw [horigin]
  exact follow_congr hup hfollow (by rw [hget', hget]) (by rw [hget']; rfl)

/-- Whether a path that does not go up leads to a file can be told from the bytes at its place. -/
theorem isFile_congr (hup : ".." ∉ (Trail.ofText text).segments) (hbase : u.base = t.base)
    (hbytes : u.bytesAt (t.place text) = t.bytesAt (t.place text)) :
    u.isFile text = t.isFile text := by
  rw [Bool.eq_iff_iff]
  constructor
  · rw [← place_congr hbase] at hbytes
    exact isFile_of_bytesAt hup hbase.symm hbytes.symm
  · exact isFile_of_bytesAt hup hbase hbytes

/-! ## The last name of a path -/

/-- A path that can be followed ends in a name, which is in a directory and not too long, or it
leads to a directory without naming it. -/
theorem target_of_locate {q : Place} (h : t.locate text = .ok q) :
    (t.target text = .ok .nameless ∧ t.get? q = some .directory) ∨
    ∃ around name slash, t.target text = .ok (.named around name slash) ∧
      checkName name = .ok () ∧ q = name :: around ∧
      (slash = true → t.get? q = some .directory) := by
  obtain ⟨checked, hcheck, hfollow⟩ := bind_eq_ok.mp h
  dsimp only at hfollow
  have htarget : ∀ target, t.target text = .ok target ↔ _ := fun target => bind_eq_ok
  cases hdrop : (Trail.ofText text).backward.dropWhile (· = "") with
  | nil =>
    -- there are only empty segments, and at least one
    have hempties : ∀ s ∈ (Trail.ofText text).segments, s = "" ∨ s = "." := by
      intro s hs
      have hwhole : (Trail.ofText text).backward.takeWhile (· = "") = (Trail.ofText text).backward := by
        simpa [hdrop] using
          List.takeWhile_append_dropWhile (p := (· = "")) (l := (Trail.ofText text).backward)
      have hall := List.all_eq_true.mp (List.all_takeWhile (p := (· = ""))) s
        (hwhole.symm ▸ List.mem_reverse.mp hs)
      exact .inl (by simpa using hall)
    refine .inl ⟨(htarget _).mpr ⟨checked, hcheck, ?_⟩, ?_⟩
    · dsimp only
      rw [hdrop]
    · rw [eq_walk_of_follow hfollow, walk_idle hempties]
      cases hsegments : (Trail.ofText text).segments with
      | nil =>
        rw [Trail.segments, List.reverse_eq_nil_iff] at hsegments
        exact absurd hsegments (Trail.backward_ne_nil text)
      | cons s rest =>
        rw [hsegments] at hfollow
        exact get?_of_follow_cons hfollow
  | cons name before =>
    obtain ⟨empties, hsplit, hempties, hnone⟩ := segments_of_dropWhile hdrop
    rw [hsplit, List.append_assoc, follow_append] at hfollow
    obtain ⟨around, hbefore, hlast⟩ := bind_eq_ok.mp hfollow
    rw [List.singleton_append] at hlast
    have hdirectory : t.get? around = some .directory := get?_of_follow_cons hlast
    have hidle : ∀ s ∈ empties, s = "" ∨ s = "." := fun s hs => .inl (hempties s hs)
    have hstep := eq_walk_of_follow hlast
    by_cases hdots : name = "." ∨ name = ".."
    · refine .inl ⟨(htarget _).mpr ⟨checked, hcheck, ?_⟩, ?_⟩
      · dsimp only
        rw [hdrop]
        refine bind_eq_ok.mpr ⟨around, hbefore, ?_⟩
        rw [hdirectory]
        dsimp only
        rw [if_pos (by simpa using hdots)]
      · rcases hdots with rfl | rfl
        · rw [hstep]
          simpa [walk, walk_idle hidle] using hdirectory
        · rw [hstep]
          simpa [walk, walk_idle hidle] using get?_tail hdirectory
    · have hname : name ≠ "" := by
        have hhead := List.head?_dropWhile_not (· = "") (Trail.ofText text).backward
        simpa [hdrop] using hhead
      rw [not_or] at hdots
      have hq : q = name :: around := by
        rw [hstep]
        simp [walk, walk_idle hidle, hname, hdots.1, hdots.2]
      refine .inr ⟨around, name, (Trail.ofText text).backward.head? = some "",
        (htarget _).mpr ⟨checked, hcheck, ?_⟩, ?_, hq, fun hslash => ?_⟩
      · dsimp only
        rw [hdrop]
        refine bind_eq_ok.mpr ⟨around, hbefore, ?_⟩
        rw [hdirectory]
        dsimp only
        rw [if_neg (by simpa using hdots)]
      · rw [follow, hdirectory] at hlast
        dsimp only at hlast
        rw [if_neg (by simp [hname, hdots.1]), if_neg hdots.2] at hlast
        split at hlast
        · cases hlast
        · next hshort => rw [checkName, if_neg hshort]
      · -- with a slash at the end, one more step is made from there
        cases empties with
        | nil => exact absurd (by simpa using hslash) (hnone.mp rfl)
        | cons s rest =>
          rw [follow, hdirectory] at hlast
          dsimp only at hlast
          rw [if_neg (by simp [hname, hdots.1]), if_neg hdots.2] at hlast
          split at hlast
          · cases hlast
          · rw [hq]
            exact get?_of_follow_cons hlast

/-! ## Writable paths -/

/-- A file can be written at the path: it ends in a name in a directory that is there, and no
directory has that name. -/
def Writable (t : FileTree) (text : String) : Prop :=
  ∃ around name, t.target text = .ok (.named around name false) ∧ checkName name = .ok () ∧
    t.get? (name :: around) ≠ some .directory

namespace Writable

theorem locate (h : t.Writable text) : t.locate text = .ok (t.place text) := by
  obtain ⟨around, name, htarget, hname, -⟩ := h
  rw [(names_of_target htarget).place]
  exact locate_of_target htarget hname nofun

theorem get?_ne (h : t.Writable text) : t.get? (t.place text) ≠ some .directory := by
  obtain ⟨around, name, htarget, -, hget⟩ := h
  rwa [(names_of_target htarget).place]

/-- What a writable path reads are the bytes at its place. -/
theorem read_eq_ok_iff (h : t.Writable text) {content : ByteArray} :
    t.read text = .ok content ↔ t.bytesAt (t.place text) = some content := by
  rw [read_eq_ok, entry_eq_ok, bytesAt_eq_some]
  exact ⟨And.right, fun hget => ⟨h.locate, hget⟩⟩

theorem isFile_iff (h : t.Writable text) :
    t.isFile text = true ↔ ∃ content, t.bytesAt (t.place text) = some content := by
  rw [FileTree.isFile_iff]
  constructor
  · rintro ⟨content, hentry⟩
    exact ⟨content, h.read_eq_ok_iff.mp (read_eq_ok.mpr hentry)⟩
  · rintro ⟨content, hbytes⟩
    exact ⟨content, read_eq_ok.mp (h.read_eq_ok_iff.mpr hbytes)⟩

/-- A path stays writable in a tree with the same directories, unless a directory has come to stand
there. -/
theorem mono (h : t.Writable text) (hu : HasDirectories t u)
    (hget : u.get? (t.place text) ≠ some .directory) : u.Writable text := by
  obtain ⟨around, name, htarget, hname, -⟩ := h
  rw [(names_of_target htarget).place] at hget
  exact ⟨around, name, hu.target htarget, hname, hget⟩

theorem of_write {content : ByteArray} (h : t.write text content = .ok t') : t.Writable text := by
  obtain ⟨target, htarget, h⟩ := bind_eq_ok.mp h
  cases target with
  | nameless => cases h
  | named around name slash =>
    cases slash with
    | true => cases h
    | false =>
      obtain ⟨u, hname, h⟩ := bind_eq_ok.mp h
      refine ⟨around, name, htarget, hname, fun hget => ?_⟩
      rw [hget] at h
      cases h

/-- Where there is a file, a file can be written. -/
theorem of_read {content : ByteArray} (h : t.read text = .ok content) : t.Writable text := by
  obtain ⟨hlocate, hget⟩ := entry_eq_ok.mp (read_eq_ok.mp h)
  rcases target_of_locate hlocate with
    ⟨-, hdirectory⟩ | ⟨around, name, slash, htarget, hname, hplace, hslash⟩
  · rw [hget] at hdirectory
    cases hdirectory
  · cases slash with
    | true =>
      rw [hslash rfl] at hget
      cases hget
    | false =>
      refine ⟨around, name, htarget, hname, ?_⟩
      rw [← hplace, hget]
      exact nofun

theorem of_renameFile {old new : String} (h : t.renameFile old new = .ok t') :
    t.Writable new := by
  obtain ⟨name, around, c, name', around', -, -, htarget, hname, -, hmay, -⟩ := renameFile_eq_ok h
  refine ⟨around', name', htarget, hname, fun hget => ?_⟩
  have hkind := hmay.2 _ hget
  cases hkind

end Writable

/-- Any bytes can be written at a writable path. -/
theorem exists_write (h : t.Writable text) (content : ByteArray) :
    ∃ t', t.write text content = .ok t' := by
  obtain ⟨around, name, htarget, hname, hget⟩ := h
  refine ⟨t.put name around (.file content), bind_eq_ok.mpr ⟨_, htarget, ?_⟩⟩
  refine bind_eq_ok.mpr ⟨(), hname, ?_⟩
  split
  · next hdirectory => exact absurd hdirectory hget
  · rfl

/-- A file at a writable path can be renamed to any writable path. -/
theorem exists_renameFile {old new : String} {content : ByteArray} (hold : t.Writable old)
    (hbytes : t.bytesAt (t.place old) = some content) (hnew : t.Writable new) :
    ∃ t', t.renameFile old new = .ok t' := by
  obtain ⟨around, name, htarget, hname, -⟩ := hold
  obtain ⟨around', name', htarget', hname', hget'⟩ := hnew
  rw [(names_of_target htarget).place, bytesAt_eq_some] at hbytes
  refine ⟨if name :: around = name' :: around' then t
    else (t.put name' around' (.file content)).remove name around, ?_⟩
  refine bind_eq_ok.mpr ⟨_, htarget, bind_eq_ok.mpr ⟨_, htarget', ?_⟩⟩
  dsimp only
  refine bind_eq_ok.mpr ⟨(), hname, ?_⟩
  rw [hbytes]
  dsimp only
  refine bind_eq_ok.mpr ⟨(), hname', ?_⟩
  rw [if_neg (by simp)]
  split
  · next hdirectory => exact absurd hdirectory hget'
  · split
    · rfl
    · rfl

/-! ## Directories that are there -/

/-- A directory that is there is not made again. -/
theorem makeDirectory_of_isDirectory (h : t.isDirectory text = true) :
    t.makeDirectory text = .error .alreadyExists := by
  obtain ⟨hlocate, hget⟩ := entry_eq_ok.mp (isDirectory_iff.mp h)
  rcases target_of_locate hlocate with
    ⟨htarget, -⟩ | ⟨around, name, slash, htarget, hname, hplace, -⟩
  · rw [makeDirectory, htarget]
    rfl
  · rw [hplace] at hget
    rw [makeDirectory, htarget]
    refine bind_eq_error.mpr (.inr ⟨_, rfl, bind_eq_error.mpr (.inr ⟨(), hname, ?_⟩)⟩)
    rw [hget]

/-- A directory that was made is there. -/
theorem isDirectory_of_makeDirectory (h : t.makeDirectory text = .ok t') :
    t'.isDirectory text = true := by
  have hadds : AddsDirectories t t' := .of_makeDirectory h
  obtain ⟨target, htarget, h⟩ := bind_eq_ok.mp h
  cases target with
  | nameless => cases h
  | named around name slash =>
    obtain ⟨checked, hname, h⟩ := bind_eq_ok.mp h
    have hnames := names_of_target htarget
    have hget : t'.get? (name :: around) = some .directory := by
      split at h
      · cases h
      · next hnone =>
        cases h
        rw [get?_put ⟨hnames.around, fun e he => by simp_all⟩, if_pos rfl]
    have htarget' := (HasDirectories.of_addsDirectories hadds).target htarget
    have hlocate := locate_of_target htarget' hname fun _ => hget
    rw [isDirectory_iff]
    refine bind_eq_ok.mpr ⟨_, hlocate, ?_⟩
    rw [hget]

end FileTree

variable {t t' : FileTree} {text : String}

theorem makeWithParents_of_isDirectory (ancestors : List Trail) (h : t.isDirectory text = true) :
    makeWithParents text ancestors t = (.ok (), t) := by
  have hrefused := FileTree.makeDirectory_of_isDirectory h
  cases ancestors with
  | nil => simp only [makeWithParents, hrefused, h, if_true]
  | cons parent ancestors => simp only [makeWithParents, hrefused, h, if_true]

/-- Where a directory is there, making it with its parents does nothing. -/
theorem makeDirectories_of_isDirectory (h : text = "" ∨ t.isDirectory text = true) :
    makeDirectories text t = (.ok (), t) := by
  rw [makeDirectories]
  split
  · rfl
  · next hne =>
    exact Change.mapError_eq_ok.mpr (makeWithParents_of_isDirectory _ (h.resolve_left hne))

/-- Making a directory with its parents ends with making the directory, or with finding it. -/
theorem makeWithParents_eq_ok {ancestors : List Trail} {u : Unit}
    (h : makeWithParents text ancestors t = (.ok u, t')) :
    (∃ t₁ : FileTree, t₁.makeDirectory text = .ok t') ∨ t'.isDirectory text = true := by
  have hfound : ∀ {t₁ : FileTree} {cause : Cause},
      (if t₁.isDirectory text then ((.ok (), t₁) : Except Cause Unit × FileTree)
        else (.error cause, t₁)) = (.ok u, t') → t'.isDirectory text = true := by
    intro t₁ cause hrun
    split at hrun
    · next hthere =>
      cases hrun
      exact hthere
    · cases hrun
  cases ancestors with
  | nil =>
    rw [makeWithParents] at h
    dsimp only at h
    split at h
    · next t₁ hmake =>
      cases h
      exact .inl ⟨t, hmake⟩
    · exact .inr (hfound h)
  | cons parent ancestors =>
    rw [makeWithParents] at h
    dsimp only at h
    split at h
    · next t₁ hmake =>
      cases h
      exact .inl ⟨t, hmake⟩
    · -- the parents were made first, and then the directory was tried again
      split at h
      · cases h
      · next t₁ hparents =>
        split at h
        · next t₂ hmake =>
          cases h
          exact .inl ⟨t₁, hmake⟩
        · exact .inr (hfound h)
    · exact .inr (hfound h)

/-- A directory that was made with its parents is there. -/
theorem isDirectory_of_makeDirectories {u : Unit} (h : makeDirectories text t = (.ok u, t')) :
    text = "" ∨ t'.isDirectory text = true := by
  rw [makeDirectories] at h
  split at h
  · next hempty => exact .inl hempty
  · rcases makeWithParents_eq_ok (Change.mapError_eq_ok.mp h) with ⟨t₁, hmake⟩ | hthere
    · exact .inr (FileTree.isDirectory_of_makeDirectory hmake)
    · exact .inr hthere

end BootTree

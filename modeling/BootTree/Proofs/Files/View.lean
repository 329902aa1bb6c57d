/-
  Where paths lead, and what the elementary changes do to the files of a tree.

  A path text names a place by itself: following it in a tree either arrives at that place or fails
  (`eq_place_of_locate`).  A file is therefore known by its place, and a tree, as far as its files
  go, by the bytes at every place (`bytesAt`).  For every elementary change there is one lemma that
  says what it does where it succeeds (`makeDirectory_eq_ok`, `write_eq_ok`, `renameFile_eq_ok`) and
  one that says which bytes it changes; where it fails there is no new tree at all.
-/
import BootTree.Files.Access
import BootTree.Proofs.Files.Trail
import BootTree.Proofs.Outcome

namespace BootTree.FileTree

/-! ## Places -/

/-- The place that segments lead to from another one if every directory on the way is there. -/
def walk (place : Place) : List String → Place
  | [] => place
  | segment :: rest =>
    if segment = "" || segment = "." then walk place rest
    else if segment = ".." then walk place.tail rest
    else walk (segment :: place) rest

/-- The place that a path text names, whether or not anything stands there. -/
def place (t : FileTree) (text : String) : Place :=
  walk (t.origin (Trail.ofText text)) (Trail.ofText text).segments

theorem walk_append (a b : List String) : ∀ place, walk place (a ++ b) = walk (walk place a) b := by
  induction a with
  | nil => intro place; rfl
  | cons segment rest ih =>
    intro place
    simp only [List.cons_append, walk]
    split
    · exact ih place
    · split
      · exact ih place.tail
      · exact ih (segment :: place)

/-- Empty segments and `.` lead nowhere. -/
theorem walk_idle {segments : List String} (h : ∀ s ∈ segments, s = "" ∨ s = ".")
    (place : Place) : walk place segments = place := by
  induction segments with
  | nil => rfl
  | cons segment rest ih =>
    rw [walk, if_pos (by simpa using h segment List.mem_cons_self)]
    exact ih fun s hs => h s (List.mem_cons_of_mem _ hs)

theorem walk_isProper {name : String} (hn : Trail.IsProper name) (place : Place) :
    walk place [name] = name :: place := by
  simp [walk, hn.1, hn.2.1, hn.2.2]

/-- Dropping the idle segments at the end does not change where segments lead. -/
theorem walk_dropIdle (place : Place) (rooted : Bool) :
    ∀ l, walk place (Trail.dropIdle rooted l).reverse = walk place l.reverse
  | [] => rfl
  | [s] => by
    simp only [Trail.dropIdle]
    split
    · next hs =>
      have hidle : ∀ x ∈ [s], x = "" ∨ x = "." := by
        intro x hx
        rw [List.mem_singleton.mp hx]
        simp only [Bool.or_eq_true, Bool.and_eq_true, decide_eq_true_eq] at hs
        exact hs.imp_right And.right
      rw [List.reverse_singleton, walk_idle hidle]
      rfl
    · rfl
  | s :: u :: rest => by
    simp only [Trail.dropIdle]
    split
    · next hs =>
      have hidle : ∀ x ∈ [s], x = "" ∨ x = "." := by
        intro x hx
        rw [List.mem_singleton.mp hx]
        simpa using hs
      rw [walk_dropIdle place rooted (u :: rest), List.reverse_cons (a := s), walk_append,
        walk_idle hidle]
    · rfl

theorem place_congr {t t' : FileTree} (h : t'.base = t.base) (text : String) :
    t'.place text = t.place text := by
  simp [place, origin, h]

/-! ## Following -/

theorem eq_walk_of_follow {t : FileTree} {segments : List String} {p q : Place}
    (h : t.follow p segments = .ok q) : q = walk p segments := by
  induction segments generalizing p with
  | nil => exact (Except.ok.inj h).symm
  | cons segment rest ih =>
    rw [follow] at h
    split at h
    · cases h
    · cases h
    · rw [walk]
      split at h
      · next hs => rw [if_pos hs]; exact ih h
      · next hs =>
        rw [if_neg hs]
        split at h
        · next hd => rw [if_pos hd]; exact ih h
        · next hd =>
          rw [if_neg hd]
          split at h
          · cases h
          · exact ih h

theorem follow_append (t : FileTree) (p : Place) (a b : List String) :
    t.follow p (a ++ b) = t.follow p a >>= fun q => t.follow q b := by
  induction a generalizing p with
  | nil => rfl
  | cons segment rest ih =>
    simp only [List.cons_append, follow]
    split
    · rfl
    · rfl
    · split
      · exact ih p
      · split
        · exact ih p.tail
        · split
          · rfl
          · exact ih (segment :: p)

/-- Every step is made from a directory. -/
theorem get?_of_follow_cons {t : FileTree} {p q : Place} {segment : String} {rest : List String}
    (h : t.follow p (segment :: rest) = .ok q) : t.get? p = some .directory := by
  rw [follow] at h
  split at h
  · cases h
  · cases h
  · assumption

/-- The directory around a directory is one, and the root is its own. -/
theorem get?_tail {t : FileTree} {p : Place} (h : t.get? p = some .directory) :
    t.get? p.tail = some .directory := by
  cases p with
  | nil => exact h
  | cons name around => exact get?_around h

/-- A path that can be followed leads to the place it names. -/
theorem eq_place_of_locate {t : FileTree} {text : String} {q : Place}
    (h : t.locate text = .ok q) : q = t.place text := by
  obtain ⟨-, -, h⟩ := bind_eq_ok.mp h
  exact eq_walk_of_follow h

/-- What a path leads to stands at the place it names. -/
theorem get?_place_of_entry {t : FileTree} {text : String} {e : Entry}
    (h : t.entry text = .ok e) : t.get? (t.place text) = some e := by
  obtain ⟨q, hl, h⟩ := bind_eq_ok.mp h
  rw [← eq_place_of_locate hl]
  split at h
  · next e' he => rw [he, Except.ok.inj h]
  · cases h

/-! ## Files -/

/-- The bytes of the file at a place. -/
def bytesAt (t : FileTree) (q : Place) : Option ByteArray :=
  match t.get? q with
  | some (.file content) => some content
  | _ => none

theorem bytesAt_eq_some {t : FileTree} {q : Place} {content : ByteArray} :
    t.bytesAt q = some content ↔ t.get? q = some (.file content) := by
  rw [bytesAt]
  split
  · next c hc => simp [hc]
  · next hne =>
    constructor
    · intro h; cases h
    · exact fun h => absurd h (hne content)

theorem bytesAt_congr {t t' : FileTree} {q : Place} (h : t'.get? q = t.get? q) :
    t'.bytesAt q = t.bytesAt q := by
  rw [bytesAt, bytesAt, h]

/-- Reading a path gives the bytes at the place it names. -/
theorem bytesAt_place_of_read {t : FileTree} {text : String} {content : ByteArray}
    (h : t.read text = .ok content) : t.bytesAt (t.place text) = some content := by
  rw [read] at h
  split at h
  · next c he => rw [bytesAt_eq_some, get?_place_of_entry he, Except.ok.inj h]
  · cases h
  · cases h

/-- A path to a file ends in the name of the file: a slash, `.` or `..` at the end leads to a
directory or nowhere. -/
theorem backward_of_entry_file {t : FileTree} {text : String} {content : ByteArray}
    (h : t.entry text = .ok (.file content)) :
    ∃ name before, (Trail.ofText text).backward = name :: before ∧ Trail.IsProper name := by
  obtain ⟨q, hlocate, h⟩ := bind_eq_ok.mp h
  have hfile : t.get? q = some (.file content) := by
    split at h
    · next e he => rw [he, Except.ok.inj h]
    · cases h
  obtain ⟨-, -, hfollow⟩ := bind_eq_ok.mp hlocate
  dsimp only at hfollow
  rw [Trail.segments] at hfollow
  cases hb : (Trail.ofText text).backward with
  | nil => exact absurd hb (Trail.backward_ne_nil text)
  | cons name before =>
    rw [hb, List.reverse_cons, follow_append] at hfollow
    obtain ⟨r, -, hlast⟩ := bind_eq_ok.mp hfollow
    refine ⟨name, before, rfl, ?_⟩
    -- the last step is from a directory, and would stay there or go to the one around
    have hr : t.get? r = some .directory := get?_of_follow_cons hlast
    have hq := eq_walk_of_follow hlast
    refine ⟨?_, ?_, ?_⟩
    · rintro rfl
      have : q = r := by simpa [walk] using hq
      rw [this, hr] at hfile
      cases hfile
    · rintro rfl
      have : q = r := by simpa [walk] using hq
      rw [this, hr] at hfile
      cases hfile
    · rintro rfl
      have : q = r.tail := by simpa [walk] using hq
      rw [this, get?_tail hr] at hfile
      cases hfile

/-- Nothing stands below a file. -/
theorem get?_below_file {t : FileTree} {top : Place} {content : ByteArray}
    (h : t.get? top = some (.file content)) :
    ∀ q, under top q = true → q ≠ top → t.get? q = none
  | [], hu, hne => by simp_all [under, List.isSuffixOf_iff_suffix]
  | name :: around, hu, hne => by
    simp only [under, List.isSuffixOf_iff_suffix] at hu
    have hsuffix : top <:+ around := (List.suffix_cons_iff.mp hu).resolve_left (Ne.symm hne)
    -- what stands here stands in a directory, which is neither the file nor anything below it
    cases hq : t.get? (name :: around) with
    | none => rfl
    | some e =>
      have hd := get?_around hq
      by_cases ha : around = top
      · rw [ha, h] at hd
        cases hd
      · have := get?_below_file h around (by simpa [under, List.isSuffixOf_iff_suffix]) ha
        rw [this] at hd
        cases hd

/-! ## Naming a place by its directory -/

/-- The last name that a change concerns is proper, and the place it names is in a directory. -/
structure Names (t : FileTree) (text : String) (name : String) (around : Place) : Prop where
  place : t.place text = name :: around
  proper : Trail.IsProper name
  around : t.get? around = some .directory

/-- Behind the last name of a path there are only empty segments, and any at all only if the path
ends in a slash. -/
theorem segments_of_dropWhile {text name : String} {before : List String}
    (h : (Trail.ofText text).backward.dropWhile (· = "") = name :: before) :
    ∃ empties, (Trail.ofText text).segments = before.reverse ++ [name] ++ empties ∧
      (∀ s ∈ empties, s = "") ∧
      (empties = [] ↔ (Trail.ofText text).backward.head? ≠ some "") := by
  refine ⟨((Trail.ofText text).backward.takeWhile (· = "")).reverse, ?_, fun s hs => ?_, ?_⟩
  · calc (Trail.ofText text).segments
        = ((Trail.ofText text).backward.takeWhile (· = "") ++ name :: before).reverse := by
          rw [← h, List.takeWhile_append_dropWhile, Trail.segments]
      _ = _ := by simp
  · simpa using List.all_eq_true.mp List.all_takeWhile s (List.mem_reverse.mp hs)
  · cases hb : (Trail.ofText text).backward with
    | nil => exact absurd hb (Trail.backward_ne_nil text)
    | cons first rest => by_cases hfirst : first = "" <;> simp [hfirst]

theorem names_of_target {t : FileTree} {text name : String} {around : Place} {slash : Bool}
    (h : t.target text = .ok (.named around name slash)) : t.Names text name around := by
  obtain ⟨-, -, h⟩ := bind_eq_ok.mp h
  dsimp only at h
  split at h
  · cases h
  · next last before hdrop =>
    obtain ⟨place, hfollow, h⟩ := bind_eq_ok.mp h
    split at h
    · cases h
    · cases h
    · next hdirectory =>
      split at h
      · cases h
      · next hdots =>
        simp only [Except.ok.injEq, Target.named.injEq] at h
        obtain ⟨rfl, rfl, -⟩ := h
        have hname : last ≠ "" := by
          have := List.head?_dropWhile_not (· = "") (Trail.ofText text).backward
          simpa [hdrop] using this
        have hproper : Trail.IsProper last := ⟨hname, by simpa using hdots⟩
        refine ⟨?_, hproper, hdirectory⟩
        obtain ⟨empties, hsplit, hempties, -⟩ := segments_of_dropWhile hdrop
        rw [FileTree.place, hsplit, walk_append, walk_append, ← eq_walk_of_follow hfollow,
          walk_isProper hproper, walk_idle]
        exact fun s hs => .inl (hempties s hs)

/-- A change whose path has no slash at the end concerns the last segment of the path. -/
theorem backward_of_target {t : FileTree} {text name : String} {around : Place}
    (h : t.target text = .ok (.named around name false)) :
    ∃ before, (Trail.ofText text).backward = name :: before ∧
      around = walk (t.origin (Trail.ofText text)) before.reverse := by
  obtain ⟨-, -, h⟩ := bind_eq_ok.mp h
  dsimp only at h
  split at h
  · cases h
  · next last before hdrop =>
    obtain ⟨place, hfollow, h⟩ := bind_eq_ok.mp h
    split at h
    · cases h
    · cases h
    · split at h
      · cases h
      · simp only [Except.ok.injEq, Target.named.injEq, decide_eq_false_iff_not] at h
        obtain ⟨rfl, rfl, hslash⟩ := h
        refine ⟨before, ?_, eq_walk_of_follow hfollow⟩
        -- the first segment from the end is kept, since it is not empty
        cases hb : (Trail.ofText text).backward with
        | nil => simp [hb] at hdrop
        | cons s rest =>
          rw [hb] at hslash hdrop
          rw [← hdrop, List.dropWhile_cons_of_neg (by simpa using hslash)]

theorem place_eq_of_backward {t : FileTree} {text name : String} {before : List String}
    (h : (Trail.ofText text).backward = name :: before) (hn : Trail.IsProper name) :
    t.place text = name :: walk (t.origin (Trail.ofText text)) before.reverse := by
  rw [place, Trail.segments, h, List.reverse_cons, walk_append, walk_isProper hn]

/-! ## Elementary changes -/

@[simp] theorem base_put (t : FileTree) (name : String) (around : Place) (entry : Entry) :
    (t.put name around entry).base = t.base := by
  rw [put]
  split <;> rfl

@[simp] theorem process_put (t : FileTree) (name : String) (around : Place) (entry : Entry) :
    (t.put name around entry).process = t.process := by
  rw [put]
  split <;> rfl

@[simp] theorem base_remove (t : FileTree) (name : String) (around : Place) :
    (t.remove name around).base = t.base := rfl

@[simp] theorem process_remove (t : FileTree) (name : String) (around : Place) :
    (t.remove name around).process = t.process := rfl

/-- A directory is made in a directory where nothing stood. -/
theorem makeDirectory_eq_ok {t t' : FileTree} {text : String}
    (h : t.makeDirectory text = .ok t') :
    ∃ name around, t.Names text name around ∧ t.get? (name :: around) = none ∧
      t' = t.put name around .directory := by
  obtain ⟨target, htarget, h⟩ := bind_eq_ok.mp h
  cases target with
  | nameless => cases h
  | named around name slash =>
    obtain ⟨-, -, h⟩ := bind_eq_ok.mp h
    split at h
    · cases h
    · next hnone => exact ⟨name, around, names_of_target htarget, hnone, (Except.ok.inj h).symm⟩

/-- A file is written in a directory where nothing or a file stood. -/
theorem write_eq_ok {t t' : FileTree} {text : String} {content : ByteArray}
    (h : t.write text content = .ok t') :
    ∃ name around, t.Names text name around ∧ t.MayPut name around (.file content) ∧
      t' = t.put name around (.file content) := by
  obtain ⟨target, htarget, h⟩ := bind_eq_ok.mp h
  cases target with
  | nameless => cases h
  | named around name slash =>
    have hnames := names_of_target htarget
    cases slash with
    | true => cases h
    | false =>
      obtain ⟨-, -, h⟩ := bind_eq_ok.mp h
      split at h
      · cases h
      · next hfile =>
        refine ⟨name, around, hnames, ⟨hnames.around, fun e he => ?_⟩, (Except.ok.inj h).symm⟩
        cases e with
        | directory => exact absurd he hfile
        | file c => rfl

theorem base_write {t t' : FileTree} {text : String} {content : ByteArray}
    (h : t.write text content = .ok t') : t'.base = t.base ∧ t'.process = t.process := by
  obtain ⟨name, around, -, -, rfl⟩ := write_eq_ok h
  exact ⟨base_put .., process_put ..⟩

/-- The bytes after writing a file: new ones at its place, the old ones everywhere else. -/
theorem bytesAt_write {t t' : FileTree} {text : String} {content : ByteArray}
    (h : t.write text content = .ok t') (q : Place) :
    t'.bytesAt q = if q = t.place text then some content else t.bytesAt q := by
  obtain ⟨name, around, hnames, hmay, rfl⟩ := write_eq_ok h
  rw [hnames.place, bytesAt, get?_put hmay]
  by_cases hq : q = name :: around
  · rw [if_pos hq, if_pos hq]
  · rw [if_neg hq, if_neg hq, bytesAt]

/-- A file is renamed to a proper name in a directory where nothing or a file stood, if that is not
its own place. -/
theorem renameFile_eq_ok {t t' : FileTree} {old new : String}
    (h : t.renameFile old new = .ok t') :
    ∃ name around content name' around', t.Names old name around ∧ t.Names new name' around' ∧
      t.target new = .ok (.named around' name' false) ∧ checkName name' = .ok () ∧
      t.get? (name :: around) = some (.file content) ∧
      t.MayPut name' around' (.file content) ∧
      t' = if name :: around = name' :: around' then t
        else (t.put name' around' (.file content)).remove name around := by
  obtain ⟨source, hsource, h⟩ := bind_eq_ok.mp h
  obtain ⟨target, htarget, h⟩ := bind_eq_ok.mp h
  cases source with
  | nameless => cases h
  | named around name slash =>
    cases target with
    | nameless => cases h
    | named around' name' slash' =>
      dsimp only at h
      obtain ⟨-, -, h⟩ := bind_eq_ok.mp h
      cases hfile : t.get? (name :: around) with
      | none => rw [hfile] at h; cases h
      | some e =>
        cases e with
        | directory => rw [hfile] at h; cases h
        | file content =>
          rw [hfile] at h
          dsimp only at h
          obtain ⟨checked, hname, h⟩ := bind_eq_ok.mp h
          split at h
          · cases h
          · next hslash =>
            have hslash' : slash' = false := by
              cases slash' with
              | false => rfl
              | true => simp at hslash
            split at h
            · cases h
            · next hdirectory =>
              refine ⟨name, around, content, name', around', names_of_target hsource,
                names_of_target htarget, hslash' ▸ htarget, hname, hfile,
                ⟨(names_of_target htarget).around, fun e he => ?_⟩, ?_⟩
              · cases e with
                | directory => exact absurd he hdirectory
                | file c => rfl
              · split at h
                · next hsame => rw [if_pos hsame, Except.ok.inj h]
                · next hother => rw [if_neg hother, Except.ok.inj h]

/-- What stands where after renaming a file: it is at its new place, and nothing is at its old one if
that is another place. -/
theorem get?_renameFile {t t' : FileTree} {old new : String} {content : ByteArray}
    (hold : t.bytesAt (t.place old) = some content) (h : t.renameFile old new = .ok t')
    (q : Place) :
    t'.get? q = if q = t.place new then some (.file content)
      else if q = t.place old then none else t.get? q := by
  obtain ⟨name, around, c, name', around', hsource, htarget, -, -, hfile, hmay, rfl⟩ :=
    renameFile_eq_ok h
  have hc : c = content := by
    rw [hsource.place, bytesAt_eq_some, hfile] at hold
    exact Entry.file.inj (Option.some.inj hold)
  subst hc
  rw [hsource.place, htarget.place]
  by_cases hsame : name :: around = name' :: around'
  · rw [if_pos hsame, ← hsame]
    by_cases hq : q = name :: around
    · rw [if_pos hq, hq, hfile]
    · rw [if_neg hq, if_neg hq]
  · rw [if_neg hsame, get?_remove, get?_put hmay]
    -- below a file there is nothing, so that only its own place is emptied
    have hfile' : (t.put name' around' (.file c)).get? (name :: around) = some (.file c) := by
      rw [get?_put hmay, if_neg hsame, hfile]
    by_cases hnew : q = name' :: around'
    · rw [if_pos hnew, if_pos hnew, if_neg]
      intro hu
      have := get?_below_file hfile' q hu (fun he => hsame (he ▸ hnew))
      rw [get?_put hmay, if_pos hnew] at this
      cases this
    · rw [if_neg hnew, if_neg hnew]
      by_cases hq : q = name :: around
      · rw [if_pos hq, if_pos (by simp [hq, under, List.isSuffixOf_iff_suffix])]
      · rw [if_neg hq]
        by_cases hu : under (name :: around) q = true
        · rw [if_pos hu, get?_below_file hfile q hu hq]
        · rw [if_neg hu]

/-- The bytes after renaming a file: they are at its new place, and no longer at its old one if
that is another place. -/
theorem bytesAt_renameFile {t t' : FileTree} {old new : String} {content : ByteArray}
    (hold : t.bytesAt (t.place old) = some content) (h : t.renameFile old new = .ok t')
    (q : Place) :
    t'.bytesAt q = if q = t.place new then some content
      else if q = t.place old then none else t.bytesAt q := by
  rw [bytesAt, get?_renameFile hold h]
  by_cases hnew : q = t.place new
  · rw [if_pos hnew, if_pos hnew]
  · rw [if_neg hnew, if_neg hnew]
    by_cases hq : q = t.place old
    · rw [if_pos hq, if_pos hq]
    · rw [if_neg hq, if_neg hq, bytesAt]

theorem base_renameFile {t t' : FileTree} {old new : String}
    (h : t.renameFile old new = .ok t') : t'.base = t.base ∧ t'.process = t.process := by
  obtain ⟨name, around, c, name', around', -, -, -, -, -, -, rfl⟩ := renameFile_eq_ok h
  split <;> simp

end BootTree.FileTree

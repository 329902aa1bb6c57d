/-
  File trees: directories and files with their bytes, as a value.

  A place in the tree is the list of names that lead to it, the innermost first, so that the
  directory around a place is the tail of the list. `get?` is the one view on a tree: every
  operation is described by what it does to `get?` at each place. The directory around anything in
  the tree is a directory of the tree; this holds of every tree, since the operations refuse what
  would break it.
-/

namespace BootTree

/-- A place in a file tree: the names on the way to it, the innermost first. -/
abbrev Place := List String

/-- What can stand at a place. -/
inductive Entry where
  | directory
  | file (content : ByteArray)
  deriving Inhabited

namespace Entry

instance : DecidableEq Entry
  | .directory, .directory => .isTrue rfl
  | .directory, .file _ => .isFalse nofun
  | .file _, .directory => .isFalse nofun
  | .file a, .file b =>
    match ByteArray.instDecidableEq a b with
    | .isTrue h => .isTrue (congrArg file h)
    | .isFalse h => .isFalse fun e => h (file.inj e)

def isDirectory : Entry → Bool
  | .directory => true
  | .file _ => false

end Entry

namespace FileTree

/-- The first entry at a place in a list of entries. -/
def find? (place : Place) : List (Place × Entry) → Option Entry
  | [] => none
  | (p, e) :: rest => if p == place then some e else find? place rest

/-- What stands at a place in a list of entries. The root is always a directory. -/
def lookupIn (entries : List (Place × Entry)) (place : Place) : Option Entry :=
  if place = [] then some .directory else find? place entries

/-- Puts an entry in the position of the entry at its place, else at the end. -/
def putIn (entries : List (Place × Entry)) (place : Place) (entry : Entry) : List (Place × Entry) :=
  match entries with
  | [] => [(place, entry)]
  | (p, e) :: rest => if p == place then (p, entry) :: rest else (p, e) :: putIn rest place entry

/-- Takes out all entries at places that a test chooses. -/
def dropIn (entries : List (Place × Entry)) (gone : Place → Bool) : List (Place × Entry) :=
  entries.filter fun e => !gone e.1

theorem find?_cons (place p : Place) (e : Entry) (rest : List (Place × Entry)) :
    find? place ((p, e) :: rest) = if p = place then some e else find? place rest := by
  simp only [find?, beq_iff_eq]

theorem putIn_cons (p place : Place) (e entry : Entry) (rest : List (Place × Entry)) :
    putIn ((p, e) :: rest) place entry =
      if p = place then (p, entry) :: rest else (p, e) :: putIn rest place entry := by
  simp only [putIn, beq_iff_eq]

/-- After putting an entry, its place has it and every other place has what it had. -/
theorem find?_putIn (entries : List (Place × Entry)) (place q : Place) (entry : Entry) :
    find? q (putIn entries place entry) = if q = place then some entry else find? q entries := by
  induction entries with
  | nil => simp only [putIn, find?_cons, find?, eq_comm]
  | cons x rest ih =>
    obtain ⟨p, e⟩ := x
    by_cases hp : p = place
    · subst hp
      by_cases hq : q = p
      · subst hq; simp [putIn_cons, find?_cons]
      · simp [putIn_cons, find?_cons, hq, Ne.symm hq]
    · by_cases hq : q = p
      · subst hq; simp [putIn_cons, find?_cons, hp]
      · simp [putIn_cons, find?_cons, hp, Ne.symm hq, ih]

/-- Taking places out leaves every other place as it was. -/
theorem find?_dropIn (entries : List (Place × Entry)) (gone : Place → Bool) (q : Place) :
    find? q (dropIn entries gone) = if gone q then none else find? q entries := by
  induction entries with
  | nil => simp [dropIn, find?]
  | cons x rest ih =>
    obtain ⟨p, e⟩ := x
    rw [dropIn] at ih
    by_cases hp : gone p = true
    · by_cases hq : p = q
      · subst hq; simp [dropIn, hp, ih]
      · simp [dropIn, find?_cons, hp, hq, ih]
    · by_cases hq : p = q
      · subst hq; simp [dropIn, find?_cons, hp]
      · simp [dropIn, find?_cons, hp, hq, ih]

end FileTree

/-- What becomes of the exclusive lock on a file that is being written: it is had and given back, or
it cannot be had, or it is had and cannot be given back. -/
inductive LockOutcome where
  | held
  | refused
  | kept
  deriving DecidableEq, Repr

/-- The process that works on a file tree: the tag by which it tells its temporary files apart, and
what becomes of the lock when it writes to a path. With a slash in it the tag would lead elsewhere.

Locks are the file system's, and nothing is assumed of them but that a path meets with the same at
each write. -/
structure Process where
  tag : String
  tag_plain : '/' ∉ tag.toList
  locking : String → LockOutcome

/-- A file tree with the directory that relative paths start from, and the process that works on
it. -/
structure FileTree where
  entries : List (Place × Entry)
  base : Place
  process : Process
  closed : ∀ name around e, FileTree.lookupIn entries (name :: around) = some e →
    FileTree.lookupIn entries around = some .directory

namespace FileTree

/-- The tree that has nothing but its root, on which no lock fails. -/
def empty (base : Place) (tag : String) (plain : '/' ∉ tag.toList := by decide) : FileTree :=
  ⟨[], base, ⟨tag, plain, fun _ => .held⟩,
    by intro name around e h; simp [lookupIn, find?] at h⟩

/-- What stands at a place. -/
def get? (t : FileTree) (place : Place) : Option Entry := lookupIn t.entries place

@[simp] theorem get?_nil (t : FileTree) : t.get? [] = some .directory := rfl

/-- What stands anywhere stands in a directory. -/
theorem get?_around {t : FileTree} {name : String} {around : Place} {e : Entry}
    (h : t.get? (name :: around) = some e) : t.get? around = some .directory :=
  t.closed name around e h

/-! ## Changes

  Each is done only where it keeps the tree a tree; otherwise it changes nothing. -/

/-- The view on the entries after putting one. -/
theorem get?_putIn {t : FileTree} {name : String} {around : Place} (entry : Entry) (q : Place) :
    lookupIn (putIn t.entries (name :: around) entry) q
      = if q = name :: around then some entry else t.get? q := by
  by_cases hq : q = []
  · subst hq; simp [lookupIn, get?]
  · simp [lookupIn, get?, find?_putIn, hq]

/-- Whether an entry may be put at a place: the place is in a directory, and the entry there now, if
any, is of the same kind. -/
def MayPut (t : FileTree) (name : String) (around : Place) (entry : Entry) : Prop :=
  t.get? around = some .directory ∧
    ∀ e, t.get? (name :: around) = some e → e.isDirectory = entry.isDirectory

instance (t : FileTree) (name : String) (around : Place) (entry : Entry) :
    Decidable (t.MayPut name around entry) :=
  inferInstanceAs (Decidable (_ ∧ ∀ e, t.get? (name :: around) = some e → _))

/-- Where an entry may be put, everything still stands in a directory afterwards. -/
theorem closed_putIn {t : FileTree} {name : String} {around : Place} {entry : Entry}
    (h : t.MayPut name around entry) (n : String) (a : Place) (e : Entry)
    (he : lookupIn (putIn t.entries (name :: around) entry) (n :: a) = some e) :
    lookupIn (putIn t.entries (name :: around) entry) a = some .directory := by
  rw [get?_putIn] at he ⊢
  have ha : t.get? a = some .directory := by
    by_cases hq : n :: a = name :: around
    · obtain ⟨-, rfl⟩ := List.cons.inj hq
      exact h.1
    · rw [if_neg hq] at he
      exact get?_around he
  by_cases hp : a = name :: around
  · subst hp
    have hd := h.2 _ ha
    cases entry with
    | directory => simp
    | file c => simp [Entry.isDirectory] at hd
  · rw [if_neg hp]
    exact ha

/-- Puts an entry at a place. -/
def put (t : FileTree) (name : String) (around : Place) (entry : Entry) : FileTree :=
  if h : t.MayPut name around entry then
    { t with entries := putIn t.entries (name :: around) entry, closed := closed_putIn h }
  else t

/-- Whether `place` is `top` or lies below it. -/
def under (top : Place) (place : Place) : Bool := top.isSuffixOf place

/-- The view on the entries after taking some out. -/
theorem get?_dropIn {t : FileTree} (gone : Place → Bool) (hroot : gone [] = false) (q : Place) :
    lookupIn (dropIn t.entries gone) q = if gone q then none else t.get? q := by
  by_cases hq : q = []
  · subst hq; simp [lookupIn, get?, hroot]
  · simp [lookupIn, get?, find?_dropIn, hq]

/-- What is in a directory lies below all that the directory lies below. -/
theorem under_cons {top : Place} {name : String} {place : Place} (h : under top place = true) :
    under top (name :: place) = true := by
  simp only [under, List.isSuffixOf_iff_suffix] at h ⊢
  exact h.trans (List.suffix_cons name place)

/-- Takes a place out, with everything below it. -/
def remove (t : FileTree) (name : String) (around : Place) : FileTree :=
  { t with
    entries := dropIn t.entries (under (name :: around))
    closed := by
      have hroot : under (name :: around) [] = false := by simp [under, List.isSuffixOf]
      intro n a e he
      rw [get?_dropIn _ hroot] at he ⊢
      by_cases hu : under (name :: around) (n :: a) = true
      · rw [if_pos hu] at he
        exact absurd he (by simp)
      · rw [if_neg hu] at he
        rw [if_neg fun ha => hu (under_cons ha)]
        exact get?_around he }

/-- The view on a tree after putting an entry. -/
theorem get?_put {t : FileTree} {name : String} {around : Place} {entry : Entry}
    (h : t.MayPut name around entry) (q : Place) :
    (t.put name around entry).get? q = if q = name :: around then some entry else t.get? q := by
  rw [put, dif_pos h]
  exact get?_putIn entry q

/-- The view on a tree after taking a place out. -/
theorem get?_remove (t : FileTree) (name : String) (around q : Place) :
    (t.remove name around).get? q
      = if under (name :: around) q then none else t.get? q :=
  get?_dropIn _ (by simp [under, List.isSuffixOf]) q

/-! ## Listing -/

/-- The names in a directory with what they stand for, in the order of their characters. -/
def list (t : FileTree) (place : Place) : List (String × Entry) :=
  let inside := t.entries.filterMap fun (p, e) =>
    match p with
    | [] => none
    | name :: around => if around = place then some (name, e) else none
  inside.mergeSort fun a b => a.1 ≤ b.1

end FileTree

end BootTree

/-
  A path text cut at its slashes.

  An empty segment and `.` add nothing to a path, except that a relative path may start with `.`.
  The file name, the parent and a sibling are found by dropping such segments from the end; the text
  before them stays as it was written.
-/

namespace BootTree

/-- The segments of a path text, the last one first; an absolute path starts with a slash that
belongs to no segment. -/
structure Trail where
  rooted : Bool
  backward : List String
  deriving DecidableEq, Repr, Inhabited

namespace Trail

/-- Cuts at every slash; there is always at least one segment. -/
def cut : List Char → List (List Char)
  | [] => [[]]
  | c :: rest =>
    if c = '/' then [] :: cut rest
    else
      match cut rest with
      | segment :: segments => (c :: segment) :: segments
      | [] => [[c]]

/-- Cuts a path text. -/
def ofText (s : String) : Trail :=
  match s.toList with
  | '/' :: rest => ⟨true, ((cut rest).map String.ofList).reverse⟩
  | cs => ⟨false, ((cut cs).map String.ofList).reverse⟩

/-- The segments in order. -/
def segments (t : Trail) : List String := t.backward.reverse

/-- Joins segments with slashes. -/
def joinText (segments : List String) : String := "/".intercalate segments

/-- The text with the given segments, last one first, in place of all. -/
def textOf (rooted : Bool) (backward : List String) : String :=
  (if rooted then "/" else "") ++ joinText backward.reverse

def text (t : Trail) : String := textOf t.rooted t.backward

/-- Drops the segments at the end that add nothing. -/
def dropIdle (rooted : Bool) : List String → List String
  | [] => []
  | [s] => if s = "" || (rooted && s = ".") then [] else [s]
  | s :: t :: rest => if s = "" || s = "." then dropIdle rooted (t :: rest) else s :: t :: rest

/-- The last name; `.` and `..` are no names. -/
def fileName? (t : Trail) : Option String :=
  match dropIdle t.rooted t.backward with
  | [] => none
  | s :: _ => if s = "." || s = ".." then none else some s

/-- What stands before the last segment that adds something; none for the root and the empty path.
-/
def parent? (t : Trail) : Option Trail :=
  match dropIdle t.rooted t.backward with
  | [] => none
  | _ :: rest => some ⟨t.rooted, dropIdle t.rooted rest⟩

/-- Appends a name to a path text. -/
def append (base name : String) : String :=
  if base = "" || base.toList.getLast? = some '/' then base ++ name else base ++ "/" ++ name

/-- The text of the path with another last name; a path without one gets the name appended. -/
def withFileName (t : Trail) (name : String) : String :=
  match t.fileName?, t.parent? with
  | some _, some parent => append parent.text name
  | _, _ => append t.text name

/-- The number of segments that a parent has less is not smaller than one. -/
theorem length_dropIdle_le (rooted : Bool) : ∀ l, (dropIdle rooted l).length ≤ l.length
  | [] => by simp [dropIdle]
  | [s] => by simp only [dropIdle]; split <;> simp
  | s :: t :: rest => by
    simp only [dropIdle]
    split
    · exact Nat.le_succ_of_le (length_dropIdle_le rooted (t :: rest))
    · simp

/-- The parents of a path, the nearest first. Each is shorter, so the number of segments is fuel
enough. -/
def ancestorsFrom : Nat → Trail → List Trail
  | 0, _ => []
  | fuel + 1, t =>
    match t.parent? with
    | none => []
    | some parent => parent :: ancestorsFrom fuel parent

/-- All parents of a path, the nearest first. -/
def ancestors (t : Trail) : List Trail := ancestorsFrom t.backward.length t

end Trail

end BootTree

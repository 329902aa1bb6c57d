/-
  The data that settings, records and templates are made of: scalars, lists, and objects whose
  members keep the order in which their keys first came.

  `Fields.insert` is the one way a member enters an object by key, `Fields.merge` the way one layer
  of settings is laid over another.
-/
import BootTree.Decimal.Double

namespace BootTree

/-- A number: an integer as such, anything else as a double. -/
inductive Number where
  | int (value : Int)
  | double (value : Double)
  deriving DecidableEq, Repr, Inhabited

/-- Plain data. -/
inductive Value where
  | null
  | bool (value : Bool)
  | number (value : Number)
  | text (value : String)
  | list (items : List Value)
  | object (members : List (String × Value))
  deriving Repr, Inhabited

/-- The members of an object, in order. -/
abbrev Fields := List (String × Value)

/-! ## Members by key -/

namespace Fields

/-- The value under a key. -/
def get? (fields : Fields) (key : String) : Option Value :=
  match fields with
  | [] => none
  | (k, v) :: rest => if k = key then some v else get? rest key

/-- Puts a value under a key: in the place the key has, else at the end. -/
def insert (key : String) (value : Value) : Fields → Fields
  | [] => [(key, value)]
  | (k, v) :: rest => if k = key then (k, value) :: rest else (k, v) :: insert key value rest

/-- Takes a key out. -/
def erase (key : String) (fields : Fields) : Fields := fields.filter fun m => m.1 ≠ key

def keys (fields : Fields) : List String := fields.map Prod.fst

/-- Inserts the members of a list one by one. -/
def insertAll (base : Fields) (members : Fields) : Fields :=
  members.foldl (fun fields m => fields.insert m.1 m.2) base

end Fields

/-! ## Equality -/

mutual

/-- Decides equality of values, member by member. -/
def Value.same : Value → Value → Bool
  | .null, .null => true
  | .bool a, .bool b => a = b
  | .number a, .number b => a = b
  | .text a, .text b => a = b
  | .list a, .list b => Value.sameList a b
  | .object a, .object b => Value.sameFields a b
  | _, _ => false

def Value.sameList : List Value → List Value → Bool
  | [], [] => true
  | a :: as, b :: bs => a.same b && Value.sameList as bs
  | _, _ => false

def Value.sameFields : List (String × Value) → List (String × Value) → Bool
  | [], [] => true
  | (k, a) :: as, (l, b) :: bs => k = l && a.same b && Value.sameFields as bs
  | _, _ => false

end

mutual

theorem Value.same_iff : ∀ a b : Value, a.same b = true ↔ a = b
  | .null, b => by cases b <;> simp [Value.same]
  | .bool _, b => by cases b <;> simp [Value.same]
  | .number _, b => by cases b <;> simp [Value.same]
  | .text _, b => by cases b <;> simp [Value.same]
  | .list xs, b => by cases b <;> simp [Value.same, Value.sameList_iff xs]
  | .object ms, b => by cases b <;> simp [Value.same, Value.sameFields_iff ms]

theorem Value.sameList_iff : ∀ as bs : List Value, Value.sameList as bs = true ↔ as = bs
  | [], bs => by cases bs <;> simp [Value.sameList]
  | a :: as, bs => by
    cases bs <;> simp [Value.sameList, Value.same_iff a, Value.sameList_iff as]

theorem Value.sameFields_iff :
    ∀ as bs : List (String × Value), Value.sameFields as bs = true ↔ as = bs
  | [], bs => by cases bs <;> simp [Value.sameFields]
  | (k, a) :: as, bs => by
    rcases bs with _ | ⟨⟨l, b⟩, bs⟩ <;>
      simp [Value.sameFields, Value.same_iff a, Value.sameFields_iff as, and_assoc]

end

instance : DecidableEq Value := fun a b => decidable_of_iff _ (Value.same_iff a b)

/-! ## Layers -/

mutual

/-- Lays a value over another: of two objects the members are merged key by key, otherwise the upper
value stands. -/
def Value.overlay (base : Value) : Value → Value
  | .object upper =>
    match base with
    | .object lower => .object (Fields.merge lower upper)
    | _ => .object upper
  | v => v

/-- Lays the members of an object over those of another: a key of both is overlaid in the place it
has below, a new key comes at the end. -/
def Fields.merge (base : Fields) : List (String × Value) → Fields
  | [] => base
  | (key, value) :: rest =>
    Fields.merge
      (Fields.insert key
        (match Fields.get? base key with
        | some old => Value.overlay old value
        | none => value) base) rest

end

/-! ## Text of a value -/

/-- The text of a value if it is one. -/
def Value.text? : Value → Option String
  | .text s => some s
  | _ => none

/-- The members of a value if it is an object. -/
def Value.object? : Value → Option Fields
  | .object members => some members
  | _ => none

/-- The integer that a number is, within the range of 64 bits with a sign. -/
def Number.word? : Number → Option Int
  | .int n => if -Nat.pow 2 63 ≤ n ∧ n < Nat.pow 2 63 then some n else none
  | .double _ => none

end BootTree

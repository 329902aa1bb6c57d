/-
  Looking values up by dotted paths.

  1. **Indices** — which texts are indices, and of what: digits, perhaps behind a plus sign, of a
     number that fits into a machine word (`IsIndex`).  The decimal numeral of every such number is
     one (`isIndex_repr`).

  2. **Parts** — parts without points, joined by points, are cut where they were joined
     (`cutAtPoints_intercalate`), and any text is its parts joined again (`intercalate_cutAtPoints`).

  3. **Paths** — what following a path of names and indices leads to is a relation that does not
     mention the text (`LeadsTo`).  A member that has the whole text as its key comes first; without
     one, looking the text up is following its parts (`lookup_eq_some_iff`).
-/
import BootTree.Proofs.Files.Trail
import BootTree.Template

namespace BootTree.Template

/-! ## Indices -/

/-- Digits that denote a machine word; there may be zeros in front. -/
structure IsNumeral (digits : List Char) (i : Nat) : Prop where
  ne_nil : digits ≠ []
  all_digits : ∀ c ∈ digits, c.isDigit = true
  value : Nat.ofDigitChars 10 digits 0 = i
  word : i < Nat.pow 2 64

/-- The text is a numeral, or one behind a plus sign. -/
def IsIndex (text : String) (i : Nat) : Prop :=
  IsNumeral text.toList i ∨ ∃ digits, text.toList = '+' :: digits ∧ IsNumeral digits i

/-- The machine word that digits denote. -/
def word? (digits : List Char) : Option Nat :=
  if digits.isEmpty || !digits.all Char.isDigit then none
  else
    let n := Nat.ofDigitChars 10 digits 0
    if n < Nat.pow 2 64 then some n else none

theorem word?_eq_some_iff {digits : List Char} {i : Nat} :
    word? digits = some i ↔ IsNumeral digits i := by
  rw [word?]
  by_cases hbad : (digits.isEmpty || !digits.all Char.isDigit) = true
  · rw [if_pos hbad]
    refine ⟨nofun, fun h => ?_⟩
    simp [h.ne_nil, List.all_eq_true.mpr h.all_digits] at hbad
  · rw [if_neg hbad]
    have hdigits : digits ≠ [] ∧ ∀ c ∈ digits, c.isDigit = true := by simpa using hbad
    dsimp only
    by_cases hword : Nat.ofDigitChars 10 digits 0 < Nat.pow 2 64
    · rw [if_pos hword, Option.some.injEq]
      exact ⟨fun h => ⟨hdigits.1, hdigits.2, h, h ▸ hword⟩, fun h => h.value⟩
    · rw [if_neg hword]
      exact ⟨nofun, fun h => absurd (h.value ▸ h.word) hword⟩

theorem index?_plus (digits : List Char) : index? ('+' :: digits) = word? digits := rfl

theorem index?_of_plusless {cs : List Char} (h : ∀ digits, cs ≠ '+' :: digits) :
    index? cs = word? cs := by
  unfold index? word?
  cases cs with
  | nil => rfl
  | cons c rest => simp [Nat.ofDigitChars]

theorem index?_eq_some_iff {text : String} {i : Nat} :
    index? text.toList = some i ↔ IsIndex text i := by
  rw [IsIndex]
  by_cases hplus : ∃ digits, text.toList = '+' :: digits
  · obtain ⟨digits, hdigits⟩ := hplus
    rw [hdigits, index?_plus, word?_eq_some_iff]
    constructor
    · intro h
      exact .inr ⟨digits, rfl, h⟩
    · rintro (hsign | ⟨others, hothers, h⟩)
      · -- a plus sign is no digit
        exact absurd (hsign.all_digits '+' List.mem_cons_self) (by decide)
      · rwa [(List.cons.inj hothers).2]
  · rw [index?_of_plusless (fun digits hdigits => hplus ⟨digits, hdigits⟩), word?_eq_some_iff]
    refine ⟨.inl, ?_⟩
    rintro (h | ⟨digits, hdigits, -⟩)
    · exact h
    · exact absurd ⟨digits, hdigits⟩ hplus

/-- The decimal numeral of a machine word is an index. -/
theorem isIndex_repr {i : Nat} (h : i < Nat.pow 2 64) : IsIndex (Nat.repr i) i := by
  refine .inl ?_
  rw [Nat.toList_repr]
  exact {
    ne_nil := Nat.toDigits_ne_nil
    all_digits := fun c hc => Nat.isDigit_of_mem_toDigits (by decide) (by decide) hc
    value := Nat.ofDigitChars_ten_toDigits
    word := h }

/-! ## Parts -/

theorem cutAtPoints_eq_splitOn (cs : List Char) : cutAtPoints cs = cs.splitOn '.' := by
  induction cs with
  | nil => rfl
  | cons c rest ih =>
    rw [cutAtPoints, ih, List.splitOn_cons_eq_if_modifyHead]
    by_cases hc : c = '.'
    · simp [hc]
    · rw [if_neg hc, if_neg (by simpa using hc)]
      cases h : rest.splitOn '.' with
      | nil => exact absurd h (List.splitOn_ne_nil _ _)
      | cons part parts => rfl

theorem cutAtPoints_intercalate {parts : List String} (hne : parts ≠ [])
    (h : ∀ part ∈ parts, '.' ∉ part.toList) :
    cutAtPoints (".".intercalate parts).toList = parts.map String.toList := by
  rw [cutAtPoints_eq_splitOn, String.toList_intercalate]
  refine List.splitOn_intercalate '.' (fun cs hcs => ?_) (by simpa using hne)
  obtain ⟨part, hpart, rfl⟩ := List.mem_map.mp hcs
  exact h part hpart

theorem point_not_mem_of_mem_cutAtPoints {cs part : List Char} (h : part ∈ cutAtPoints cs) :
    '.' ∉ part := by
  rw [cutAtPoints_eq_splitOn] at h
  exact not_mem_of_mem_splitOn h

/-- A text is its parts joined again. -/
theorem intercalate_cutAtPoints (path : String) :
    ".".intercalate ((cutAtPoints path.toList).map String.ofList) = path := by
  rw [← String.toList_inj, String.toList_intercalate, List.map_map, cutAtPoints_eq_splitOn]
  have hback : String.toList ∘ String.ofList = id := funext fun cs => String.toList_ofList
  rw [hback, List.map_id]
  exact List.intercalate_splitOn '.'

/-! ## Paths -/

/-- Following names and indices leads from a value to a value inside it. -/
inductive LeadsTo : Value → List String → Value → Prop where
  | here (v : Value) : LeadsTo v [] v
  | member {members : Fields} {key : String} {parts : List String} {inner v : Value} :
      members.get? key = some inner → LeadsTo inner parts v →
      LeadsTo (.object members) (key :: parts) v
  | item {items : List Value} {part : String} {parts : List String} {i : Nat} {inner v : Value} :
      IsIndex part i → items[i]? = some inner → LeadsTo inner parts v →
      LeadsTo (.list items) (part :: parts) v

theorem descend_eq_some_iff {parts : List String} {v w : Value} :
    descend v (parts.map String.toList) = some w ↔ LeadsTo v parts w := by
  induction parts generalizing v with
  | nil =>
    rw [List.map_nil, descend, Option.some.injEq]
    constructor
    · rintro rfl
      exact .here v
    · rintro ⟨⟩
      rfl
  | cons part parts ih =>
    rw [List.map_cons]
    cases v with
    | object members =>
      rw [descend, String.ofList_toList, Option.bind_eq_bind, Option.bind_eq_some_iff]
      constructor
      · rintro ⟨inner, hget, hrest⟩
        exact .member hget (ih.mp hrest)
      · rintro (_ | ⟨hget, hrest⟩)
        exact ⟨_, hget, ih.mpr hrest⟩
    | list items =>
      simp only [descend, Option.bind_eq_bind, Option.bind_eq_some_iff, index?_eq_some_iff]
      constructor
      · rintro ⟨i, hi, inner, hitem, hrest⟩
        exact .item hi hitem (ih.mp hrest)
      · rintro (_ | _ | ⟨hi, hitem, hrest⟩)
        exact ⟨_, hi, _, hitem, ih.mpr hrest⟩
    | null | bool | number | text => exact ⟨nofun, nofun⟩

variable {vars : Fields} {path : String} {v : Value}

theorem leadsTo_single_iff {key : String} :
    LeadsTo (.object vars) [key] v ↔ vars.get? key = some v := by
  constructor
  · rintro (_ | ⟨hget, hrest⟩)
    cases hrest
    exact hget
  · intro hget
    exact .member hget (.here v)

/-- A member that has the whole text as its key comes before all that its parts lead to. -/
theorem lookup_of_member (hne : path ≠ "") (h : vars.get? path = some v) :
    lookup vars path = some v := by
  rw [lookup, if_neg hne, h]

/-- Without such a member, looking a text up is following its parts. -/
theorem lookup_of_parts {parts : List String} (hne : ".".intercalate parts ≠ "")
    (hparts : parts ≠ []) (hplain : ∀ part ∈ parts, '.' ∉ part.toList)
    (hnone : vars.get? (".".intercalate parts) = none) :
    lookup vars (".".intercalate parts) = some v ↔ LeadsTo (.object vars) parts v := by
  rw [lookup, if_neg hne, hnone]
  dsimp only
  rw [cutAtPoints_intercalate hparts hplain, descend_eq_some_iff]

/-- Every text is joined parts. -/
theorem exists_parts (path : String) : ∃ parts : List String, parts ≠ [] ∧
    (∀ part ∈ parts, '.' ∉ part.toList) ∧ ".".intercalate parts = path := by
  refine ⟨(cutAtPoints path.toList).map String.ofList, ?_, ?_, intercalate_cutAtPoints path⟩
  · rw [cutAtPoints_eq_splitOn]
    simp
  · intro part hpart
    obtain ⟨cs, hcs, rfl⟩ := List.mem_map.mp hpart
    rw [String.toList_ofList]
    exact point_not_mem_of_mem_cutAtPoints hcs

/-- Every value is found by the path that leads to it, unless the whole path is the key of another
member, which is found then.  And what is found is found in one of these two ways.  Items are counted
by machine words, and every one of these is an index by its decimal numeral. -/
theorem lookup_reaches (vars : Fields) :
    (∀ (parts : List String) (v : Value), parts ≠ [] → (∀ part ∈ parts, '.' ∉ part.toList) →
      ".".intercalate parts ≠ "" → LeadsTo (.object vars) parts v →
      (parts.length = 1 ∨ vars.get? (".".intercalate parts) = none) →
      lookup vars (".".intercalate parts) = some v) ∧
    (∀ (path : String) (v : Value), path ≠ "" → vars.get? path = some v →
      lookup vars path = some v) ∧
    (∀ (path : String) (v : Value), lookup vars path = some v → path ≠ "" ∧
      (vars.get? path = some v ∨ vars.get? path = none ∧ ∃ parts : List String, parts ≠ [] ∧
        (∀ part ∈ parts, '.' ∉ part.toList) ∧ ".".intercalate parts = path ∧
        LeadsTo (.object vars) parts v)) ∧
    ∀ i : Nat, i < Nat.pow 2 64 → IsIndex (Nat.repr i) i := by
  refine ⟨fun parts v hparts hplain hne hleads hfree => ?_, fun path v => lookup_of_member,
    fun path v hfound => ?_, fun i => isIndex_repr⟩
  · rcases hfree with hone | hnone
    · -- one part is the whole text
      obtain ⟨key, rfl⟩ := List.length_eq_one_iff.mp hone
      have hkey : ".".intercalate [key] = key := by simp
      rw [hkey] at hne ⊢
      exact lookup_of_member hne (leadsTo_single_iff.mp hleads)
    · exact (lookup_of_parts hne hparts hplain hnone).mpr hleads
  · have hne : path ≠ "" := by
      rintro rfl
      cases hfound
    refine ⟨hne, ?_⟩
    cases hget : vars.get? path with
    | some member =>
      rw [lookup_of_member hne hget] at hfound
      exact .inl hfound
    | none =>
      obtain ⟨parts, hparts, hplain, rfl⟩ := exists_parts path
      exact .inr ⟨rfl, parts, hparts, hplain, rfl,
        (lookup_of_parts hne hparts hplain hget).mp hfound⟩

/-- The whole path as a key comes before its parts; a plus sign and zeros do not matter to an index; and
a key with a point further inside is out of reach. -/
example :
    let inner : Value := .object [("b.c", .text "hidden"), ("b", .list [.null, .text "item"])]
    let vars : Fields := [("a", inner), ("a.b.1", .text "flat")]
    lookup vars "a.b.1" = some (.text "flat") ∧ lookup vars "a.b.+01" = some (.text "item") ∧
      lookup vars "a.b.c" = none := by
  decide +kernel

end BootTree.Template

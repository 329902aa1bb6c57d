/-
  Which names are renamed.

  1. **Occurrences** — a name of the older form occurs where one starts and no word is going on
     (`OccursAt`).  This is a condition on a position of the text as it was, while the renaming reads
     the text once and takes up again behind each name that it has replaced.

  2. **Apart** — inside a name all characters belong to words, so no other name occurs there
     (`OccursAt.apart`), and none is missed when the whole name is skipped.

  3. **The count** — along the scan the positions ahead shift by what was read, and a name that is
     replaced is the one position less (`length_places`).

  4. **Pieces** — the text falls into characters that stay and names that are replaced (`Piece`), and
     the names among the pieces are those that occur (`exists_pieces`).
-/
import BootTree.Proofs.Settings.Renaming

namespace BootTree.ModuleNames

variable {w : Bool} {c : Char} {cs rest : List Char} {i j : Nat} {r s : List Char × List Char}

/-! ## Occurrences -/

/-- At a position a name of the older form starts, and the character before the position, if there is
one, belongs to no word.  `inWord` tells whether a word is going on where the text begins; at the
beginning of a whole text none is. -/
def OccursAt (inWord : Bool) (cs : List Char) (i : Nat) (r : List Char × List Char) : Prop :=
  r ∈ renames ∧ r.1 <+: cs.drop i ∧ (cs.take i).getLast?.elim inWord Text.isWord = false

instance : DecidablePred (OccursAt w cs i) :=
  fun _ => inferInstanceAs (Decidable (_ ∧ _ ∧ _))

/-- The names of the older form are these three, each with its successor. -/
theorem occursAt_iff : OccursAt false cs i r ↔
    (r = ("authn_".toList, "authentication.".toList) ∨
      r = ("authz_".toList, "authorization.".toList) ∨
      r = ("manage_".toList, "managers.".toList)) ∧
    r.1 <+: cs.drop i ∧ ∀ c, (cs.take i).getLast? = some c → Text.isWord c = false := by
  have htable : r ∈ renames ↔ r = ("authn_".toList, "authentication.".toList) ∨
      r = ("authz_".toList, "authorization.".toList) ∨
      r = ("manage_".toList, "managers.".toList) := by
    rw [renames, List.mem_cons, List.mem_cons, List.mem_singleton]
  rw [OccursAt, htable]
  refine and_congr_right fun _ => and_congr_right fun _ => ?_
  cases (cs.take i).getLast? with
  | none => simp
  | some c => simp

/-- The positions at which a name of the older form occurs. -/
def places (inWord : Bool) (cs : List Char) : List Nat :=
  (List.range cs.length).filter fun i => ∃ r ∈ renames, OccursAt inWord cs i r

theorem mem_places : i ∈ places w cs ↔ ∃ r, OccursAt w cs i r := by
  rw [places, List.mem_filter, List.mem_range, decide_eq_true_eq]
  constructor
  · rintro ⟨-, r, -, hoccurs⟩
    exact ⟨r, hoccurs⟩
  · rintro ⟨r, hr, hstands, hstart⟩
    refine ⟨?_, r, hr, hr, hstands, hstart⟩
    -- behind the end of the text nothing starts
    have hlength := hstands.length_le
    have hpos := List.length_pos_iff.mpr (ne_nil_of_mem_renames r hr)
    rw [List.length_drop] at hlength
    omega

theorem occursAt_zero : OccursAt w cs 0 r ↔ w = false ∧ legacy? cs = some r := by
  rw [legacy?_eq_some, OccursAt, List.drop_zero, List.take_zero]
  exact ⟨fun ⟨hr, hstands, hw⟩ => ⟨hw, hr, hstands⟩, fun ⟨hw, hr, hstands⟩ => ⟨hr, hstands, hw⟩⟩

theorem occursAt_succ : OccursAt w (c :: rest) (i + 1) r ↔ OccursAt (Text.isWord c) rest i r := by
  have hbefore : (c :: rest.take i).getLast?.elim w Text.isWord =
      (rest.take i).getLast?.elim (Text.isWord c) Text.isWord := by
    rw [List.getLast?_cons]
    cases (rest.take i).getLast? <;> rfl
  rw [OccursAt, OccursAt, List.drop_succ_cons, List.take_succ_cons, hbefore]

/-- Where a character is kept, no name occurs at it. -/
theorem not_occursAt_zero (h : w = true ∨ legacy? cs = none) : ¬ OccursAt w cs 0 r := by
  intro hoccurs
  obtain ⟨rfl, hlegacy⟩ := occursAt_zero.mp hoccurs
  simp [hlegacy] at h

/-- Within a word no name occurs; behind it, what occurs in the rest. -/
theorem occursAt_append_of_word (h : ∀ c ∈ cs, Text.isWord c = true) :
    OccursAt true (cs ++ rest) i r ↔ ∃ j, i = cs.length + j ∧ OccursAt true rest j r := by
  induction cs generalizing i with
  | nil => simp
  | cons c cs ih =>
    obtain ⟨hc, hcs⟩ := List.forall_mem_cons.mp h
    cases i with
    | zero =>
      constructor
      · exact fun hoccurs => absurd hoccurs (not_occursAt_zero (.inl rfl))
      · rintro ⟨j, hj, -⟩
        rw [List.length_cons] at hj
        omega
    | succ i =>
      rw [List.cons_append, occursAt_succ, hc, ih hcs, List.length_cons]
      constructor
      · rintro ⟨j, rfl, hoccurs⟩
        exact ⟨j, by omega, hoccurs⟩
      · rintro ⟨j, hj, hoccurs⟩
        exact ⟨j, by omega, hoccurs⟩

/-- A text that begins with a name has this one at its beginning, and the others behind it. -/
theorem occursAt_append_of_mem (hs : s ∈ renames) : OccursAt false (s.1 ++ rest) i r ↔
    (i = 0 ∧ r = s) ∨ ∃ j, i = s.1.length + j ∧ OccursAt true rest j r := by
  have hlegacy : legacy? (s.1 ++ rest) = some s := legacy?_eq_some.mpr ⟨hs, List.prefix_append _ _⟩
  have hword := word_of_mem_renames hs
  have hpos := List.length_pos_iff.mpr (ne_nil_of_mem_renames s hs)
  cases i with
  | zero =>
    rw [occursAt_zero, hlegacy, Option.some.injEq]
    constructor
    · rintro ⟨-, rfl⟩
      exact .inl ⟨rfl, rfl⟩
    · rintro (⟨-, rfl⟩ | ⟨j, hj, -⟩)
      · exact ⟨rfl, rfl⟩
      · omega
  | succ i =>
    cases hold : s.1 with
    | nil => exact absurd hold (ne_nil_of_mem_renames s hs)
    | cons c cs =>
      rw [hold] at hword
      obtain ⟨hc, hcs⟩ := List.forall_mem_cons.mp hword
      rw [List.cons_append, occursAt_succ, hc, occursAt_append_of_word hcs, List.length_cons]
      constructor
      · rintro ⟨j, rfl, hoccurs⟩
        exact .inr ⟨j, by omega, hoccurs⟩
      · rintro (⟨hi, -⟩ | ⟨j, hj, hoccurs⟩)
        · omega
        · exact ⟨j, by omega, hoccurs⟩

/-- Two names that occur at different positions do not overlap, and at one position only one name
does.  The induction is on the text before the first of them. -/
theorem OccursAt.apart (h : OccursAt w cs i r) (h' : OccursAt w cs j s) (hle : i ≤ j) :
    (i = j ∧ r = s) ∨ i + r.1.length ≤ j := by
  induction i generalizing w cs j with
  | zero =>
    obtain ⟨rfl, hlegacy⟩ := occursAt_zero.mp h
    obtain ⟨hr, behind, rfl⟩ := legacy?_eq_some.mp hlegacy
    rcases (occursAt_append_of_mem hr).mp h' with ⟨rfl, rfl⟩ | ⟨k, rfl, -⟩
    · exact .inl ⟨rfl, rfl⟩
    · exact .inr (by omega)
  | succ i ih =>
    obtain ⟨j, rfl⟩ : ∃ k, j = k + 1 := ⟨j - 1, by omega⟩
    cases cs with
    | nil =>
      obtain ⟨hr, hstands, -⟩ := h
      exact absurd (List.prefix_nil.mp hstands) (ne_nil_of_mem_renames r hr)
    | cons c rest =>
      rcases ih (occursAt_succ.mp h) (occursAt_succ.mp h') (by omega) with ⟨rfl, rfl⟩ | hends
      · exact .inl ⟨rfl, rfl⟩
      · exact .inr (by omega)

/-! ## The count -/

theorem length_places_cons (w : Bool) (c : Char) (rest : List Char) :
    (places w (c :: rest)).length =
      (if ∃ r ∈ renames, OccursAt w (c :: rest) 0 r then 1 else 0) +
        (places (Text.isWord c) rest).length := by
  have hshift : ((List.range rest.length).map Nat.succ).filter
      (fun i => ∃ r ∈ renames, OccursAt w (c :: rest) i r) =
        (places (Text.isWord c) rest).map Nat.succ := by
    rw [places, List.filter_map]
    congr 2
    funext i
    exact decide_eq_decide.mpr (by simp only [Nat.succ_eq_add_one, occursAt_succ])
  rw [places, List.length_cons, List.range_succ_eq_map, List.filter_cons, hshift]
  by_cases hfirst : ∃ r ∈ renames, OccursAt w (c :: rest) 0 r
  · rw [if_pos (decide_eq_true hfirst), if_pos hfirst, List.length_cons, List.length_map]
    omega
  · rw [if_neg (by rwa [decide_eq_true_eq]), if_neg hfirst, List.length_map]
    omega

theorem length_places_append_of_word (h : ∀ c ∈ cs, Text.isWord c = true) :
    (places true (cs ++ rest)).length = (places true rest).length := by
  induction cs with
  | nil => rfl
  | cons c cs ih =>
    obtain ⟨hc, hcs⟩ := List.forall_mem_cons.mp h
    rw [List.cons_append, length_places_cons, if_neg, hc, ih hcs, Nat.zero_add]
    rintro ⟨r, -, hoccurs⟩
    exact not_occursAt_zero (.inl rfl) hoccurs

theorem length_places_append_of_mem (hs : s ∈ renames) :
    (places false (s.1 ++ rest)).length = (places true rest).length + 1 := by
  have hfirst : ∃ r ∈ renames, OccursAt false (s.1 ++ rest) 0 r :=
    ⟨s, hs, (occursAt_append_of_mem hs).mpr (.inl ⟨rfl, rfl⟩)⟩
  have hword := word_of_mem_renames hs
  cases hold : s.1 with
  | nil => exact absurd hold (ne_nil_of_mem_renames s hs)
  | cons c cs =>
    rw [hold] at hword hfirst
    obtain ⟨hc, hcs⟩ := List.forall_mem_cons.mp hword
    rw [List.cons_append] at hfirst ⊢
    rw [length_places_cons, if_pos hfirst, hc, length_places_append_of_word hcs, Nat.add_comm]

/-- As many names are replaced as there are positions at which one occurs. -/
theorem length_places (w : Bool) (cs : List Char) :
    (places w cs).length = (renameFrom w 0 cs).2 := by
  induction w, cs using scan_induction with
  | nil w => rfl
  | keep w c rest hkeep ih =>
    rw [length_places_cons, if_neg, renameFrom_keep hkeep, ih, Nat.zero_add]
    rintro ⟨r, -, hoccurs⟩
    exact not_occursAt_zero hkeep hoccurs
  | renamed s hs rest ih => rw [length_places_append_of_mem hs, renameFrom_of_mem hs, ih]

/-! ## Pieces -/

/-- A piece of a text: a character that stays, or a name of the older form. -/
inductive Piece where
  | kept (c : Char)
  | name (r : List Char × List Char)

namespace Piece

/-- What the piece was. -/
def older : Piece → List Char
  | kept c => [c]
  | name r => r.1

/-- What becomes of the piece. -/
def newer : Piece → List Char
  | kept c => [c]
  | name r => r.2

/-- A name is one of the pieces, and what was before it is as long as the position says. -/
def StandsAt (pieces : List Piece) (i : Nat) (r : List Char × List Char) : Prop :=
  ∃ before behind, pieces = before ++ name r :: behind ∧ i = (before.flatMap older).length

variable {p : Piece} {pieces : List Piece}

theorem standsAt_cons : StandsAt (p :: pieces) i r ↔
    (i = 0 ∧ p = name r) ∨ ∃ j, i = p.older.length + j ∧ StandsAt pieces j r := by
  constructor
  · rintro ⟨before, behind, hpieces, hi⟩
    cases before with
    | nil => exact .inl ⟨hi, (List.cons.inj hpieces).1⟩
    | cons q before =>
      obtain ⟨rfl, rfl⟩ := List.cons.inj hpieces
      rw [List.flatMap_cons, List.length_append] at hi
      exact .inr ⟨_, hi, before, behind, rfl, rfl⟩
  · rintro (⟨rfl, rfl⟩ | ⟨j, rfl, before, behind, rfl, rfl⟩)
    · exact ⟨[], pieces, rfl, rfl⟩
    · refine ⟨p :: before, behind, rfl, ?_⟩
      rw [List.flatMap_cons, List.length_append]

end Piece

/-- The renaming replaces the names among the pieces of the text, which are the names that occur. -/
theorem exists_pieces (w : Bool) (cs : List Char) : ∃ pieces : List Piece,
    pieces.flatMap Piece.older = cs ∧ pieces.flatMap Piece.newer = (renameFrom w 0 cs).1 ∧
      ∀ i r, OccursAt w cs i r ↔ Piece.StandsAt pieces i r := by
  induction w, cs using scan_induction with
  | nil w =>
    refine ⟨[], rfl, rfl, fun i r => ⟨fun ⟨hr, hstands, _⟩ => ?_, fun ⟨before, behind, h, _⟩ => ?_⟩⟩
    · rw [List.drop_nil] at hstands
      exact absurd (List.prefix_nil.mp hstands) (ne_nil_of_mem_renames r hr)
    · simp at h
  | keep w c rest hkeep ih =>
    obtain ⟨pieces, holder, hnewer, hnames⟩ := ih
    refine ⟨.kept c :: pieces, ?_, ?_, fun i r => ?_⟩
    · rw [List.flatMap_cons, holder]
      rfl
    · rw [List.flatMap_cons, hnewer, renameFrom_keep hkeep]
      rfl
    · rw [Piece.standsAt_cons]
      constructor
      · intro hoccurs
        cases i with
        | zero => exact absurd hoccurs (not_occursAt_zero hkeep)
        | succ i => exact .inr ⟨i, Nat.add_comm i 1, (hnames i r).mp (occursAt_succ.mp hoccurs)⟩
      · rintro (⟨-, hname⟩ | ⟨j, rfl, hstands⟩)
        · cases hname
        · exact Nat.add_comm j 1 ▸ occursAt_succ.mpr ((hnames j r).mpr hstands)
  | renamed s hs rest ih =>
    obtain ⟨pieces, holder, hnewer, hnames⟩ := ih
    refine ⟨.name s :: pieces, ?_, ?_, fun i r => ?_⟩
    · rw [List.flatMap_cons, holder]
      rfl
    · rw [List.flatMap_cons, hnewer, renameFrom_of_mem hs]
      rfl
    · rw [Piece.standsAt_cons, occursAt_append_of_mem hs]
      have hname : Piece.name s = .name r ↔ r = s := by
        rw [Piece.name.injEq]
        exact eq_comm
      simp only [hname, hnames, Piece.older]

/-- The renaming replaces exactly the names of the older form.  These are three, and where they occur
can be told position by position from the text as it was: behind no character of a word.  No two of
them overlap, and the renaming counts one for each of their positions.  The text is made of pieces, of
which the names that occur are replaced, each by its successor, and all other characters are kept in
order. -/
theorem rename_replaces (content : String) :
    (∀ i r, OccursAt false content.toList i r ↔
      (r = ("authn_".toList, "authentication.".toList) ∨
        r = ("authz_".toList, "authorization.".toList) ∨
        r = ("manage_".toList, "managers.".toList)) ∧
      r.1 <+: content.toList.drop i ∧
      ∀ c, (content.toList.take i).getLast? = some c → Text.isWord c = false) ∧
    (∀ i j r s, OccursAt false content.toList i r → OccursAt false content.toList j s →
      (i = j ∧ r = s) ∨ i + r.1.length ≤ j ∨ j + s.1.length ≤ i) ∧
    ((∀ i, i ∈ places false content.toList ↔ ∃ r, OccursAt false content.toList i r) ∧
      (places false content.toList).Nodup ∧
      (rename content).2 = (places false content.toList).length) ∧
    ∃ pieces : List Piece, pieces.flatMap Piece.older = content.toList ∧
      pieces.flatMap Piece.newer = (rename content).1.toList ∧
      ∀ i r, OccursAt false content.toList i r ↔ Piece.StandsAt pieces i r := by
  refine ⟨fun i r => occursAt_iff, fun i j r s h h' => ?_,
    ⟨fun i => mem_places, List.nodup_range.filter _, ?_⟩, ?_⟩
  · rcases Nat.le_total i j with hle | hle
    · exact (h.apart h' hle).imp_right .inl
    · rcases h'.apart h hle with ⟨rfl, rfl⟩ | hends
      · exact .inl ⟨rfl, rfl⟩
      · exact .inr (.inr hends)
  · rw [rename_eq, length_places]
  · rw [rename_eq, String.toList_ofList]
    exact exists_pieces false content.toList

/-- No name occurs directly behind another one, nor within a word. -/
example : places false "authn_authz_x, xmanage_ manage_".toList = [0, 24] := by decide +kernel

end BootTree.ModuleNames

/-
  The grammar of templates: literal text with placeholders in it.

  1. **Scanning** — a pair of braces is found at the first place where it stands.  In front of it a text
     without such a pair is passed over, as long as it does not end in the same brace, which would
     make a pair one place earlier (`Free`, `pieces_append`, `pieces_body_append`).

  2. **Layouts** — a template as its writer sees it: stretches of literal text, each with a
     placeholder behind it, and the text at the end.  The conditions under which it is also what a
     scan finds belong to the layout.

  3. **Rendering** — the text of a layout comes out with every placeholder replaced in its place
     (`Layout.render_text`).  What stands there is not scanned, whatever braces are in it.
-/
import BootTree.Template

namespace BootTree.Template

/-! ## Scanning -/

/-- In front of `tail`, the text has no pair of the character, not even one across the border. -/
def Free (c : Char) (cs tail : List Char) : Prop :=
  ¬ [c, c] <:+: cs ∧ (cs.getLast? = some c → tail.head? ≠ some c)

/-- At the head of such a text no pair begins, and the rest is one too. -/
theorem Free.cons {c d : Char} {rest tail : List Char} (h : Free c (d :: rest) tail) :
    (d = c → (rest ++ tail).head? ≠ some c) ∧ Free c rest tail := by
  obtain ⟨hnone, hend⟩ := h
  cases rest with
  | nil => exact ⟨fun hd => hend (by rw [hd]; rfl), by simp, by simp⟩
  | cons e rest =>
    rw [List.infix_cons_iff, not_or] at hnone
    refine ⟨fun hd he => hnone.1 ?_, hnone.2, fun hlast => hend (by simpa using hlast)⟩
    rw [hd, Option.some.inj he]
    exact ⟨rest, rfl⟩

theorem pieces_append {cs tail : List Char} (h : Free '\x7b' cs tail) :
    pieces none (cs ++ tail) = cs.map (fun c => .literal [c]) ++ pieces none tail := by
  induction cs with
  | nil => rfl
  | cons c rest ih =>
    obtain ⟨hopens, hrest⟩ := h.cons
    rw [List.cons_append, pieces.eq_3, ih hrest, List.map_cons, List.cons_append]
    intro behind hc hbehind
    exact hopens hc (by rw [hbehind]; rfl)

theorem pieces_of_pairless {cs : List Char} (h : ¬ ['\x7b', '\x7b'] <:+: cs) :
    pieces none cs = cs.map (fun c => .literal [c]) := by
  have hfree : Free '\x7b' cs [] := ⟨h, by simp⟩
  have hpieces := pieces_append hfree
  rwa [List.append_nil, pieces, List.append_nil] at hpieces

theorem pieces_body_append {body cs tail : List Char} (h : Free '\x7d' cs tail) :
    pieces (some body) (cs ++ tail) = pieces (some (cs.reverse ++ body)) tail := by
  induction cs generalizing body with
  | nil => rfl
  | cons c rest ih =>
    obtain ⟨hcloses, hrest⟩ := h.cons
    rw [List.cons_append, pieces.eq_6, ih hrest, List.reverse_cons, List.append_assoc]
    · rfl
    · intro behind hc hbehind
      exact hcloses hc (by rw [hbehind]; rfl)

/-! ## Layouts -/

/-- Literal text and the placeholder behind it. Braces may stand in both, but not so that the
placeholder would begin or end elsewhere. -/
structure Stretch where
  literal : String
  body : String
  literal_pairless : ¬ ['\x7b', '\x7b'] <:+: literal.toList := by decide +kernel
  literal_end : literal.toList.getLast? ≠ some '\x7b' := by decide +kernel
  body_pairless : ¬ ['\x7d', '\x7d'] <:+: body.toList := by decide +kernel
  body_end : body.toList.getLast? ≠ some '\x7d' := by decide +kernel

/-- A template: stretches in order, and the text behind the last placeholder. -/
structure Layout where
  stretches : List Stretch
  last : String
  last_pairless : ¬ ['\x7b', '\x7b'] <:+: last.toList := by decide +kernel

namespace Stretch

/-- The placeholder as it is written. -/
def placeholder (s : Stretch) : String := "\x7b\x7b" ++ s.body ++ "\x7d\x7d"

/-- The value that the placeholder names, without the blanks around the name. The extra members come
before the variables. -/
def value? (vars : Fields) (extra : Option Fields) (s : Stretch) : Option Value :=
  let name := String.ofList (Text.trim s.body.toList)
  (extra.bind fun fields => lookup fields name).or (lookup vars name)

/-- What stands in place of the placeholder: a text as it is, nothing for null, the JSON text of any
other value, and where there is no value the placeholder itself. -/
def filled (vars : Fields) (extra : Option Fields) (s : Stretch) : String :=
  match s.value? vars extra with
  | some (.text text) => text
  | some .null => ""
  | some v => Json.compact v
  | none => s.placeholder

theorem pieces_text (s : Stretch) (tail : List Char) :
    pieces none (s.literal.toList ++ (s.placeholder.toList ++ tail)) =
      s.literal.toList.map (fun c => .literal [c]) ++ .hole s.body.toList :: pieces none tail := by
  have hopen : s.placeholder.toList ++ tail =
      '\x7b' :: '\x7b' :: (s.body.toList ++ '\x7d' :: '\x7d' :: tail) := by
    simp [placeholder]
  have hliteral : Free '\x7b' s.literal.toList (s.placeholder.toList ++ tail) :=
    ⟨s.literal_pairless, fun h => absurd h s.literal_end⟩
  have hbody : Free '\x7d' s.body.toList ('\x7d' :: '\x7d' :: tail) :=
    ⟨s.body_pairless, fun h => absurd h s.body_end⟩
  rw [pieces_append hliteral, hopen, pieces.eq_2, pieces_body_append hbody, pieces.eq_5,
    List.append_nil, List.reverse_reverse]

end Stretch

namespace Layout

/-- The template as it is written. -/
def text (l : Layout) : String :=
  String.join (l.stretches.map fun s => s.literal ++ s.placeholder) ++ l.last

/-- The template with its placeholders replaced. -/
def filled (vars : Fields) (extra : Option Fields) (l : Layout) : String :=
  String.join (l.stretches.map fun s => s.literal ++ s.filled vars extra) ++ l.last

end Layout

/-! ## Rendering -/

section Rendering

variable (vars : Fields) (extra : Option Fields)

theorem resolve_eq_or (name : String) : resolve vars extra name =
    (extra.bind fun fields => lookup fields name).or (lookup vars name) := by
  rw [resolve]
  cases extra.bind fun fields => lookup fields name <;> rfl

theorem Stretch.resolve_holeName (s : Stretch) :
    resolve vars extra (holeName s.body.toList) = s.value? vars extra :=
  resolve_eq_or vars extra _

theorem renderPieces_append (strict : Bool) (cs : List Char) (ps : List Piece) :
    renderPieces strict vars extra (cs.map (fun c => .literal [c]) ++ ps) =
      (renderPieces strict vars extra ps).map (cs ++ ·) := by
  induction cs with
  | nil =>
    rw [List.map_nil, List.nil_append]
    cases renderPieces strict vars extra ps <;> rfl
  | cons c rest ih =>
    rw [List.map_cons, List.cons_append, renderPieces, ih]
    cases renderPieces strict vars extra ps <;> rfl

theorem renderPieces_literals (strict : Bool) (cs : List Char) {ps : List Piece} {text : List Char}
    (h : renderPieces strict vars extra ps = .ok text) :
    renderPieces strict vars extra (cs.map (fun c => .literal [c]) ++ ps) = .ok (cs ++ text) := by
  rw [renderPieces_append, h]
  rfl

theorem renderPieces_hole (s : Stretch) {ps : List Piece} {text : List Char}
    (h : renderPieces false vars extra ps = .ok text) :
    renderPieces false vars extra (.hole s.body.toList :: ps) =
      .ok ((s.filled vars extra).toList ++ text) := by
  rw [renderPieces, s.resolve_holeName, h, Stretch.filled]
  cases hfound : s.value? vars extra with
  | none =>
    refine congrArg Except.ok ?_
    simp [Stretch.placeholder]
  | some v => cases v <;> rfl

theorem Layout.renderPieces_text (l : Layout) :
    renderPieces false vars extra (pieces none l.text.toList) =
      .ok (l.filled vars extra).toList := by
  rw [text, filled]
  induction l.stretches with
  | nil =>
    have hend : renderPieces false vars extra [] = .ok [] := rfl
    have hlast := renderPieces_literals vars extra false l.last.toList hend
    rw [List.append_nil, List.append_nil, ← pieces_of_pairless l.last_pairless] at hlast
    simpa using hlast
  | cons s rest ih =>
    rw [List.map_cons, List.map_cons, String.join_cons, String.join_cons]
    simp only [String.append_assoc, String.toList_append] at ih ⊢
    rw [s.pieces_text]
    exact renderPieces_literals vars extra false _ (renderPieces_hole vars extra s ih)

/-- A template is rendered stretch by stretch: the literal text stays, and every placeholder is
replaced in its place. -/
theorem Layout.render_text (l : Layout) :
    render false l.text vars extra = .ok (l.filled vars extra) := by
  rw [render, l.renderPieces_text vars extra]
  exact congrArg Except.ok String.ofList_toList

/-- The value of a placeholder may look like a placeholder. -/
example :
    let l : Layout := ⟨[{ literal := "x\x7d", body := " a " }], "\x7d", by decide +kernel⟩
    let vars : Fields := [("a", .text "\x7b\x7bb\x7d\x7d"), ("b", .text "no")]
    l.text = "x\x7d\x7b\x7b a \x7d\x7d\x7d" ∧
      (render false l.text vars none).toOption = some "x\x7d\x7b\x7bb\x7d\x7d\x7d" := by
  decide +kernel

end Rendering

end BootTree.Template

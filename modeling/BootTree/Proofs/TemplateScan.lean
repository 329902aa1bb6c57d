/-
  What a scan finds in any template, and where the two renderers part.

  1. **Pairs** — a text without a pair of the character, or the first pair with what is before and
     behind it (`exists_firstPair`).  Where no pair closes what the first one opens, nothing in the
     text is closed (`Unclosed.of_firstPair`).

  2. **Scans** — a template of any form: placeholders with the literal text before each, and a last
     text in which braces may be opened but none are closed (`Scan`).  Every template has a scan
     (`exists_scan`).

  3. **Rendering** — the last text is literal for both renderers (`renderPieces_of_unclosed`).  The
     lenient one goes through to the end; the strict one goes on as long as the placeholders have
     values, and stops at the first one that has none (`Scan.render_lenient`, `Scan.render_strict`,
     `Scan.render_stop`).
-/
import BootTree.Proofs.Template
import BootTree.Sync.Context

namespace BootTree.Template

/-! ## Pairs -/

/-- A text has no pair of the character, or there is a first one. -/
theorem exists_firstPair (c : Char) (cs : List Char) : ¬ [c, c] <:+: cs ∨
    ∃ before behind, cs = before ++ c :: c :: behind ∧ ¬ [c, c] <:+: before ∧
      before.getLast? ≠ some c := by
  induction cs with
  | nil => exact .inl (by simp)
  | cons d rest ih =>
    by_cases hhere : [c, c] <+: d :: rest
    · obtain ⟨behind, hbehind⟩ := hhere
      exact .inr ⟨[], behind, hbehind.symm, by simp, nofun⟩
    · rcases ih with hnone | ⟨before, behind, rfl, hnone, hlast⟩
      · refine .inl fun hpair => ?_
        rcases List.infix_cons_iff.mp hpair with hpair | hpair
        · exact hhere hpair
        · exact hnone hpair
      · -- the character in front makes no pair, neither within the text before nor at its end
        refine .inr ⟨d :: before, behind, rfl, fun hpair => ?_, ?_⟩
        · rcases List.infix_cons_iff.mp hpair with hpair | hpair
          · exact hhere (hpair.trans (List.prefix_append (d :: before) _))
          · exact hnone hpair
        · cases before with
          | nil =>
            intro hd
            rw [List.getLast?_singleton] at hd
            rw [Option.some.inj hd] at hhere
            exact hhere ⟨c :: behind, rfl⟩
          | cons e before => exact hlast

/-- No braces in the text are closed: none stand behind those that open. -/
def Unclosed (cs : List Char) : Prop :=
  ∀ before behind, cs = before ++ '\x7b' :: '\x7b' :: behind → ¬ ['\x7d', '\x7d'] <:+: behind

theorem Unclosed.of_pairless {cs : List Char} (h : ¬ ['\x7b', '\x7b'] <:+: cs) : Unclosed cs := by
  rintro before behind rfl
  exact absurd ⟨before, behind, by simp⟩ h

/-- No later pair opens more than the first one does. -/
theorem Unclosed.of_firstPair {before behind : List Char} (hnone : ¬ ['\x7b', '\x7b'] <:+: before)
    (hlast : before.getLast? ≠ some '\x7b') (hclosed : ¬ ['\x7d', '\x7d'] <:+: behind) :
    Unclosed (before ++ '\x7b' :: '\x7b' :: behind) := by
  intro before' behind' hsame hpair
  have hsuffix : behind' <:+ behind := by
    rcases List.append_eq_append_iff.mp hsame with ⟨more, rfl, hrest⟩ | ⟨more, rfl, hrest⟩
    · -- the other pair is the first one or comes later
      cases more with
      | nil => exact ⟨[], (List.cons.inj (List.cons.inj hrest).2).2.symm⟩
      | cons _ more =>
        obtain ⟨-, hmore⟩ := List.cons.inj hrest
        cases more with
        | nil => exact ⟨['\x7b'], (List.cons.inj hmore).2.symm⟩
        | cons _ more => exact ⟨more ++ ['\x7b', '\x7b'], by simp [(List.cons.inj hmore).2]⟩
    · -- it begins before the first one, which is then within the text before or at its end
      cases more with
      | nil => exact ⟨[], (List.cons.inj (List.cons.inj hrest).2).2⟩
      | cons e more =>
        obtain ⟨he, hmore⟩ := List.cons.inj hrest
        subst he
        cases more with
        | nil => exact absurd (by simp) hlast
        | cons e more =>
          have he : '\x7b' = e := (List.cons.inj hmore).1
          subst he
          exact absurd ⟨before', more, by simp⟩ hnone
  exact hclosed (hpair.trans hsuffix.isInfix)

/-! ## Scans -/

/-- A template as a scan takes it apart: closed placeholders in order, and the text behind the last
one. -/
structure Scan where
  stretches : List Stretch
  last : String
  last_unclosed : Unclosed last.toList

namespace Scan

/-- The template as it is written. -/
def text (scan : Scan) : String :=
  String.join (scan.stretches.map fun s => s.literal ++ s.placeholder) ++ scan.last

/-- The template with its placeholders replaced, as far as they have values. -/
def filled (vars : Fields) (extra : Option Fields) (scan : Scan) : String :=
  String.join (scan.stretches.map fun s => s.literal ++ s.filled vars extra) ++ scan.last

end Scan

/-- Every text can be scanned. -/
theorem exists_scan (cs : List Char) : ∃ scan : Scan, scan.text.toList = cs := by
  induction hlength : cs.length using Nat.strongRecOn generalizing cs with
  | ind n ih =>
  subst hlength
  rcases exists_firstPair '\x7b' cs with hnone | ⟨before, behind, rfl, hnone, hlast⟩
  · exact ⟨⟨[], String.ofList cs, by simpa using Unclosed.of_pairless hnone⟩, by simp [Scan.text]⟩
  · rcases exists_firstPair '\x7d' behind with hopen | ⟨body, rest, rfl, hbody, hbodyLast⟩
    · refine ⟨⟨[], String.ofList (before ++ '\x7b' :: '\x7b' :: behind), ?_⟩, by simp [Scan.text]⟩
      simpa using Unclosed.of_firstPair hnone hlast hopen
    · have hshorter : rest.length < (before ++ '\x7b' :: '\x7b' ::
          (body ++ '\x7d' :: '\x7d' :: rest)).length := by
        simp only [List.length_append, List.length_cons]
        omega
      obtain ⟨scan, hscan⟩ := ih _ hshorter rest rfl
      let stretch : Stretch := {
        literal := String.ofList before
        body := String.ofList body
        literal_pairless := by simpa using hnone
        literal_end := by simpa using hlast
        body_pairless := by simpa using hbody
        body_end := by simpa using hbodyLast }
      refine ⟨⟨stretch :: scan.stretches, scan.last, scan.last_unclosed⟩, ?_⟩
      rw [Scan.text] at hscan
      simp only [String.toList_append] at hscan
      simp [Scan.text, stretch, Stretch.placeholder, ← hscan]

/-! ## Rendering -/

/-- What a placeholder names. -/
def Stretch.name (s : Stretch) : String := String.ofList (Text.trim s.body.toList)

section Rendering

variable (vars : Fields) (extra : Option Fields)

/-- A text in which nothing is closed is literal. -/
theorem renderPieces_of_unclosed (strict : Bool) {cs : List Char} (h : Unclosed cs) :
    renderPieces strict vars extra (pieces none cs) = .ok cs := by
  have hend : renderPieces strict vars extra [] = .ok [] := rfl
  rcases exists_firstPair '\x7b' cs with hnone | ⟨before, behind, rfl, hnone, hlast⟩
  · have hliteral := renderPieces_literals vars extra strict cs hend
    rwa [List.append_nil, List.append_nil, ← pieces_of_pairless hnone] at hliteral
  · have hbefore : Free '\x7b' before ('\x7b' :: '\x7b' :: behind) :=
      ⟨hnone, fun hbrace => absurd hbrace hlast⟩
    have hbehind : Free '\x7d' behind [] := ⟨h before behind rfl, by simp⟩
    have hbody : pieces (some []) (behind ++ []) = pieces (some (behind.reverse ++ [])) [] :=
      pieces_body_append hbehind
    rw [List.append_nil, List.append_nil] at hbody
    rw [pieces_append hbefore, pieces.eq_2, hbody, pieces.eq_4, List.reverse_reverse]
    refine renderPieces_literals vars extra strict before ?_
    rw [renderPieces, hend]
    exact congrArg Except.ok (List.append_nil _)

variable {s : Stretch} {ps : List Piece}

/-- A placeholder with a value is filled, whatever comes behind it. -/
theorem renderPieces_hole_of_isSome (strict : Bool) (h : (s.value? vars extra).isSome = true) :
    renderPieces strict vars extra (.hole s.body.toList :: ps) = (do
      let tail ← renderPieces strict vars extra ps
      .ok ((s.filled vars extra).toList ++ tail)) := by
  obtain ⟨v, hv⟩ := Option.isSome_iff_exists.mp h
  rw [renderPieces, s.resolve_holeName, hv, Stretch.filled, hv]
  cases v <;> rfl

/-- Strict rendering stops at a placeholder without a value. -/
theorem renderPieces_hole_of_isNone (h : s.value? vars extra = none) :
    renderPieces true vars extra (.hole s.body.toList :: ps) = .error s.name := by
  rw [renderPieces, s.resolve_holeName, h]
  rfl

end Rendering

namespace Scan

variable (vars : Fields) (extra : Option Fields) (scan : Scan)

theorem toList_text_cons (s : Stretch) (rest : List Stretch) (last : String)
    (h : Unclosed last.toList) : (text ⟨s :: rest, last, h⟩).toList =
      s.literal.toList ++ (s.placeholder.toList ++ (text ⟨rest, last, h⟩).toList) := by
  simp [text]

theorem toList_filled_cons (s : Stretch) (rest : List Stretch) (last : String)
    (h : Unclosed last.toList) : (filled vars extra ⟨s :: rest, last, h⟩).toList =
      s.literal.toList ++ ((s.filled vars extra).toList ++
        (filled vars extra ⟨rest, last, h⟩).toList) := by
  simp [filled]

theorem renderPieces_lenient : renderPieces false vars extra (pieces none scan.text.toList) =
    .ok (scan.filled vars extra).toList := by
  obtain ⟨stretches, last, hlast⟩ := scan
  induction stretches with
  | nil => simpa [text, filled] using renderPieces_of_unclosed vars extra false hlast
  | cons s rest ih =>
    rw [toList_text_cons, toList_filled_cons, s.pieces_text]
    exact renderPieces_literals vars extra false _ (renderPieces_hole vars extra s ih)

/-- Strict rendering does not stop where all placeholders have values. -/
theorem renderPieces_strict (h : ∀ s ∈ scan.stretches, (s.value? vars extra).isSome = true) :
    renderPieces true vars extra (pieces none scan.text.toList) =
      .ok (scan.filled vars extra).toList := by
  obtain ⟨stretches, last, hlast⟩ := scan
  induction stretches with
  | nil => simpa [text, filled] using renderPieces_of_unclosed vars extra true hlast
  | cons s rest ih =>
    rw [toList_text_cons, toList_filled_cons, s.pieces_text]
    refine renderPieces_literals vars extra true _ ?_
    rw [renderPieces_hole_of_isSome vars extra true (h s List.mem_cons_self),
      ih fun s' hs' => h s' (List.mem_cons_of_mem s hs')]
    rfl

/-- It stops at the first placeholder that has none. -/
theorem renderPieces_stop {before after : List Stretch} {s : Stretch}
    (hsplit : scan.stretches = before ++ s :: after)
    (hbefore : ∀ b ∈ before, (b.value? vars extra).isSome = true)
    (hs : s.value? vars extra = none) :
    renderPieces true vars extra (pieces none scan.text.toList) = .error s.name := by
  obtain ⟨stretches, last, hlast⟩ := scan
  dsimp only at hsplit
  subst hsplit
  induction before with
  | nil =>
    rw [List.nil_append, toList_text_cons, s.pieces_text, renderPieces_append,
      renderPieces_hole_of_isNone vars extra hs]
    rfl
  | cons b rest ih =>
    rw [List.cons_append, toList_text_cons, b.pieces_text, renderPieces_append,
      renderPieces_hole_of_isSome vars extra true (hbefore b List.mem_cons_self),
      ih fun b' hb' => hbefore b' (List.mem_cons_of_mem b hb')]
    rfl

/-- Where a placeholder has no value there is a first one. -/
theorem exists_first_unknown {s : Stretch} (hmem : s ∈ scan.stretches)
    (hs : s.value? vars extra = none) : ∃ before s after, scan.stretches = before ++ s :: after ∧
      (∀ b ∈ before, (b.value? vars extra).isSome = true) ∧ s.value? vars extra = none := by
  cases hfind : scan.stretches.find? fun s => (s.value? vars extra).isNone with
  | none =>
    have hall := List.find?_eq_none.mp hfind s hmem
    simp [hs] at hall
  | some first =>
    obtain ⟨hfirst, before, after, hsplit, hbefore⟩ := List.find?_eq_some_iff_append.mp hfind
    refine ⟨before, first, after, hsplit, fun b hb => ?_, Option.isNone_iff_eq_none.mp hfirst⟩
    simpa using hbefore b hb

/-- Without values nothing is replaced. -/
theorem filled_eq_text (h : ∀ s ∈ scan.stretches, s.value? vars extra = none) :
    scan.filled vars extra = scan.text := by
  have hkeep : ∀ s ∈ scan.stretches,
      s.literal ++ s.filled vars extra = s.literal ++ s.placeholder := by
    intro s hs
    rw [Stretch.filled, h s hs]
  rw [filled, text, List.map_congr_left hkeep]

theorem render_lenient : render false scan.text vars extra = .ok (scan.filled vars extra) := by
  rw [render, scan.renderPieces_lenient]
  exact congrArg Except.ok String.ofList_toList

theorem render_strict (h : ∀ s ∈ scan.stretches, (s.value? vars extra).isSome = true) :
    render true scan.text vars extra = .ok (scan.filled vars extra) := by
  rw [render, scan.renderPieces_strict vars extra h]
  exact congrArg Except.ok String.ofList_toList

theorem render_stop {before after : List Stretch} {s : Stretch}
    (hsplit : scan.stretches = before ++ s :: after)
    (hbefore : ∀ b ∈ before, (b.value? vars extra).isSome = true)
    (hs : s.value? vars extra = none) : render true scan.text vars extra = .error s.name := by
  rw [render, scan.renderPieces_stop vars extra hsplit hbefore hs]
  rfl

/-- Strict rendering that goes through to the end has found a value for every placeholder. -/
theorem isSome_of_render {text : String} (h : render true scan.text vars extra = .ok text) :
    ∀ s ∈ scan.stretches, (s.value? vars extra).isSome = true := by
  intro s hmem
  rw [Option.isSome_iff_ne_none]
  intro hnone
  obtain ⟨before, first, after, hsplit, hbefore, hfirst⟩ :=
    scan.exists_first_unknown vars extra hmem hnone
  rw [scan.render_stop vars extra hsplit hbefore hfirst] at h
  cases h

end Scan

/-- Of any template, the closed placeholders that are met from left to right are those of its scan.

The lenient renderer always gives a text, and leaves the template as it is where no placeholder has a
value.  The strict renderer gives a text exactly if every placeholder has a value, and then it is the
text of the lenient one.  Otherwise it refuses the template, with an error that has the whole of it and
the name of the first placeholder without a value.  A template that opens braces without closing any
is literal text for both. -/
theorem render_strict_lenient (template : String) (vars : Fields) (extra : Option Fields) :
    (∃ scan : Scan, scan.text = template) ∧
    ∀ scan : Scan, scan.text = template →
      render false template vars extra = .ok (scan.filled vars extra) ∧
      ((∀ s ∈ scan.stretches, s.value? vars extra = none) →
        render false template vars extra = .ok template) ∧
      ((∃ text, render true template vars extra = .ok text) ↔
        ∀ s ∈ scan.stretches, (s.value? vars extra).isSome = true) ∧
      (∀ text, render true template vars extra = .ok text →
        render false template vars extra = .ok text) ∧
      (∀ before s after, scan.stretches = before ++ s :: after →
        (∀ b ∈ before, (b.value? vars extra).isSome = true) → s.value? vars extra = none →
          (render true template vars extra).mapError (SyncError.unknownVariable template) =
            .error (.unknownVariable template s.name)) ∧
      (Unclosed template.toList → ∀ strict, render strict template vars extra = .ok template) := by
  obtain ⟨found, hfound⟩ := exists_scan template.toList
  refine ⟨⟨found, String.toList_inj.mp hfound⟩, ?_⟩
  rintro scan rfl
  refine ⟨scan.render_lenient vars extra, fun hnone => ?_,
    ⟨?_, fun h => ⟨_, scan.render_strict vars extra h⟩⟩, fun text htext => ?_,
    fun before s after hsplit hbefore hs => ?_, fun hopen strict => ?_⟩
  · rw [scan.render_lenient, scan.filled_eq_text vars extra hnone]
  · rintro ⟨text, htext⟩
    exact scan.isSome_of_render vars extra htext
  · have hfilled := scan.render_strict vars extra (scan.isSome_of_render vars extra htext)
    rw [scan.render_lenient, ← hfilled, htext]
  · rw [scan.render_stop vars extra hsplit hbefore hs]
    rfl
  · rw [render, renderPieces_of_unclosed vars extra strict hopen]
    exact congrArg Except.ok String.ofList_toList

end BootTree.Template

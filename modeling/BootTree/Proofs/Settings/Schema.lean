/-
  What a normalized settings document holds.

  A schema evaluates its fields in turn and inserts each value under the name of its field.  As long
  as no two fields share a name, nothing that is inserted later replaces an earlier value, so the
  result holds for every field what the field evaluates to (`get?_of_normalize`).
-/
import BootTree.Proofs.Fields
import BootTree.Settings.Schema

namespace BootTree

/-! ## Evaluating all fields -/

namespace Schema

variable {document : Fields}

/-- Evaluating fields leaves what stands under other names. -/
theorem get?_evaluateAll_of_not_mem {name : String} {fields : List Field} (done : Fields)
    (h : name ∉ fields.map Field.name) :
    (evaluateAll document done fields).1.get? name = done.get? name := by
  induction fields generalizing done with
  | nil => rfl
  | cons field rest ih =>
    simp only [List.map_cons, List.mem_cons, not_or] at h
    rw [evaluateAll]
    split
    · rw [ih _ h.2, Fields.get?_insert, if_neg h.1]
    · exact ih done h.2

/-- A field without a violation has its value in the result. -/
theorem get?_evaluateAll {fields : List Field} (done : Fields)
    (hnames : (fields.map Field.name).Nodup) {field : Field} (hfield : field ∈ fields) {v : Value}
    (hv : field.evaluate document = .ok v) :
    (evaluateAll document done fields).1.get? field.name = some v := by
  induction fields generalizing done with
  | nil => cases hfield
  | cons first rest ih =>
    obtain ⟨hfirst, hrest⟩ := List.nodup_cons.mp hnames
    rw [evaluateAll]
    rcases List.mem_cons.mp hfield with rfl | hmem
    · rw [hv]
      dsimp only
      rw [get?_evaluateAll_of_not_mem _ hfirst, Fields.get?_insert, if_pos rfl]
    · split
      · exact ih _ hrest hmem
      · exact ih done hrest hmem

/-- There is a violation for every field that has one. -/
theorem evaluateAll_violations (done : Fields) (fields : List Field) :
    (evaluateAll document done fields).2 =
      fields.filterMap fun field => match field.evaluate document with
        | .ok _ => none
        | .error violation => some violation := by
  induction fields generalizing done with
  | nil => rfl
  | cons field rest ih =>
    rw [evaluateAll, List.filterMap_cons]
    cases h : field.evaluate document with
    | ok v => exact ih _
    | error violation => simp [ih]

/-- A normalized document holds for every field what the field evaluates to. -/
theorem get?_of_normalize {schema : Schema} {result : Fields}
    (h : schema.normalize document = .ok result) (hnames : (schema.fields.map Field.name).Nodup)
    {field : Field} (hfield : field ∈ schema.fields) :
    ∃ v, field.evaluate document = .ok v ∧ result.get? field.name = some v := by
  rw [normalize] at h
  dsimp only at h
  split at h
  · next hnone =>
    have hviolations := (List.append_eq_nil_iff.mp hnone).2
    rw [evaluateAll_violations, List.filterMap_eq_nil_iff] at hviolations
    cases hv : field.evaluate document with
    | error violation =>
      have := hviolations field hfield
      rw [hv] at this
      cases this
    | ok v =>
      refine ⟨v, rfl, ?_⟩
      rw [← Except.ok.inj h]
      exact get?_evaluateAll [] hnames hfield hv
  · cases h

end Schema

end BootTree

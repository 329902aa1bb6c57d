/-
  Saving a settings document and loading it again.

  1. **Loading and saving** — `loadDocument_eq_ok` and `saveDocument_eq_ok` say through which texts a
     document is read and written in a format.

  2. **JSON documents** — a document that was loaded from a JSON file can be printed and read again,
     if its numbers are whole (`Json.read_pretty_of_load`): nothing that can be read is too deep, too
     large or twice named for the text it is printed as.

  So saving loses nothing, on whatever tree and under whatever JSON path it is done.  A save that
  fails leaves the file that it should have replaced.
-/
import BootTree.Proofs.Json.RoundTrip
import BootTree.Proofs.Settings.Effects

namespace BootTree

variable {t t' : FileTree} {p q : Path} {document : Fields} {format : Format}

/-! ## Loading and saving -/

/-- The extension of the path stands for JSON, in any letter case. -/
def Path.IsJson (p : Path) : Prop :=
  ∃ extension, p.extension? = some extension ∧ Text.lowerAscii extension = "json"

theorem Path.IsJson.ofPath (h : p.IsJson) : Format.ofPath p = .ok .json := by
  obtain ⟨extension, hextension, hlower⟩ := h
  have hformat : Format.ofExtension? extension = some .json := by
    rw [Format.ofExtension?, hlower]
    rfl
  simp only [Format.ofPath, hextension, Option.getD_some, hformat]

/-- A document is loaded where the text at the path is a mapping in its format. -/
theorem loadDocument_eq_ok (hformat : Format.ofPath p = .ok format) :
    t.loadDocument p = .ok document ↔ ∃ text, t.textAt p = .ok text ∧
      (format.parse text).bind Source.value? = some (.object document) := by
  constructor
  · intro h
    obtain ⟨v, hload, hv⟩ := bind_eq_ok.mp h
    obtain ⟨format', hformat', hload⟩ := bind_eq_ok.mp (mapError_eq_ok.mp hload)
    obtain ⟨text, htext, hload⟩ := bind_eq_ok.mp hload
    rw [hformat] at hformat'
    cases hformat'
    refine ⟨text, htext, ?_⟩
    split at hload
    · next w hw =>
      cases hload
      rw [hw]
      split at hv
      · cases hv
        rfl
      · cases hv
    · cases hload
  · rintro ⟨text, htext, hread⟩
    refine bind_eq_ok.mpr ⟨.object document, mapError_eq_ok.mpr ?_, rfl⟩
    refine bind_eq_ok.mpr ⟨format, hformat, bind_eq_ok.mpr ⟨text, htext, ?_⟩⟩
    rw [hread]

/-- A document is saved where its text in the format can be written. -/
theorem saveDocument_eq_ok {r : Unit} (hformat : Format.ofPath p = .ok format) :
    saveDocument p document t = (.ok r, t') ↔
      ∃ text, format.print document = some text ∧ writeAtomic p text.toUTF8 t = (.ok r, t') := by
  rw [saveDocument, Change.mapError_eq_ok, save, Change.inspect_bind_eq_ok]
  constructor
  · rintro ⟨format', hformat', hwrite⟩
    rw [hformat] at hformat'
    cases hformat'
    cases htext : format.print document with
    | none =>
      rw [htext] at hwrite
      cases (Change.inspect_eq.mp hwrite).1
    | some text =>
      rw [htext] at hwrite
      exact ⟨text, rfl, hwrite⟩
  · rintro ⟨text, htext, hwrite⟩
    refine ⟨format, hformat, ?_⟩
    rw [htext]
    exact hwrite

/-- A save that fails leaves every file but the temporary one as it was, and so the one that the path
leads to. -/
theorem keepsFiles_of_saveDocument_error {e : SettingsError}
    (h : saveDocument p document t = (.error e, t')) :
    t.KeepsFiles (t.place (temporaryPath t.process p)) t' ∧
      ∀ old, t.read p.text = .ok old → t'.read p.text = .ok old := by
  obtain ⟨e₁, hsave, -⟩ := Change.mapError_eq_error.mp h
  have hsame : t.KeepsFiles (t.place (temporaryPath t.process p)) t :=
    .of_changesOnly (.refl _ _) (.refl _)
  rcases Change.inspect_bind_eq_error.mp hsave with ⟨-, rfl⟩ | ⟨format, -, hprint⟩
  · exact ⟨hsame, fun _ => id⟩
  · cases htext : format.print document with
    | none =>
      rw [htext] at hprint
      obtain ⟨-, rfl⟩ := Change.inspect_eq.mp hprint
      exact ⟨hsame, fun _ => id⟩
    | some text =>
      rw [htext] at hprint
      have hbroken := brokenOff_of_writeAtomic_error hprint
      exact ⟨hbroken.keepsFiles, fun old => hbroken.read⟩

/-! ## JSON documents -/

/-- What was loaded from a JSON file is what its own text says, if its numbers are whole. -/
theorem Json.read_pretty_of_load (hp : p.IsJson) (hload : t.loadDocument p = .ok document)
    (hwhole : (Value.object document).WholeNumbers) :
    Json.read (Json.pretty (.object document)) = some (.object document) := by
  obtain ⟨text, -, hread⟩ := (loadDocument_eq_ok hp.ofPath).mp hload
  obtain ⟨s, hparse, hvalue⟩ := Option.bind_eq_some_iff.mp hread
  obtain ⟨hkeys, hfits⟩ := Json.within_of_parse hparse _ hvalue
  exact Json.read_pretty (hfits hwhole) hkeys

/-- Let a document whose numbers are integers be loaded from a JSON file.  Saving it on any tree,
under any path with an extension for JSON, loses nothing: where the save succeeds, loading from that
path gives the document again, with the same keys in the same order at every level.  Where it fails,
every file but the temporary one is as it was, and so is the one at the path, if there is one. -/
theorem saveDocument_loses_nothing (hp : p.IsJson) (hload : t.loadDocument p = .ok document)
    (hwhole : (Value.object document).WholeNumbers) (hq : q.IsJson) (u : FileTree) :
    ∃ r u', saveDocument q document u = (r, u') ∧
      (r = .ok () → u'.loadDocument q = .ok document) ∧
      ∀ e, r = .error e →
        u.KeepsFiles (u.place (temporaryPath u.process q)) u' ∧
        ∀ old, u.read q.text = .ok old → u'.read q.text = .ok old := by
  have hagain := Json.read_pretty_of_load hp hload hwhole
  rcases hrun : saveDocument q document u with ⟨r, u'⟩
  refine ⟨r, u', rfl, ?_, ?_⟩
  · rintro rfl
    obtain ⟨text, hprint, hwrite⟩ := (saveDocument_eq_ok hq.ofPath).mp hrun
    -- the text that was written is the one in which the document is printed
    cases hprint
    have htext := textAt_of_read (stored_of_writeAtomic_ok hwrite).read
    exact (loadDocument_eq_ok hq.ofPath).mpr ⟨_, htext, hagain⟩
  · rintro e rfl
    exact keepsFiles_of_saveDocument_error hrun

/-- Settings as JSON, with a quotation mark and a control character in a key, and the numbers that
are the least and the greatest of 64 bits. -/
def extremeSettings : FileTree :=
  FileTree.empty [] "16" |>.put "s.json" [] (.file (String.toUTF8
    "\x7b\"b\":\x7b\"\":[],\"é\\u0001\\\"\":-9223372036854775808\x7d,\"a\":18446744073709551615\x7d"))

def extremeDocument : Fields :=
  [("b", .object [("", .list []), ("é\x01\"", .number (.int (-9223372036854775808)))]),
    ("a", .number (.int 18446744073709551615))]

/-- They are saved under an extension in capitals, and loaded from there as they were. -/
theorem saveDocument_extremeSettings :
    extremeSettings.loadDocument ⟨"s.json"⟩ = .ok extremeDocument ∧
    ∃ u, saveDocument ⟨"copy.JSON"⟩ extremeDocument extremeSettings = (.ok (), u) ∧
      u.loadDocument ⟨"copy.JSON"⟩ = .ok extremeDocument := by
  have hp : Path.IsJson ⟨"s.json"⟩ := ⟨"json", by decide +kernel, by decide +kernel⟩
  have hq : Path.IsJson ⟨"copy.JSON"⟩ := ⟨"JSON", by decide +kernel, by decide +kernel⟩
  have hload : extremeSettings.loadDocument ⟨"s.json"⟩ = .ok extremeDocument := by decide +kernel
  have hwhole : (Value.object extremeDocument).WholeNumbers := by
    refine .object fun m hm => ?_
    simp only [extremeDocument, List.mem_cons, List.not_mem_nil, or_false] at hm
    rcases hm with rfl | rfl
    · refine .object fun m hm => ?_
      simp only [List.mem_cons, List.not_mem_nil, or_false] at hm
      rcases hm with rfl | rfl
      · exact .list (List.forall_mem_nil _)
      · exact .number _
    · exact .number _
  have hsaved : (saveDocument ⟨"copy.JSON"⟩ extremeDocument extremeSettings).1 = .ok () := by
    decide +kernel
  obtain ⟨r, u, hrun, hok, -⟩ := saveDocument_loses_nothing hp hload hwhole hq extremeSettings
  rw [hrun] at hsaved
  obtain rfl : r = .ok () := hsaved
  exact ⟨hload, u, hrun, hok rfl⟩

end BootTree

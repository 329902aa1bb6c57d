/-
  Everything that migrating a document to a version can do to the files.

  1. **Renaming** — where the modules are renamed, the module configuration has its old text with the
     names in the newer form (`ModulesRenamed`); the text without a name of the older form is its own
     renaming (`rename_eq_self`).  Where the file cannot be read or written, it reads as before
     (`ModulesKept`).

  2. **Refusals** — the version is unknown, or the document does not conform to it
     (`SettingsError.IsRefusal`).  This comes before any file is looked at, so a refusal is the same
     on every tree and leaves it (`refused_or_conforms`).

  3. **Versions** — only the later version gets to renaming; the document that it gives is the one
     that the earlier version gives (`migrateTo_effects`).
-/
import BootTree.Proofs.Files.Atomic
import BootTree.Proofs.Settings.Migration

namespace BootTree

/-! ## Texts -/

namespace ModuleNames

/-- Where nothing is counted, nothing is replaced. -/
theorem renameFrom_of_count_eq_zero {inWord : Bool} {cs : List Char}
    (h : (renameFrom inWord 0 cs).2 = 0) : (renameFrom inWord 0 cs).1 = cs := by
  induction cs generalizing inWord with
  | nil => rfl
  | cons c rest ih =>
    rw [renameFrom] at h ⊢
    split at h
    · -- a replacement would have been counted
      cases h
    · have hrest : (renameFrom (Text.isWord c) 0 rest).2 = 0 := h
      exact congrArg (c :: ·) (ih hrest)

theorem rename_eq_self {content : String} (h : (rename content).2 = 0) :
    (rename content).1 = content := by
  have hchars : (renameFrom false 0 content.toList).1 = content.toList :=
    renameFrom_of_count_eq_zero h
  show String.ofList (renameFrom false 0 content.toList).1 = content
  rw [hchars, String.ofList_toList]

end ModuleNames

/-- A file with the bytes of a text has this text. -/
theorem textAt_of_read {t : FileTree} {p : Path} {content : String}
    (h : t.read p.text = .ok content.toUTF8) : t.textAt p = .ok content := by
  have hvalid : String.fromUTF8? content.toUTF8 = some content := by
    rw [String.fromUTF8?, String.toUTF8_eq_toByteArray, dif_pos content.isValidUTF8]
    rfl
  rw [FileTree.textAt, mapError_eq_ok, FileTree.readText, bind_eq_ok]
  refine ⟨content.toUTF8, h, ?_⟩
  rw [hvalid]

/-! ## Renaming -/

/-- What renaming the modules in a file leaves where it succeeds: the file has its text with the
names in the newer form, and every other file but the temporary one beside it is as it was.  Where
no name is of the older form, nothing is done at all. -/
structure ModulesRenamed (p : Path) (t t' : FileTree) : Prop where
  text : ∃ content, t.textAt p = .ok content ∧
    t'.textAt p = .ok (ModuleNames.rename content).1 ∧
    ((ModuleNames.rename content).2 = 0 → t' = t)
  directories : FileTree.HasDirectories t t'
  others : ∀ q, q ≠ t.place p.text → q ≠ t.place (temporaryPath t.process p) →
    t'.bytesAt q = t.bytesAt q

/-- What renaming the modules in a file leaves where it fails: the file reads as before, and every
file but the temporary one beside it is as it was. -/
structure ModulesKept (p : Path) (t t' : FileTree) : Prop where
  read : t'.read p.text = t.read p.text
  bytes : t'.bytesAt (t.place p.text) = t.bytesAt (t.place p.text)
  others : t.KeepsFiles (t.place (temporaryPath t.process p)) t'

section Renaming

variable {p : Path} {t t' : FileTree} {n : Nat} {e : FileError}

theorem modulesRenamed_of_renameModulesIn (h : renameModulesIn p t = (.ok n, t')) :
    ModulesRenamed p t t' := by
  obtain ⟨content, htext, rfl, ⟨hnone, rfl⟩ | ⟨hsome, hwrite⟩⟩ := renameModulesIn_eq_ok h
  · have hrenamed := (ModuleNames.rename_eq_self hnone).symm ▸ htext
    exact ⟨⟨content, htext, hrenamed, fun _ => rfl⟩, .refl _, fun _ _ _ => rfl⟩
  · have hstored := stored_of_writeAtomic_ok hwrite
    have hrenamed := textAt_of_read hstored.read
    refine ⟨⟨content, htext, hrenamed, fun hnone => ?_⟩, hstored.directories, fun q hq hq' => ?_⟩
    · omega
    · exact hstored.changesOnly.bytesAt (by simp [hq, hq'])

theorem modulesKept_of_renameModulesIn (h : renameModulesIn p t = (.error e, t')) :
    ModulesKept p t t' := by
  have hbytes := bytesAt_of_renameModulesIn_error h
  rcases renameModulesIn_eq_error h with rfl | ⟨content, htext, hwrite⟩
  · exact ⟨rfl, rfl, .of_changesOnly (.refl _ _) (.refl _)⟩
  · -- the file could be read, so that the path leads to it still
    obtain ⟨old, hold, -⟩ := bind_eq_ok.mp (mapError_eq_ok.mp htext)
    have hbroken := brokenOff_of_writeAtomic_error hwrite
    exact ⟨(hbroken.read hold).trans hold.symm, hbytes, hbroken.keepsFiles⟩

end Renaming

/-! ## Refusals -/

/-- The document is refused, before any file is looked at. -/
def SettingsError.IsRefusal : SettingsError → Prop
  | .migration _ _ => True
  | .unknownVersion _ => True
  | _ => False

/-- Whether a document is refused depends on the version and the document alone; one that is not
conforms to the version. -/
theorem refused_or_conforms (version : String) (document : Fields) :
    (∃ e : SettingsError, e.IsRefusal ∧ ∀ p u, migrateTo version p document u = (.error e, u)) ∨
    ∃ v normalized, version = SettingsVersion.text v ∧
      v.schema.normalize document = .ok normalized := by
  cases hversion : SettingsVersion.ofText? version with
  | none =>
    have hrefused := fun p u => migrateTo_of_unknown hversion p document u
    exact .inl ⟨.unknownVersion version, trivial, hrefused⟩
  | some v =>
    obtain rfl := SettingsVersion.ofText?_eq_some.mp hversion
    cases hnormal : v.schema.normalize document with
    | error violations =>
      exact .inl ⟨.migration v.text violations, trivial, migrateTo_of_violations v hnormal⟩
    | ok normalized => exact .inr ⟨v, normalized, rfl, hnormal⟩

/-! ## Versions -/

/-- Migrating a document either refuses it, which the version and the document alone decide and which
leaves the tree; or it gives the document as the earlier version does.  The earlier version never
changes the tree.  The later one has also renamed the modules then, or else has met an error of the
files, which leaves the module configuration as it was. -/
theorem migrateTo_effects (version : String) (modulesConf : Path) (document : Fields)
    (t : FileTree) : ∃ r t', migrateTo version modulesConf document t = (r, t') ∧
      (∀ e, r = .error e → e.IsRefusal →
        t' = t ∧ ∀ p u, migrateTo version p document u = (.error e, u)) ∧
      (version = "3.0.0" → t' = t) ∧
      (∀ migrated, r = .ok migrated → version = "3.0.1" →
        (∀ p u, migrateTo "3.0.0" p document u = (.ok migrated, u)) ∧
        ModulesRenamed modulesConf t t') ∧
      ∀ e, r = .error e → ¬ e.IsRefusal →
        version = "3.0.1" ∧ (∃ cause, e = .file cause) ∧ ModulesKept modulesConf t t' := by
  rcases refused_or_conforms version document with
    ⟨e, hrefusal, hrefused⟩ | ⟨v, normalized, rfl, hnormal⟩
  · refine ⟨_, _, hrefused modulesConf t, ?_, fun _ => rfl, nofun, ?_⟩
    · rintro e' ⟨⟩ -
      exact ⟨rfl, hrefused⟩
    · rintro e' ⟨⟩ hnot
      exact absurd hrefusal hnot
  · cases v with
    | first =>
      have hrun := migrateTo_first hnormal modulesConf t
      refine ⟨_, _, hrun, nofun, fun _ => rfl, ?_, nofun⟩
      intro migrated _ hlater
      exact absurd hlater (by decide)
    | dottedModules =>
      have hrun := migrateTo_dottedModules hnormal modulesConf t
      -- the schemas differ in nothing but the text of the version
      have hfirst := migrateTo_first (show SettingsVersion.first.schema.normalize document =
        .ok normalized from hnormal)
      rcases hrename : renameModulesIn modulesConf t with ⟨r, t'⟩
      rw [hrename] at hrun
      cases r with
      | ok n =>
        refine ⟨_, _, hrun, nofun, fun hearlier => absurd hearlier (by decide), ?_, nofun⟩
        rintro migrated ⟨⟩ -
        exact ⟨hfirst, modulesRenamed_of_renameModulesIn hrename⟩
      | error cause =>
        refine ⟨_, _, hrun, ?_, fun hearlier => absurd hearlier (by decide), nofun, ?_⟩
        · rintro e ⟨⟩ hrefusal
          exact hrefusal.elim
        · rintro e ⟨⟩ -
          exact ⟨rfl, ⟨cause, rfl⟩, modulesKept_of_renameModulesIn hrename⟩

/-- A module configuration that is no text is an error of the files, and stays as it is. -/
example :
    let t := FileTree.empty [] "9" |>.put "m.conf" [] (.file ⟨#[0xff]⟩)
    let document : Fields := [("server", .text "s"), ("next_server", .text "n")]
    (migrateTo "3.0.1" ⟨"m.conf"⟩ document t).1 = .error (.file (.io "m.conf" .notText)) ∧
      (migrateTo "3.0.1" ⟨"m.conf"⟩ document t).2.bytesAt ["m.conf"] = some ⟨#[0xff]⟩ := by
  decide +kernel

end BootTree

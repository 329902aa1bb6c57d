/-
  What migrating a settings document does to the module configuration.

  Renaming makes the text longer (`ModuleNames.rename_ne`), so the bytes of the module configuration
  change exactly where a name is renamed.  A document is loaded, it is migrated, which renames the
  modules last, and then it is saved.  Where loading or migrating fails, the module configuration is
  as it was (`bytesAt_of_migrateUnsaved_error`).  But where the save fails, the modules are renamed
  already: `migrateFile_error_changes_iff` says exactly when this happens.  A document without a
  `default_kickstart` is migrated to one with a null in it, which TOML cannot express
  (`print_toml_of_normalize`), so saving it as TOML always fails (`migrateFile_toml_error`).
-/
import BootTree.Proofs.Files.Write
import BootTree.Proofs.Settings.Schema
import BootTree.Settings.Migration

namespace BootTree

/-! ## Renaming -/

namespace ModuleNames

/-- The newer forms are longer than the older ones. -/
theorem renames_longer : ∀ r ∈ renames, 0 < r.1.length ∧ r.1.length < r.2.length := by
  decide

/-- Every renamed name makes the text longer. -/
theorem length_renameFrom (inWord : Bool) (skip : Nat) (cs : List Char) :
    cs.length + (renameFrom inWord skip cs).2 ≤ (renameFrom inWord skip cs).1.length + skip := by
  induction cs generalizing inWord skip with
  | nil => simp [renameFrom]
  | cons c rest ih =>
    cases skip with
    | succ skip =>
      have := ih (Text.isWord c) skip
      simp only [renameFrom, List.length_cons]
      omega
    | zero =>
      rw [renameFrom]
      split
      · next old new hlegacy =>
        have hlonger : 0 < old.length ∧ old.length < new.length := by
          split at hlegacy
          · cases hlegacy
          · exact renames_longer (old, new) (List.mem_of_find?_eq_some hlegacy)
        have := ih (Text.isWord c) (old.length - 1)
        simp only [List.length_cons, List.length_append]
        omega
      · have := ih (Text.isWord c) 0
        simp only [List.length_cons]
        omega

/-- A text in which a name is renamed becomes another one. -/
theorem rename_ne {content : String} (h : 0 < (rename content).2) :
    (rename content).1 ≠ content := by
  intro he
  have hlength := length_renameFrom false 0 content.toList
  have htext : (renameFrom false 0 content.toList).1 = content.toList := by
    have := congrArg String.toList he
    simpa [rename] using this
  have hcount : 0 < (renameFrom false 0 content.toList).2 := h
  rw [htext] at hlength
  omega

end ModuleNames

/-! ## The module configuration -/

/-- The text of a file is the one that its bytes are. -/
theorem bytesAt_of_textAt {t : FileTree} {p : Path} {content : String}
    (h : t.textAt p = .ok content) : t.bytesAt (t.place p.text) = some content.toUTF8 := by
  obtain ⟨bytes, hread, h⟩ := bind_eq_ok.mp (mapError_eq_ok.mp h)
  rw [FileTree.bytesAt_place_of_read hread]
  split at h
  · next s hs =>
    rw [← Except.ok.inj h]
    unfold String.fromUTF8? at hs
    split at hs
    · rw [← Option.some.inj hs]
      rfl
    · cases hs
  · cases h

/-- The temporary file of a file that can be read is another one. -/
theorem place_temporaryPath_ne_of_textAt {t : FileTree} {p : Path} {content : String}
    (h : t.textAt p = .ok content) : t.place (temporaryPath t.process p) ≠ t.place p.text := by
  obtain ⟨bytes, hread, -⟩ := bind_eq_ok.mp (mapError_eq_ok.mp h)
  have hentry : t.entry p.text = .ok (.file bytes) := by
    rw [FileTree.read] at hread
    split at hread
    · next c hc => rw [hc, Except.ok.inj hread]
    · cases hread
    · cases hread
  obtain ⟨name, before, hb, hn⟩ := FileTree.backward_of_entry_file hentry
  exact FileTree.place_temporaryPath_ne hb hn

/-- Where renaming succeeds, the file was read, and written if a name in it is of the older form. -/
theorem renameModulesIn_eq_ok {p : Path} {t t' : FileTree} {n : Nat}
    (h : renameModulesIn p t = (.ok n, t')) :
    ∃ content, t.textAt p = .ok content ∧ n = (ModuleNames.rename content).2 ∧
      (n = 0 ∧ t' = t ∨
        0 < n ∧ writeText p (ModuleNames.rename content).1 t = (.ok (), t')) := by
  obtain ⟨content, htext, hrest⟩ := Change.inspect_bind_eq_ok.mp h
  dsimp only at hrest
  by_cases hcount : 0 < (ModuleNames.rename content).2
  · rw [if_pos hcount] at hrest
    obtain ⟨u, t₂, hwrite, hn⟩ := run_bind_eq_ok.mp hrest
    cases hn
    exact ⟨content, htext, rfl, .inr ⟨hcount, hwrite⟩⟩
  · rw [if_neg hcount] at hrest
    cases hrest
    exact ⟨content, htext, rfl, .inl ⟨by omega, rfl⟩⟩

/-- Where renaming fails, nothing was done, or the file was read and could not be written. -/
theorem renameModulesIn_eq_error {p : Path} {t t' : FileTree} {e : FileError}
    (h : renameModulesIn p t = (.error e, t')) :
    t' = t ∨ ∃ content, t.textAt p = .ok content ∧
      writeText p (ModuleNames.rename content).1 t = (.error e, t') := by
  rcases Change.inspect_bind_eq_error.mp h with ⟨-, ht⟩ | ⟨content, htext, hrest⟩
  · exact .inl ht
  · dsimp only at hrest
    by_cases hcount : 0 < (ModuleNames.rename content).2
    · rw [if_pos hcount] at hrest
      rcases run_bind_eq_error.mp hrest with hwrite | ⟨u, t₂, -, hn⟩
      · exact .inr ⟨content, htext, hwrite⟩
      · cases hn
    · rw [if_neg hcount] at hrest
      cases hrest

/-- Where renaming fails, the module configuration has its bytes. -/
theorem bytesAt_of_renameModulesIn_error {p : Path} {t t' : FileTree} {e : FileError}
    (h : renameModulesIn p t = (.error e, t')) :
    t'.bytesAt (t.place p.text) = t.bytesAt (t.place p.text) := by
  rcases renameModulesIn_eq_error h with rfl | ⟨content, htext, hwrite⟩
  · rfl
  · -- what may be left behind is the temporary file, which is another one
    rcases bytesAt_of_writeAtomic_error hwrite with hsame | hleft
    · exact hsame _
    · rw [hleft, if_neg (place_temporaryPath_ne_of_textAt htext).symm]

/-- Relative paths and temporary names mean the same after renaming. -/
theorem base_of_renameModulesIn_ok {p : Path} {t t' : FileTree} {n : Nat}
    (h : renameModulesIn p t = (.ok n, t')) : t'.base = t.base ∧ t'.process = t.process := by
  obtain ⟨content, -, -, ⟨-, rfl⟩ | ⟨-, hwrite⟩⟩ := renameModulesIn_eq_ok h
  · exact ⟨rfl, rfl⟩
  · exact base_of_writeAtomic hwrite

/-! ## Migrating -/

theorem SettingsVersion.ofText?_eq_some {s : String} {v : SettingsVersion} :
    SettingsVersion.ofText? s = some v ↔ s = v.text := by
  rw [SettingsVersion.ofText?, SettingsVersion.all, List.find?_cons, List.find?_singleton]
  constructor
  · intro h
    split at h
    · next hs => rw [← Option.some.inj h, of_decide_eq_true hs]
    · split at h
      · next hs => rw [← Option.some.inj h, of_decide_eq_true hs]
      · cases h
  · rintro rfl
    cases v <;> decide

/-- Migrating checks the document first; then the later version renames the modules, which may
fail. -/
theorem migrateTo_text (v : SettingsVersion) (modulesConf : Path) (document : Fields)
    (t : FileTree) : migrateTo v.text modulesConf document t =
      match v.schema.normalize document with
      | .error violations => (.error (.migration v.text violations), t)
      | .ok normalized =>
        match v with
        | .first => (.ok normalized, t)
        | .dottedModules =>
          match renameModulesIn modulesConf t with
          | (.ok _, t') => (.ok normalized, t')
          | (.error e, t') => (.error (.file e), t') := by
  rw [migrateTo, SettingsVersion.ofText?_eq_some.mpr rfl]
  show migrate v modulesConf document t = _
  rw [migrate, run_bind, Change.inspect]
  cases v.schema.normalize document with
  | error violations => rfl
  | ok normalized =>
    cases v with
    | first => rfl
    | dottedModules =>
      show ((renameModulesIn modulesConf).mapError SettingsError.file >>= fun _ => pure normalized) t = _
      rw [run_bind, Change.mapError]
      rcases renameModulesIn modulesConf t with ⟨r, t'⟩
      cases r with
      | error e => rfl
      | ok n => rfl

/-- A text that names no version is refused, whatever the document and the tree are. -/
theorem migrateTo_of_unknown {version : String} (h : SettingsVersion.ofText? version = none)
    (modulesConf : Path) (document : Fields) (t : FileTree) :
    migrateTo version modulesConf document t = (.error (.unknownVersion version), t) := by
  rw [migrateTo, h]
  rfl

/-- A document that does not conform to a version is refused, whatever the files are. -/
theorem migrateTo_of_violations (v : SettingsVersion) {document : Fields}
    {violations : List Violation} (h : v.schema.normalize document = .error violations)
    (modulesConf : Path) (t : FileTree) :
    migrateTo v.text modulesConf document t = (.error (.migration v.text violations), t) := by
  rw [migrateTo_text, h]

/-- The earlier version does nothing but check the document. -/
theorem migrateTo_first {document normalized : Fields}
    (h : SettingsVersion.first.schema.normalize document = .ok normalized) (modulesConf : Path)
    (t : FileTree) : migrateTo "3.0.0" modulesConf document t = (.ok normalized, t) := by
  have hrun := migrateTo_text .first modulesConf document t
  rw [h] at hrun
  exact hrun

/-- The later version checks the document and renames the modules. -/
theorem migrateTo_dottedModules {document normalized : Fields}
    (h : SettingsVersion.dottedModules.schema.normalize document = .ok normalized)
    (modulesConf : Path) (t : FileTree) : migrateTo "3.0.1" modulesConf document t =
      match renameModulesIn modulesConf t with
      | (.ok _, t') => (.ok normalized, t')
      | (.error e, t') => (.error (.file e), t') := by
  have hrun := migrateTo_text .dottedModules modulesConf document t
  rw [h] at hrun
  exact hrun

section Migrating

variable {version : String} {modulesConf : Path} {document migrated : Fields} {t t' : FileTree}
  {e : SettingsError}

/-- A migrated document is the document in the form of the version, and the later version has
renamed the modules. -/
theorem migrateTo_eq_ok (h : migrateTo version modulesConf document t = (.ok migrated, t')) :
    ∃ v, version = SettingsVersion.text v ∧ v.schema.normalize document = .ok migrated ∧
      (v = .first ∧ t' = t ∨
        v = .dottedModules ∧ ∃ n, renameModulesIn modulesConf t = (.ok n, t')) := by
  rw [migrateTo] at h
  cases hv : SettingsVersion.ofText? version with
  | none =>
    rw [hv] at h
    cases h
  | some v =>
    rw [hv] at h
    refine ⟨v, SettingsVersion.ofText?_eq_some.mp hv, ?_⟩
    obtain ⟨normalized, hnormal, hrest⟩ := Change.inspect_bind_eq_ok.mp h
    cases v with
    | first =>
      cases hrest
      exact ⟨mapError_eq_ok.mp hnormal, .inl ⟨rfl, rfl⟩⟩
    | dottedModules =>
      obtain ⟨n, t₂, hrename, hpure⟩ := run_bind_eq_ok.mp hrest
      cases hpure
      exact ⟨mapError_eq_ok.mp hnormal, .inr ⟨rfl, n, Change.mapError_eq_ok.mp hrename⟩⟩

/-- A document that cannot be migrated is refused before anything is done, or the modules cannot be
renamed. -/
theorem migrateTo_eq_error (h : migrateTo version modulesConf document t = (.error e, t')) :
    t' = t ∨ ∃ e₁, renameModulesIn modulesConf t = (.error e₁, t') := by
  rw [migrateTo] at h
  cases hv : SettingsVersion.ofText? version with
  | none =>
    rw [hv] at h
    exact .inl (Change.inspect_eq.mp h).2
  | some v =>
    rw [hv] at h
    rcases Change.inspect_bind_eq_error.mp h with ⟨-, ht⟩ | ⟨normalized, -, hrest⟩
    · exact .inl ht
    · cases v with
      | first => cases hrest
      | dottedModules =>
        rcases run_bind_eq_error.mp hrest with hfailed | ⟨n, t₂, -, hpure⟩
        · obtain ⟨e₁, hrename, -⟩ := Change.mapError_eq_error.mp hfailed
          exact .inr ⟨e₁, hrename⟩
        · cases hpure

/-- Where migrating fails, the module configuration has its bytes. -/
theorem bytesAt_of_migrateTo_error
    (h : migrateTo version modulesConf document t = (.error e, t')) :
    t'.bytesAt (t.place modulesConf.text) = t.bytesAt (t.place modulesConf.text) := by
  rcases migrateTo_eq_error h with rfl | ⟨e₁, hrename⟩
  · rfl
  · exact bytesAt_of_renameModulesIn_error hrename

/-- Where migrating succeeds, the bytes of the module configuration change exactly if the version
renames modules and a name in it is of the older form. -/
theorem migrateTo_changes_iff (h : migrateTo version modulesConf document t = (.ok migrated, t')) :
    t'.bytesAt (t.place modulesConf.text) ≠ t.bytesAt (t.place modulesConf.text) ↔
      version = "3.0.1" ∧
        ∃ content, t.textAt modulesConf = .ok content ∧ 0 < (ModuleNames.rename content).2 := by
  obtain ⟨v, rfl, -, ⟨rfl, rfl⟩ | ⟨rfl, n, hrename⟩⟩ := migrateTo_eq_ok h
  · exact ⟨fun hne => absurd rfl hne, fun hrenamed => absurd hrenamed.1 (by decide)⟩
  · obtain ⟨content, htext, rfl, ⟨hzero, rfl⟩ | ⟨hpos, hwrite⟩⟩ := renameModulesIn_eq_ok hrename
    · refine ⟨fun hne => absurd rfl hne, fun ⟨_, content', htext', hpos⟩ => ?_⟩
      rw [htext] at htext'
      cases htext'
      omega
    · refine ⟨fun _ => ⟨rfl, content, htext, hpos⟩, fun _ => ?_⟩
      rw [bytesAt_of_writeAtomic_ok hwrite, if_pos rfl, bytesAt_of_textAt htext]
      intro he
      exact ModuleNames.rename_ne hpos (String.toByteArray_inj.mp (Option.some.inj he))

theorem base_of_migrateTo_ok (h : migrateTo version modulesConf document t = (.ok migrated, t')) :
    t'.base = t.base ∧ t'.process = t.process := by
  obtain ⟨v, -, -, ⟨-, rfl⟩ | ⟨-, n, hrename⟩⟩ := migrateTo_eq_ok h
  · exact ⟨rfl, rfl⟩
  · exact base_of_renameModulesIn_ok hrename

end Migrating

/-! ## The whole operation -/

/-- Migrating the document in a file up to the point where it would be saved. -/
def migrateUnsaved (source : Path) (version : String) (modulesConf : Path) :
    Change SettingsError Fields := do
  let document ← Change.inspect fun t => t.loadDocument source
  migrateTo version modulesConf document

/-- Saving comes last, on the tree that the stages before it leave. -/
theorem migrateFile_eq (source : Path) (version : String) (modulesConf destination : Path)
    (t : FileTree) : migrateFile source version modulesConf destination t =
      (migrateUnsaved source version modulesConf >>= fun migrated =>
        saveDocument destination migrated >>= fun _ => pure migrated) t := by
  rw [migrateFile, migrateUnsaved, run_bind, run_bind, run_bind]
  rcases Change.inspect (fun t => t.loadDocument source) t with ⟨r, t₁⟩
  cases r with
  | error e => rfl
  | ok document =>
    dsimp only
    rw [run_bind]

/-- A document that cannot be loaded or migrated leaves the module configuration as it was. -/
theorem bytesAt_of_migrateUnsaved_error {source : Path} {version : String} {modulesConf : Path}
    {t t' : FileTree} {e : SettingsError}
    (h : migrateUnsaved source version modulesConf t = (.error e, t')) :
    t'.bytesAt (t.place modulesConf.text) = t.bytesAt (t.place modulesConf.text) := by
  rcases Change.inspect_bind_eq_error.mp h with ⟨-, rfl⟩ | ⟨document, -, hmigrate⟩
  · rfl
  · exact bytesAt_of_migrateTo_error hmigrate

/-- Where saving a document fails, every file is as it was, except that the temporary file with the
text of the document may be left behind. -/
theorem bytesAt_of_saveDocument_error {p : Path} {document : Fields} {t t' : FileTree}
    {e : SettingsError} (h : saveDocument p document t = (.error e, t')) :
    (∀ q, t'.bytesAt q = t.bytesAt q) ∨
    ∃ format text, Format.ofPath p = .ok format ∧ format.print document = some text ∧
      ∀ q, t'.bytesAt q =
        if q = t.place (temporaryPath t.process p) then
          some ((t.process.locking p.text).leaves text.toUTF8)
        else t.bytesAt q := by
  obtain ⟨e₁, hsave, -⟩ := Change.mapError_eq_error.mp h
  rcases Change.inspect_bind_eq_error.mp hsave with ⟨-, rfl⟩ | ⟨format, hpath, hprint⟩
  · exact .inl fun q => rfl
  · cases htext : format.print document with
    | none =>
      rw [htext] at hprint
      rw [(Change.inspect_eq.mp hprint).2]
      exact .inl fun q => rfl
    | some text =>
      rw [htext] at hprint
      rcases bytesAt_of_writeAtomic_error hprint with hsame | hleft
      · exact .inl hsame
      · exact .inr ⟨format, text, hpath, htext, hleft⟩

/-- When migrating a file fails, the module configuration has other bytes than before in these cases
and in no other.  Everything went well up to the save, so that the modules are renamed already, and
the save fails; or the save leaves its temporary file behind, with what its lock let be written, and
the module configuration is named like that file. -/
theorem migrateFile_error_changes_iff {source : Path} {version : String}
    {modulesConf destination : Path} {t t' : FileTree} {e : SettingsError}
    (h : migrateFile source version modulesConf destination t = (.error e, t')) :
    t'.bytesAt (t.place modulesConf.text) ≠ t.bytesAt (t.place modulesConf.text) ↔
      ∃ migrated t₁, migrateUnsaved source version modulesConf t = (.ok migrated, t₁) ∧
        saveDocument destination migrated t₁ = (.error e, t') ∧
        ((version = "3.0.1" ∧
            (∃ content, t.textAt modulesConf = .ok content ∧
              0 < (ModuleNames.rename content).2) ∧
            t'.bytesAt (t.place modulesConf.text) = t₁.bytesAt (t.place modulesConf.text)) ∨
          (t.place (temporaryPath t.process destination) = t.place modulesConf.text ∧
            ∃ format text, Format.ofPath destination = .ok format ∧
              format.print migrated = some text ∧
              let left := (t.process.locking destination.text).leaves text.toUTF8
              t'.bytesAt (t.place modulesConf.text) = some left ∧
              t.bytesAt (t.place modulesConf.text) ≠ some left)) := by
  rw [migrateFile_eq] at h
  rcases run_bind_eq_error.mp h with hfirst | ⟨migrated, t₁, hfirst, hlast⟩
  · -- nothing can be said to have been migrated
    refine ⟨fun hne => absurd (bytesAt_of_migrateUnsaved_error hfirst) hne, ?_⟩
    rintro ⟨migrated, t₁, hok, -⟩
    rw [hfirst] at hok
    cases hok
  · have hsave : saveDocument destination migrated t₁ = (.error e, t') := by
      rcases run_bind_eq_error.mp hlast with hsave | ⟨u, t₂, -, hpure⟩
      · exact hsave
      · cases hpure
    obtain ⟨document, t₀, hload, hmigrate⟩ := run_bind_eq_ok.mp hfirst
    obtain ⟨-, rfl⟩ := Change.inspect_eq.mp hload
    have hchanges := migrateTo_changes_iff hmigrate
    have hbase := base_of_migrateTo_ok hmigrate
    constructor
    · intro hne
      refine ⟨migrated, t₁, hfirst, hsave, ?_⟩
      rcases bytesAt_of_saveDocument_error hsave with hsame | ⟨format, text, hformat, htext, hleft⟩
      · rw [hsame] at hne
        obtain ⟨hversion, hcontent⟩ := hchanges.mp hne
        exact .inl ⟨hversion, hcontent, hsame _⟩
      · rw [FileTree.place_congr hbase.1, hbase.2] at hleft
        by_cases hplace : t₀.place modulesConf.text = t₀.place (temporaryPath t₀.process destination)
        · have hbytes := hleft (t₀.place modulesConf.text)
          rw [if_pos hplace] at hbytes
          exact .inr ⟨hplace.symm, format, text, hformat, htext, hbytes, hbytes ▸ hne.symm⟩
        · have hbytes := hleft (t₀.place modulesConf.text)
          rw [if_neg hplace] at hbytes
          rw [hbytes] at hne
          obtain ⟨hversion, hcontent⟩ := hchanges.mp hne
          exact .inl ⟨hversion, hcontent, hbytes⟩
    · rintro ⟨migrated', t₁', hok, -, ⟨hversion, hcontent, hbytes⟩ | ⟨-, _, _, -, -, hbytes, hne⟩⟩
      · rw [hfirst] at hok
        cases hok
        rw [hbytes]
        exact hchanges.mpr ⟨hversion, hcontent⟩
      · rw [hbytes]
        exact hne.symm

/-- Settings as TOML, with no kickstart given, beside a module configuration of the older form. -/
def kickstartlessTree : FileTree :=
  let t := FileTree.empty [] "1"
  let t := t.put "s.toml" [] (.file "server = \"s\"\nnext_server = \"n\"\n".toUTF8)
  t.put "m.conf" [] (.file "module = authn_x\n".toUTF8)

/-- The settings are valid, but cannot be saved. -/
theorem migrateFile_kickstartless :
    migrateFile ⟨"s.toml"⟩ "3.0.1" ⟨"m.conf"⟩ ⟨"s.toml"⟩ kickstartlessTree =
      (.error (.file (.unwritable "s.toml" .toml)),
        (migrateFile ⟨"s.toml"⟩ "3.0.1" ⟨"m.conf"⟩ ⟨"s.toml"⟩ kickstartlessTree).2) :=
  Prod.ext (by decide +kernel) rfl

/-- The save alone fails, and the modules are renamed already. -/
theorem migrateFile_kickstartless_changes :
    ∃ migrated t₁,
      migrateUnsaved ⟨"s.toml"⟩ "3.0.1" ⟨"m.conf"⟩ kickstartlessTree = (.ok migrated, t₁) ∧
      saveDocument ⟨"s.toml"⟩ migrated t₁ = (.error (.file (.unwritable "s.toml" .toml)),
        (migrateFile ⟨"s.toml"⟩ "3.0.1" ⟨"m.conf"⟩ ⟨"s.toml"⟩ kickstartlessTree).2) := by
  have hne : (migrateFile ⟨"s.toml"⟩ "3.0.1" ⟨"m.conf"⟩ ⟨"s.toml"⟩ kickstartlessTree).2.bytesAt
      (kickstartlessTree.place "m.conf") ≠
        kickstartlessTree.bytesAt (kickstartlessTree.place "m.conf") := by
    decide +kernel
  obtain ⟨migrated, t₁, hfirst, hsave, -⟩ :=
    (migrateFile_error_changes_iff migrateFile_kickstartless).mp hne
  exact ⟨migrated, t₁, hfirst, hsave⟩

/-- So a migration that fails may have changed the module configuration. -/
theorem migrateFile_error_may_change : ¬ ∀ (t t' : FileTree) (source : Path) (version : String)
    (modulesConf destination : Path) (e : SettingsError),
    migrateFile source version modulesConf destination t = (.error e, t') →
      t'.bytesAt (t.place modulesConf.text) = t.bytesAt (t.place modulesConf.text) := by
  intro h
  have hsame := h _ _ _ _ _ _ _ migrateFile_kickstartless
  revert hsame
  decide +kernel

/-! ## Documents without a kickstart -/

/-- A null among the members of a document keeps it from being written as TOML. -/
theorem print_toml_of_null_mem {members : Fields} {key : String} (h : (key, Value.null) ∈ members) :
    Toml.print members = none := by
  have hlines : Toml.entryLines members = none := by
    induction members with
    | nil => cases h
    | cons m rest ih =>
      obtain ⟨k, v⟩ := m
      rw [Toml.entryLines]
      rcases List.mem_cons.mp h with he | hrest
      · cases he
        cases Toml.entryLines rest <;> rfl
      · rw [ih hrest]
        rfl
  rw [Toml.print, Toml.tableBlocks, hlines]
  rfl

/-- The default of `default_kickstart` is null, and so is its value in a migrated document if the
document did not give another one. -/
theorem print_toml_of_normalize {v : SettingsVersion} {document migrated : Fields}
    (h : v.schema.normalize document = .ok migrated)
    (hkickstart : (document.get? "default_kickstart").getD .null = .null) :
    Toml.print migrated = none := by
  have hnames : (v.schema.fields.map Field.name).Nodup := by
    show (SettingsVersion.fields.map Field.name).Nodup
    decide
  have hfield : (⟨"default_kickstart", .any, some .null⟩ : Field) ∈ v.schema.fields := by
    show _ ∈ SettingsVersion.fields
    decide
  obtain ⟨value, hvalue, hget⟩ := Schema.get?_of_normalize h hnames hfield
  have hnull : value = .null := by
    rw [Field.evaluate] at hvalue
    cases hd : document.get? "default_kickstart" with
    | none =>
      rw [hd] at hvalue
      exact (Except.ok.inj hvalue).symm
    | some given =>
      rw [hd] at hkickstart hvalue
      rw [show given = .null from hkickstart] at hvalue
      exact (Except.ok.inj hvalue).symm
  exact print_toml_of_null_mem (Fields.mem_of_get?_eq_some (hnull ▸ hget))

/-- Migrating to a TOML file always fails for a document without a kickstart, whatever the version
and the files are. -/
theorem migrateFile_toml_error {source destination : Path} {version : String} {modulesConf : Path}
    {t : FileTree} {document : Fields} (hload : t.loadDocument source = .ok document)
    (hkickstart : (document.get? "default_kickstart").getD .null = .null)
    (hformat : Format.ofPath destination = .ok .toml) :
    ∃ e, (migrateFile source version modulesConf destination t).1 = .error e := by
  have hunsaved : migrateUnsaved source version modulesConf t =
      migrateTo version modulesConf document t := by
    rw [migrateUnsaved, run_bind, Change.inspect, hload]
  rw [migrateFile_eq, run_bind, hunsaved]
  cases hmigrate : migrateTo version modulesConf document t with
  | mk r t₁ =>
    cases r with
    | error e => exact ⟨e, rfl⟩
    | ok migrated =>
      obtain ⟨v, -, hnormal, -⟩ := migrateTo_eq_ok hmigrate
      have hprint : Toml.print migrated = none := print_toml_of_normalize hnormal hkickstart
      refine ⟨.file (.unwritable destination.text .toml), ?_⟩
      dsimp only
      rw [run_bind, saveDocument, Change.mapError, save, run_bind, Change.inspect, hformat]
      dsimp only [Format.print]
      rw [hprint]
      rfl

end BootTree

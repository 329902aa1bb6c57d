/-
  Renaming the modules a second time.

  Every newer form ends in a point.  Behind the point a word begins, where behind the older form the
  word went on, so what stands there may be of an older form for the second renaming although it was
  none for the first.

  1. **Scanning** — a text is read character by character, a name of the older form at once
     (`scan_induction`).  At most one form stands at a place (`legacy?_eq_some`).

  2. **Words** — inside a word nothing is renamed, so all its characters stay (`takeWhile_renameFrom`),
     and whether a name of the older form begins somewhere depends on the word alone
     (`legacy?_congr`).

  3. **Two forms in a row** — whether a word begins with two older forms, one directly behind the
     other, is found out by the same scan (`stacked_cons`, `stacked_append_of_mem`).

  4. **Again** — the second renaming passes over the newer forms (`renameFrom_newer`), so it has to do
     with what stands directly behind them.  It does nothing exactly if no word begins with two older
     forms (`renameFrom_again`).

  5. **Files** — then renaming the modules in a file again, and migrating again, leaves the file
     (`rename_again`).
-/
import BootTree.Proofs.Settings.Effects

namespace BootTree

namespace ModuleNames

variable {w : Bool} {c : Char} {cs ds rest : List Char} {r : List Char × List Char}

/-! ## Scanning -/

theorem word_of_mem_renames (hr : r ∈ renames) : ∀ c ∈ r.1, Text.isWord c = true := by
  have hall : ∀ r ∈ renames, r.1.all Text.isWord = true := by decide
  exact List.all_eq_true.mp (hall r hr)

theorem ne_nil_of_mem_renames : ∀ r ∈ renames, r.1 ≠ [] := by decide

/-- Of two forms at one place none can be longer than the other. -/
theorem eq_of_prefix (hr : r ∈ renames) {s : List Char × List Char} (hs : s ∈ renames)
    (hstands : r.1 <+: cs) (hstands' : s.1 <+: cs) : r = s := by
  have hapart : ∀ r ∈ renames, ∀ s ∈ renames, r.1 <+: s.1 → r = s := by decide
  rcases List.prefix_or_prefix_of_prefix hstands hstands' with hlonger | hlonger
  · exact hapart r hr s hs hlonger
  · exact (hapart s hs r hr hlonger).symm

theorem legacy?_eq_some : legacy? cs = some r ↔ r ∈ renames ∧ r.1 <+: cs := by
  have hfound : ∀ s, legacy? cs = some s → s ∈ renames ∧ s.1 <+: cs := by
    intro s hs
    rw [legacy?] at hs
    have hstands := List.find?_some hs
    exact ⟨List.mem_of_find?_eq_some hs, List.isPrefixOf_iff_prefix.mp hstands⟩
  refine ⟨hfound r, fun ⟨hr, hstands⟩ => ?_⟩
  have hsome : (legacy? cs).isSome :=
    List.find?_isSome.mpr ⟨r, hr, List.isPrefixOf_iff_prefix.mpr hstands⟩
  obtain ⟨s, hs⟩ := Option.isSome_iff_exists.mp hsome
  obtain ⟨hmem, hstands'⟩ := hfound s hs
  rw [hs, eq_of_prefix hr hmem hstands hstands']

/-- A character is kept inside a word, and where no name of the older form begins with it. -/
theorem renameFrom_keep (h : w = true ∨ legacy? (c :: rest) = none) :
    renameFrom w 0 (c :: rest) = (c :: (renameFrom (Text.isWord c) 0 rest).1,
      (renameFrom (Text.isWord c) 0 rest).2) := by
  have hnone : (if w then none else legacy? (c :: rest)) = none := by
    rcases h with rfl | h
    · rfl
    · rw [h, ite_self]
  rw [renameFrom, hnone]

theorem renameFrom_skip (h : ∀ c ∈ cs, Text.isWord c = true) (rest : List Char) :
    renameFrom true cs.length (cs ++ rest) = renameFrom true 0 rest := by
  induction cs with
  | nil => rfl
  | cons c cs ih =>
    obtain ⟨hc, hcs⟩ := List.forall_mem_cons.mp h
    rw [List.cons_append, List.length_cons, renameFrom, hc]
    exact ih hcs

/-- At the start of a word a name of the older form is replaced, and the word goes on behind it. -/
theorem renameFrom_of_mem (hr : r ∈ renames) (rest : List Char) :
    renameFrom false 0 (r.1 ++ rest) =
      (r.2 ++ (renameFrom true 0 rest).1, (renameFrom true 0 rest).2 + 1) := by
  have hlegacy : legacy? (r.1 ++ rest) = some r :=
    legacy?_eq_some.mpr ⟨hr, List.prefix_append _ _⟩
  have hword := word_of_mem_renames hr
  obtain ⟨old, new⟩ := r
  cases old with
  | nil => exact absurd rfl (ne_nil_of_mem_renames _ hr)
  | cons c cs =>
    obtain ⟨hc, hcs⟩ := List.forall_mem_cons.mp hword
    have hskip := renameFrom_skip hcs rest
    rw [List.cons_append] at hlegacy ⊢
    rw [renameFrom, if_neg Bool.false_ne_true, hlegacy]
    dsimp only
    rw [hc, List.length_cons, Nat.add_sub_cancel, hskip]

/-- A text is empty, or its first character is kept, or a word begins with a name of the older
form. -/
theorem scan_induction {motive : Bool → List Char → Prop} (nil : ∀ w, motive w [])
    (keep : ∀ w c rest, w = true ∨ legacy? (c :: rest) = none → motive (Text.isWord c) rest →
      motive w (c :: rest))
    (renamed : ∀ r ∈ renames, ∀ rest, motive true rest → motive false (r.1 ++ rest))
    (w : Bool) (cs : List Char) : motive w cs := by
  induction hn : cs.length using Nat.strongRecOn generalizing w cs with
  | ind n ih =>
    subst hn
    cases cs with
    | nil => exact nil w
    | cons c rest =>
      by_cases hkeep : w = true ∨ legacy? (c :: rest) = none
      · exact keep w c rest hkeep (ih _ (Nat.lt_succ_self _) _ rest rfl)
      · rw [not_or, Bool.not_eq_true] at hkeep
        obtain ⟨rfl, hsome⟩ := hkeep
        obtain ⟨r, hr⟩ := Option.ne_none_iff_exists'.mp hsome
        obtain ⟨hmem, behind, hbehind⟩ := legacy?_eq_some.mp hr
        rw [← hbehind]
        refine renamed r hmem behind (ih _ ?_ _ behind rfl)
        have hlonger := List.length_pos_iff.mpr (ne_nil_of_mem_renames r hmem)
        rw [← hbehind, List.length_append]
        omega

/-! ## Words -/

/-- Nothing is renamed before the word ends. -/
theorem takeWhile_renameFrom (cs : List Char) :
    (renameFrom true 0 cs).1.takeWhile Text.isWord = cs.takeWhile Text.isWord := by
  induction cs with
  | nil => rfl
  | cons c rest ih =>
    rw [renameFrom_keep (.inl rfl), List.takeWhile_cons, List.takeWhile_cons]
    by_cases hc : Text.isWord c = true
    · rw [if_pos hc, if_pos hc, hc, ih]
    · rw [if_neg hc, if_neg hc]

theorem prefix_takeWhile_iff (hr : r ∈ renames) :
    r.1 <+: cs.takeWhile Text.isWord ↔ r.1 <+: cs := by
  constructor
  · exact fun h => h.trans <| List.takeWhile_prefix _
  · rintro ⟨rest, rfl⟩
    rw [List.takeWhile_append_of_pos (word_of_mem_renames hr)]
    exact List.prefix_append _ _

/-- Where the same word begins, the same name of the older form does. -/
theorem legacy?_congr (h : cs.takeWhile Text.isWord = ds.takeWhile Text.isWord) :
    legacy? cs = legacy? ds := by
  refine Option.ext fun r => ?_
  rw [legacy?_eq_some, legacy?_eq_some]
  refine and_congr_right fun hr => ?_
  rw [← prefix_takeWhile_iff hr, h, prefix_takeWhile_iff hr]

theorem legacy?_cons_renameFrom (c : Char) (rest : List Char) :
    legacy? (c :: (renameFrom (Text.isWord c) 0 rest).1) = legacy? (c :: rest) := by
  refine legacy?_congr ?_
  rw [List.takeWhile_cons, List.takeWhile_cons]
  by_cases hc : Text.isWord c = true
  · rw [if_pos hc, if_pos hc, hc, takeWhile_renameFrom]
  · rw [if_neg hc, if_neg hc]

/-- Where no name of the older form begins, it makes no difference whether a word does. -/
theorem renameFrom_of_legacy?_eq_none (h : legacy? cs = none) :
    renameFrom false 0 cs = renameFrom true 0 cs := by
  cases cs with
  | nil => rfl
  | cons c rest => rw [renameFrom_keep (.inr h), renameFrom_keep (.inl rfl)]

/-! ## Two forms in a row -/

/-- A word begins with two names of the older form, one directly behind the other.  `inWord` tells
whether a word is going on where the text begins. -/
def Stacked (inWord : Bool) (cs : List Char) : Prop :=
  ∃ before behind : List Char, ∃ r ∈ renames, ∃ s ∈ renames,
    cs = before ++ (r.1 ++ (s.1 ++ behind)) ∧ before.getLast?.elim inWord Text.isWord = false

theorem not_stacked_nil : ¬ Stacked w [] := by
  rintro ⟨before, behind, r, hr, s, -, hcs, -⟩
  have hempty : r.1 = [] := by simp_all
  exact ne_nil_of_mem_renames r hr hempty

theorem stacked_cons : Stacked w (c :: rest) ↔
    (w = false ∧ ∃ r ∈ renames, ∃ s ∈ renames, r.1 ++ s.1 <+: c :: rest) ∨
      Stacked (Text.isWord c) rest := by
  have hlast : ∀ before : List Char, (c :: before).getLast?.elim w Text.isWord =
      before.getLast?.elim (Text.isWord c) Text.isWord := by
    intro before
    rw [List.getLast?_cons]
    cases before.getLast? <;> rfl
  constructor
  · rintro ⟨before, behind, r, hr, s, hs, hcs, hstart⟩
    cases before with
    | nil =>
      refine .inl ⟨hstart, r, hr, s, hs, behind, ?_⟩
      rw [List.append_assoc]
      exact hcs.symm
    | cons d before =>
      obtain ⟨rfl, hrest⟩ := List.cons.inj hcs
      exact .inr ⟨before, behind, r, hr, s, hs, hrest, (hlast before).symm.trans hstart⟩
  · rintro (⟨hw, r, hr, s, hs, behind, hcs⟩ | ⟨before, behind, r, hr, s, hs, rfl, hstart⟩)
    · exact ⟨[], behind, r, hr, s, hs, by rw [← hcs, List.append_assoc, List.nil_append], hw⟩
    · exact ⟨c :: before, behind, r, hr, s, hs, rfl, (hlast before).trans hstart⟩

theorem stacked_append_of_word (h : ∀ c ∈ cs, Text.isWord c = true) :
    Stacked true (cs ++ rest) ↔ Stacked true rest := by
  induction cs with
  | nil => rfl
  | cons c cs ih =>
    obtain ⟨hc, hcs⟩ := List.forall_mem_cons.mp h
    rw [List.cons_append, stacked_cons, hc, ih hcs]
    simp

/-- Behind a name of the older form another one stands, or the text is stacked further on. -/
theorem stacked_append_of_mem (hr : r ∈ renames) :
    Stacked false (r.1 ++ rest) ↔ legacy? rest ≠ none ∨ Stacked true rest := by
  have hfirst : (∃ r' ∈ renames, ∃ s ∈ renames, r'.1 ++ s.1 <+: r.1 ++ rest) ↔
      legacy? rest ≠ none := by
    rw [Option.ne_none_iff_exists']
    constructor
    · rintro ⟨r', hr', s, hs, hstands⟩
      obtain rfl := eq_of_prefix hr' hr ((List.prefix_append _ _).trans hstands)
        (List.prefix_append _ _)
      exact ⟨s, legacy?_eq_some.mpr ⟨hs, (List.prefix_append_right_inj _).mp hstands⟩⟩
    · rintro ⟨s, hlegacy⟩
      obtain ⟨hs, hstands⟩ := legacy?_eq_some.mp hlegacy
      exact ⟨r, hr, s, hs, (List.prefix_append_right_inj _).mpr hstands⟩
  have hword := word_of_mem_renames hr
  rw [← hfirst]
  cases hold : r.1 with
  | nil => exact absurd hold (ne_nil_of_mem_renames r hr)
  | cons c cs =>
    rw [hold] at hword
    obtain ⟨hc, hcs⟩ := List.forall_mem_cons.mp hword
    rw [List.cons_append, stacked_cons, hc, stacked_append_of_word hcs]
    simp

/-! ## Again -/

theorem renameFrom_append_of_word (h : ∀ c ∈ cs, Text.isWord c = true) (rest : List Char) :
    renameFrom true 0 (cs ++ rest) =
      (cs ++ (renameFrom true 0 rest).1, (renameFrom true 0 rest).2) := by
  induction cs with
  | nil => rfl
  | cons c cs ih =>
    obtain ⟨hc, hcs⟩ := List.forall_mem_cons.mp h
    rw [List.cons_append, renameFrom_keep (.inl rfl), hc, ih hcs]
    rfl

/-- A newer form is a word and a point behind it, and neither begins with an older form nor begins
one. -/
theorem newer_forms : ∀ r ∈ renames, r.2.dropLast.all Text.isWord = true ∧
    r.2 = r.2.dropLast ++ ['.'] ∧ r.2.dropLast ≠ [] ∧
      ∀ s ∈ renames, ¬ s.1 <+: r.2 ∧ ¬ r.2 <+: s.1 := by
  decide

/-- A newer form is kept, and behind its point a word may begin. -/
theorem renameFrom_newer (hr : r ∈ renames) (rest : List Char) :
    renameFrom false 0 (r.2 ++ rest) =
      (r.2 ++ (renameFrom false 0 rest).1, (renameFrom false 0 rest).2) := by
  obtain ⟨hword, hpoint, hne, hforms⟩ := newer_forms r hr
  have hnone : legacy? (r.2 ++ rest) = none := by
    refine Option.eq_none_iff_forall_ne_some.mpr fun s hs => ?_
    obtain ⟨hmem, hstands⟩ := legacy?_eq_some.mp hs
    rcases List.prefix_or_prefix_of_prefix hstands (List.prefix_append _ _) with h | h
    · exact (hforms s hmem).1 h
    · exact (hforms s hmem).2 h
  have hbehind : renameFrom true 0 ('.' :: rest) =
      ('.' :: (renameFrom false 0 rest).1, (renameFrom false 0 rest).2) :=
    renameFrom_keep (.inl rfl)
  rw [renameFrom_of_legacy?_eq_none hnone, hpoint, List.append_assoc, List.singleton_append,
    renameFrom_append_of_word (List.all_eq_true.mp hword), hbehind, List.append_assoc]
  rfl

/-- The second renaming does nothing exactly if no word begins with two older forms.  The induction
is on the text before the first one. -/
theorem renameFrom_again (w : Bool) (cs : List Char) :
    (renameFrom w 0 (renameFrom w 0 cs).1).2 = 0 ↔ ¬ Stacked w cs := by
  induction w, cs using scan_induction with
  | nil w => simp [renameFrom, not_stacked_nil]
  | keep w c rest hkeep ih =>
    have hkeep' : w = true ∨ legacy? (c :: (renameFrom (Text.isWord c) 0 rest).1) = none := by
      rwa [legacy?_cons_renameFrom]
    have hfirst : ¬ (w = false ∧ ∃ r ∈ renames, ∃ s ∈ renames, r.1 ++ s.1 <+: c :: rest) := by
      rintro ⟨rfl, r, hr, s, -, hstands⟩
      have hsome := legacy?_eq_some.mpr ⟨hr, (List.prefix_append _ _).trans hstands⟩
      simp [hsome] at hkeep
    rw [renameFrom_keep hkeep, renameFrom_keep hkeep', stacked_cons, or_iff_right hfirst]
    exact ih
  | renamed r hr rest ih =>
    rw [renameFrom_of_mem hr, stacked_append_of_mem hr]
    dsimp only
    rw [renameFrom_newer hr]
    have hlegacy := legacy?_congr (takeWhile_renameFrom rest)
    cases hbehind : legacy? rest with
    | none =>
      rw [renameFrom_of_legacy?_eq_none (hlegacy.trans hbehind), or_iff_right (by simp)]
      exact ih
    | some s =>
      -- behind the newer form a word begins now, and with it another older form
      obtain ⟨hs, tail, htail⟩ := legacy?_eq_some.mp (hlegacy.trans hbehind)
      rw [← htail, renameFrom_of_mem hs]
      simp

/-- A text is its own renaming if nothing in it is counted. -/
theorem rename_eq_iff {content : String} :
    rename content = (content, 0) ↔ (rename content).2 = 0 :=
  ⟨fun h => congrArg Prod.snd h, fun h => Prod.ext (rename_eq_self h) h⟩

theorem rename_eq (content : String) : rename content =
    (String.ofList (renameFrom false 0 content.toList).1,
      (renameFrom false 0 content.toList).2) := rfl

theorem rename_rename_eq_iff (content : String) :
    rename (rename content).1 = ((rename content).1, 0) ↔ ¬ Stacked false content.toList := by
  rw [rename_eq_iff, rename_eq (rename content).1, rename_eq content, String.toList_ofList]
  exact renameFrom_again false content.toList

end ModuleNames

/-! ## Files -/

section Files

variable {p : Path} {t : FileTree} {content : String}

/-- A file whose text is its own renaming is not written. -/
theorem renameModulesIn_eq_zero_iff (htext : t.textAt p = .ok content) :
    renameModulesIn p t = (.ok 0, t) ↔ ModuleNames.rename content = (content, 0) := by
  rw [ModuleNames.rename_eq_iff]
  constructor
  · intro h
    obtain ⟨content', htext', hcount, -⟩ := renameModulesIn_eq_ok h
    rw [htext] at htext'
    cases htext'
    exact hcount.symm
  · intro h
    rw [renameModulesIn, run_bind, Change.inspect, htext]
    dsimp only
    rw [h]
    rfl

/-- Migrating leaves a tree in which no module is left to rename. -/
theorem migrateTo_of_renamed (h : renameModulesIn p t = (.ok 0, t)) (document : Fields) :
    (migrateTo "3.0.1" p document t).2 = t := by
  cases hnormal : SettingsVersion.dottedModules.schema.normalize document with
  | error violations =>
    exact congrArg Prod.snd (migrateTo_of_violations .dottedModules hnormal p t)
  | ok normalized => rw [migrateTo_dottedModules hnormal, h]

end Files

namespace ModuleNames

/-- Renaming again does nothing exactly if in the text no word begins with two names of the older
form, one directly behind the other: then every later renaming of the modules in a file that was
renamed counts none and leaves the tree, and so does migrating, whatever document is migrated. -/
theorem rename_again (content : String) :
    (rename (rename content).1 = ((rename content).1, 0) ↔ ¬ Stacked false content.toList) ∧
    ∀ (p : Path) (t t' u : FileTree) (n : Nat), t.textAt p = .ok content →
      renameModulesIn p t = (.ok n, t') → u.textAt p = t'.textAt p →
        (renameModulesIn p u = (.ok 0, u) ↔ ¬ Stacked false content.toList) ∧
        (¬ Stacked false content.toList → ∀ document, (migrateTo "3.0.1" p document u).2 = u) := by
  refine ⟨rename_rename_eq_iff content, fun p t t' u n htext hrename hsame => ?_⟩
  obtain ⟨content', htext', hrenamed, -⟩ := (modulesRenamed_of_renameModulesIn hrename).text
  rw [htext] at htext'
  cases htext'
  have hiff := (renameModulesIn_eq_zero_iff (hsame.trans hrenamed)).trans
    (rename_rename_eq_iff content)
  exact ⟨hiff, fun hplain => migrateTo_of_renamed (hiff.mpr hplain)⟩

/-- A module configuration with two names of the older form, each in a word of its own. -/
theorem rename_again_twoWords :
    let p : Path := ⟨"m.conf"⟩
    let t := FileTree.empty [] "10" |>.put "m.conf" [] (.file "authn_a = authz_b\n".toUTF8)
    let t' := (renameModulesIn p t).2
    t.textAt p = .ok "authn_a = authz_b\n" ∧ renameModulesIn p t = (.ok 2, t') ∧
      renameModulesIn p t' = (.ok 0, t') ∧ ∀ document, (migrateTo "3.0.1" p document t').2 = t' := by
  intro p t t'
  have htext : t.textAt p = .ok "authn_a = authz_b\n" := by decide +kernel
  have hrename : renameModulesIn p t = (.ok 2, t') := eq_of_fst (by decide +kernel)
  obtain ⟨htwice, hfiles⟩ := rename_again "authn_a = authz_b\n"
  have hplain := htwice.mp (by decide +kernel)
  obtain ⟨hagain, hmigrate⟩ := hfiles p t t' t' 2 htext hrename rfl
  exact ⟨htext, hrename, hagain.mpr hplain, hmigrate hplain⟩

/-- But a newer form may have an older one behind it, which then begins a word. -/
theorem rename_may_go_on : ¬ ∀ content, rename (rename content).1 = ((rename content).1, 0) := by
  intro hall
  have htwice := hall "manage_authz_ldap"
  revert htwice
  decide +kernel

example : rename "manage_authz_ldap" = ("managers.authz_ldap", 1) ∧
    rename "managers.authz_ldap" = ("managers.authorization.ldap", 1) := by
  decide +kernel

end ModuleNames

end BootTree

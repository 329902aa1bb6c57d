/-
  Patterns and the texts that they are written as.

  1. **Plain texts** — without `?`, `*` and `[` a pattern is read as its own characters
     (`readLoop_of_plain`), so it matches its own text and no other one.  The same holds of a text
     that is no pattern.  Such a text is one that names itself (`matchesName_of_namesItself`).

  2. **Texts without sets** — `?` and `*` match themselves among other things, so a pattern that has
     no set and no slash matches its own text at least (`matchesName_self`).  The induction is on
     the characters still to be read; what it carries is that the tokens read from them match them
     (`readLoop_matches`).

  A set ends what can be said of all patterns: `[ab]` matches `a` and `b`, but not its own text.
-/
import BootTree.Glob.Pattern

namespace BootTree.Glob

variable {fuel position : Nat} {done tokens : List Token} {before : Option Char}
  {cs ds : List Char} {pattern name : String}

/-! ## Plain texts -/

/-- The characters that stand for something else where a pattern is read. -/
def isWild (c : Char) : Bool := c = '?' || c = '*' || c = '['

/-- A text that as a pattern matches itself alone, because nothing in it is wild or because it is no
pattern. -/
def NamesItself (text : String) : Prop :=
  text.toList.any isWild = false ∨ ∃ e, read text = .error e

theorem isWild_eq_false {c : Char} : isWild c = false ↔ c ≠ '?' ∧ c ≠ '*' ∧ c ≠ '[' := by
  simp [isWild, and_assoc]

/-- A character that is not wild is read as itself. -/
theorem readLoop_cons {c : Char} (hc : isWild c = false) (rest : List Char) :
    readLoop (fuel + 1) done position before (c :: rest) =
      readLoop fuel (.char c :: done) (position + 1) (some c) rest := by
  obtain ⟨hany, hsequence, hset⟩ := isWild_eq_false.mp hc
  rw [readLoop, if_neg hany, if_neg hsequence, if_neg hset]

theorem readLoop_of_plain (hplain : ∀ c ∈ cs, isWild c = false) (hfuel : cs.length ≤ fuel) :
    readLoop fuel done position before cs = .ok (done.reverse ++ cs.map .char) := by
  induction cs generalizing fuel done position before with
  | nil => simp [readLoop]
  | cons c rest ih =>
    obtain ⟨fuel, rfl⟩ : ∃ n, fuel = n + 1 := ⟨fuel - 1, by simp at hfuel; omega⟩
    have hrest : rest.length ≤ fuel := by simpa using hfuel
    rw [readLoop_cons (hplain c List.mem_cons_self),
      ih (fun d hd => hplain d (List.mem_cons_of_mem c hd)) hrest]
    simp

theorem matchTokens_map_char : matchTokens (cs.map .char) ds = true ↔ ds = cs := by
  induction cs generalizing ds with
  | nil => simp [matchTokens]
  | cons c rest ih =>
    cases ds with
    | nil => simp [matchTokens]
    | cons d others => simp [matchTokens, Token.accepts, ih]

/-- A text that names itself matches no other text. -/
theorem matchesName_of_namesItself (h : NamesItself pattern) :
    matchesName pattern name = true ↔ name = pattern := by
  rw [matchesName]
  rcases h with hplain | ⟨e, herror⟩
  · have hchars : ∀ c ∈ pattern.toList, isWild c = false := by
      simpa [List.any_eq_false] using hplain
    have hread : read pattern = .ok (pattern.toList.map .char) := by
      rw [read, readLoop_of_plain hchars (Nat.le_of_eq String.length_toList)]
      rfl
    rw [hread]
    show matchTokens (pattern.toList.map .char) name.toList = true ↔ name = pattern
    rw [matchTokens_map_char, String.toList_inj]
  · rw [herror]
    simp [eq_comm]

/-! ## Texts without sets -/

theorem anyEnd_of_suffix {f : List Char → Bool} (h : ds <:+ cs) (hf : f ds = true) :
    anyEnd f cs = true := by
  induction cs with
  | nil =>
    rw [List.suffix_nil.mp h] at hf
    exact hf
  | cons c rest ih =>
    rw [anyEnd, Bool.or_eq_true]
    rcases List.suffix_cons_iff.mp h with rfl | h
    · exact .inl hf
    · exact .inr (ih h)

theorem anyAfterSlash_of_end {f : List Char → Bool} (hf : f [] = true) (cs : List Char) :
    anyAfterSlash f cs = true := by
  induction cs with
  | nil => exact hf
  | cons c rest ih => rw [anyAfterSlash, ih, Bool.or_true]

/-- Two stars are read only as a whole text, where there is no slash. -/
theorem readLoop_twoStars {rest : List Char} (hslash : '/' ∉ rest)
    (h : (match rest with
      | [] => readLoop fuel [.anyComponents] (position + 2) (some '*') []
      | '/' :: after => readLoop fuel [.anyComponents] (position + 3) (some '/') after
      | _ => .error ⟨position + 2, .recursiveWildcards⟩) = .ok tokens) :
    tokens = [.anyComponents] := by
  split at h
  · rw [readLoop] at h
    exact (Except.ok.inj h).symm
  · exact absurd List.mem_cons_self hslash
  · cases h

/-- The tokens that are read from a text without sets and slashes match the text.  Two stars are
read only where nothing stands before them, since there is no slash that they could follow. -/
theorem readLoop_matches (hset : '[' ∉ cs) (hslash : '/' ∉ cs) (hstart : before = none → done = [])
    (hbefore : before ≠ some '/') (hfuel : cs.length ≤ fuel)
    (h : readLoop fuel done position before cs = .ok tokens) :
    ∃ more, tokens = done.reverse ++ more ∧ matchTokens more cs = true := by
  induction fuel generalizing done position before cs with
  | zero =>
    have hnil : cs = [] := List.length_eq_zero_iff.mp (Nat.le_zero.mp hfuel)
    subst hnil
    rw [readLoop] at h
    exact ⟨[], by simpa using (Except.ok.inj h).symm, rfl⟩
  | succ fuel ih =>
    cases cs with
    | nil =>
      rw [readLoop] at h
      exact ⟨[], by simpa using (Except.ok.inj h).symm, rfl⟩
    | cons c rest =>
      -- one token is read in front, and the others from an end of the text
      have hone : ∀ token position' ds, ds <:+ rest →
          readLoop fuel (token :: done) position' (some c) ds = .ok tokens →
          (∀ more, matchTokens more ds = true → matchTokens (token :: more) (c :: rest) = true) →
          ∃ more, tokens = done.reverse ++ more ∧ matchTokens more (c :: rest) = true := by
        intro token position' ds hds hread htoken
        have hmem : ∀ x, x ∈ ds → x ∈ c :: rest := fun x hx => List.mem_cons_of_mem c (hds.subset hx)
        have hstart' : some c = none → token :: done = [] := fun he => by cases he
        have hbefore' : some c ≠ some '/' := fun he =>
          hslash (Option.some.inj he ▸ List.mem_cons_self)
        have hfuel' : ds.length ≤ fuel := by
          have := hds.length_le
          simp only [List.length_cons] at hfuel
          omega
        obtain ⟨more, rfl, hmatch⟩ := ih (fun hx => hset (hmem _ hx))
          (fun hx => hslash (hmem _ hx)) hstart' hbefore' hfuel' hread
        exact ⟨token :: more, by simp, htoken more hmatch⟩
      rw [readLoop] at h
      split at h
      · -- any character
        exact hone _ _ rest (List.suffix_refl _) h fun more hmore => by
          simp [matchTokens, Token.accepts, hmore]
      · split at h
        · -- stars: the rest is matched where it starts
          have hafter : rest.dropWhile (· = '*') <:+ rest := List.dropWhile_suffix _
          dsimp only at h
          split at h
          · cases h
          · split at h
            · exact hone _ _ _ hafter h fun more hmore => by
                rw [matchTokens]
                exact anyEnd_of_suffix (hafter.trans (List.suffix_cons c rest)) hmore
            · split at h
              · next hfirst =>
                have hdone : done = [] := hstart (hfirst.resolve_right hbefore)
                subst hdone
                have htokens := readLoop_twoStars (fun hx => hslash
                  (List.mem_cons_of_mem c (hafter.subset hx))) h
                subst htokens
                exact ⟨[.anyComponents], rfl, by
                  rw [matchTokens, anyAfterSlash_of_end rfl, Bool.or_true]⟩
              · cases h
        · split at h
          · -- a set
            next hopen => exact absurd hopen fun he => hset (he ▸ List.mem_cons_self)
          · -- a character that is not wild
            exact hone _ _ rest (List.suffix_refl _) h fun more hmore => by
              simp [matchTokens, Token.accepts, hmore]

/-- A text without sets and slashes matches itself, whatever else it matches. -/
theorem matchesName_self (hset : '[' ∉ name.toList) (hslash : '/' ∉ name.toList) :
    matchesName name name = true := by
  rw [matchesName]
  cases hread : read name with
  | error e => simp
  | ok tokens =>
    have hfuel : name.toList.length ≤ name.length := Nat.le_of_eq String.length_toList
    obtain ⟨more, rfl, hmatch⟩ :=
      readLoop_matches hset hslash (fun _ => rfl) (by simp) hfuel hread
    exact hmatch

end BootTree.Glob

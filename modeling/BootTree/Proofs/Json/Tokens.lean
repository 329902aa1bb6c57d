/-
  The tokens of printed data.

  1. **Scanning** — which tokens a text is read as, as a relation that needs no fuel (`Scans`,
     `scan_of_scans`).

  2. **Strings** — every character is read back from its form in a string, whatever follows
     (`scanString_escapeChar`), and so is a text from its quotation (`Scans.quote`).

  3. **Numerals** — an integer of 64 bits, with or without a sign, is read back from its digits, as long
     as no digit, point or exponent follows (`Scans.intText`).

  4. **Data** — data with whole numbers, no larger and no deeper than JSON text can hold (`Fits`), is
     printed as its tokens, with line breaks between them (`scan_pretty`).  Keys may repeat.
-/
import BootTree.Json.Printer
import BootTree.Json.Token
import Mathlib.Data.List.Basic
import Mathlib.Tactic.SplitIfs

namespace BootTree.Json

/-! ## Scanning -/

/-- The text is read as the tokens. -/
inductive Scans : List Char → List Token → Prop where
  | done : Scans [] []
  | space {c : Char} {rest : List Char} {tokens : List Token} :
      isSpace c = true → Scans rest tokens → Scans (c :: rest) tokens
  | token {c : Char} {text rest : List Char} {token : Token} {tokens : List Token} :
      isSpace c = false → scanToken c text = some (token, rest) → rest.length ≤ text.length →
      Scans rest tokens → Scans (c :: text) (token :: tokens)

theorem scan_of_scans {cs : List Char} {tokens : List Token} (h : Scans cs tokens) :
    scan cs = some tokens := by
  -- as much fuel as there are characters, or more
  have hloop : ∀ fuel, cs.length ≤ fuel → scanLoop fuel cs = some tokens := by
    induction h with
    | done =>
      intro fuel _
      cases fuel <;> rfl
    | @space c rest tokens hspace _ ih =>
      intro fuel hfuel
      rw [List.length_cons] at hfuel
      cases fuel with
      | zero => omega
      | succ fuel =>
        rw [scanLoop, if_pos hspace]
        exact ih fuel (by omega)
    | @token c text rest token tokens hspace htoken hshort _ ih =>
      intro fuel hfuel
      rw [List.length_cons] at hfuel
      cases fuel with
      | zero => omega
      | succ fuel =>
        have hrest := ih fuel (by omega)
        rw [scanLoop, if_neg (by rw [hspace]; decide), htoken]
        show (scanLoop fuel rest >>= fun tokens => some (token :: tokens)) = _
        rw [hrest]
        rfl
  exact hloop cs.length (Nat.le_refl _)

namespace Scans

variable {c : Char} {rest : List Char} {token : Token} {tokens : List Token}

/-- A token of several characters. -/
theorem append (text : List Char) (hspace : isSpace c = false)
    (htoken : scanToken c (text ++ rest) = some (token, rest)) (h : Scans rest tokens) :
    Scans (c :: (text ++ rest)) (token :: tokens) := by
  refine .token hspace htoken ?_ h
  rw [List.length_append]
  omega

/-- A character that is a token by itself. -/
theorem mark (hspace : isSpace c = false) (htoken : ∀ rest, scanToken c rest = some (token, rest))
    (h : Scans rest tokens) : Scans (c :: rest) (token :: tokens) :=
  .token hspace (htoken rest) (Nat.le_refl _) h

theorem breakLine (depth : Nat) (h : Scans rest tokens) : Scans (breakLine depth ++ rest) tokens := by
  have hsteps : ∀ n, Scans (List.replicate n ' ' ++ rest) tokens := by
    intro n
    induction n with
    | zero => exact h
    | succ n ih => exact .space rfl ih
  exact .space rfl (hsteps (2 * depth))

end Scans

/-! ## Strings -/

section Strings

variable (done rest : List Char)

/-- Below the space, a character is given by the two hexadecimal digits of its number. -/
theorem hexNumber?_hexDigit {n : Nat} (h : n < 32) :
    hexNumber? ['0', '0', hexDigit (n / 16), hexDigit (n % 16)] = some n := by
  have hall : ∀ n < 32, hexNumber? ['0', '0', hexDigit (n / 16), hexDigit (n % 16)] = some n := by
    decide
  exact hall n h

/-- A unit that is no half of a pair is a character. -/
theorem addUnit_of_lt {n : Nat} (h : n < 32) :
    ({ done } : Unfinished).addUnit n = { done := Char.ofNat n :: done } := by
  have hhigh : isHighSurrogate n = false := by
    simp only [isHighSurrogate, Bool.and_eq_false_iff, decide_eq_false_iff_not]
    omega
  have hlow : isLowSurrogate n = false := by
    simp only [isLowSurrogate, Bool.and_eq_false_iff, decide_eq_false_iff_not]
    omega
  simp only [Unfinished.addUnit, hhigh, hlow]
  rfl

/-- Every character is read back from its form. -/
theorem scanString_escapeChar (c : Char) :
    scanString { done } (escapeChar c ++ rest) = scanString { done := c :: done } rest := by
  rw [escapeChar]
  split_ifs with hquote hbackslash hb hf hn hr ht hcontrol
  · rw [hquote]; rfl
  · rw [hbackslash]; rfl
  · rw [hb]; rfl
  · rw [hf]; rfl
  · rw [hn]; rfl
  · rw [hr]; rfl
  · rw [ht]; rfl
  · -- the number of the character, in hexadecimal digits
    have hlt : c.toNat < 32 := hcontrol
    show scanString { done } ('\\' :: 'u' :: '0' :: '0' :: hexDigit (c.toNat / 16) ::
      hexDigit (c.toNat % 16) :: rest) = _
    rw [scanString, hexNumber?_hexDigit hlt]
    show scanString (({ done } : Unfinished).addUnit c.toNat) rest = _
    rw [addUnit_of_lt done hlt, Char.ofNat_toNat]
  · rw [List.singleton_append, scanString, if_neg hcontrol]
    · rfl
    · exact hquote
    · exact fun _ _ _ _ _ hc _ => hbackslash hc
    · exact fun _ _ hc _ => hbackslash hc

/-- A text is read back from its characters' forms and the mark behind them. -/
theorem scanString_flatMap (cs : List Char) :
    scanString { done } (cs.flatMap escapeChar ++ '"' :: rest) =
      some (some (String.ofList (done.reverse ++ cs)), rest) := by
  induction cs generalizing done with
  | nil =>
    rw [List.append_nil]
    rfl
  | cons c cs ih =>
    rw [List.flatMap_cons, List.append_assoc, scanString_escapeChar, ih, List.reverse_cons,
      List.append_assoc, List.singleton_append]

end Strings

theorem Scans.quote {rest : List Char} {tokens : List Token} (s : String) (h : Scans rest tokens) :
    Scans (Json.quote s ++ rest) (.text (some s) :: tokens) := by
  have htext : Json.quote s ++ rest = '"' :: (s.toList.flatMap escapeChar ++ ['"'] ++ rest) := by
    simp [Json.quote]
  have hscan := scanString_flatMap [] rest s.toList
  rw [List.reverse_nil, List.nil_append, String.ofList_toList] at hscan
  rw [htext]
  refine .append _ rfl ?_ h
  rw [List.append_assoc]
  show (scanString {} (s.toList.flatMap escapeChar ++ '"' :: rest)).map _ = _
  rw [hscan]
  rfl

/-! ## Numerals -/

/-- What may stand behind a numeral: no digit, and nothing that would make it go on as a fraction. -/
def Ends (rest : List Char) : Prop :=
  ∀ c, rest.head? = some c → c.isDigit = false ∧ c ≠ '.' ∧ c ≠ 'e' ∧ c ≠ 'E'

/-- The integers of 64 bits, with or without a sign. -/
def IsWord (n : Int) : Prop := -(Nat.pow 2 63 : Int) ≤ n ∧ n < (Nat.pow 2 64 : Int)

theorem isWord_iff {n : Int} :
    IsWord n ↔ -9223372036854775808 ≤ n ∧ n < 18446744073709551616 := by
  have hsigned : (Nat.pow 2 63 : Int) = 9223372036854775808 := by decide
  have hunsigned : (Nat.pow 2 64 : Int) = 18446744073709551616 := by decide
  rw [IsWord, hsigned, hunsigned]

/-- The digits of a number start with a digit. -/
theorem exists_toDigits (m : Nat) :
    ∃ c digits, Nat.toDigits 10 m = c :: digits ∧ c.isDigit = true := by
  have hne : Nat.toDigits 10 m ≠ [] := Nat.toDigits_ne_nil
  obtain ⟨c, digits, hdigits⟩ := List.exists_cons_of_ne_nil hne
  have hmem : c ∈ Nat.toDigits 10 m := by
    rw [hdigits]
    exact List.mem_cons_self
  exact ⟨c, digits, hdigits, Nat.isDigit_of_mem_toDigits (by decide) (by decide) hmem⟩

section Numerals

variable {rest : List Char} {digits : List Char}

theorem spanDigits_append (hdigits : ∀ c ∈ digits, c.isDigit = true) (hrest : Ends rest) :
    spanDigits (digits ++ rest) = (digits, rest) := by
  have hstop : rest.takeWhile Char.isDigit = [] ∧ rest.dropWhile Char.isDigit = rest := by
    cases rest with
    | nil => exact ⟨rfl, rfl⟩
    | cons c rest =>
      have hc : c.isDigit = false := (hrest c rfl).1
      simp [hc]
  rw [spanDigits, List.takeWhile_append_of_pos hdigits, List.dropWhile_append_of_pos hdigits,
    hstop.1, hstop.2, List.append_nil]

/-- Only the numeral of zero starts with a zero. -/
theorem head?_toDigits_ne {m : Nat} (h : m ≠ 0) : (Nat.toDigits 10 m).head? ≠ some '0' := by
  induction m using Nat.strongRecOn with
  | ind m ih =>
    rw [Nat.toDigits_eq_if (by decide)]
    by_cases hlt : m < 10
    · have hall : ∀ m < 10, m ≠ 0 → Nat.digitChar m ≠ '0' := by decide
      rw [if_pos hlt]
      exact fun hhead => hall m hlt h (Option.some.inj hhead)
    · -- the first digit is that of a tenth
      have hrest := ih (m / 10) (by omega) (by omega)
      rw [if_neg hlt, List.head?_append_of_ne_nil _ Nat.toDigits_ne_nil]
      exact hrest

/-- The digits of a number are the whole part of a numeral. -/
theorem scanWhole_toDigits (m : Nat) (hrest : Ends rest) :
    scanWhole (Nat.toDigits 10 m ++ rest) = some (Nat.toDigits 10 m, rest) := by
  by_cases hm : m = 0
  · rw [hm, Nat.toDigits_zero]
    rfl
  · have hdigits : ∀ c ∈ Nat.toDigits 10 m, c.isDigit = true :=
      fun c hc => Nat.isDigit_of_mem_toDigits (by decide) (by decide) hc
    have hne : (Nat.toDigits 10 m).isEmpty = false := by simp
    rw [scanWhole, spanDigits_append hdigits hrest]
    · dsimp only
      rw [hne]
      rfl
    · intro behind hzero
      have hhead := congrArg List.head? hzero
      rw [List.head?_append_of_ne_nil _ Nat.toDigits_ne_nil] at hhead
      exact head?_toDigits_ne hm hhead

theorem scanPlaces_of_ends (hrest : Ends rest) : scanPlaces rest = some (none, rest) := by
  rw [scanPlaces]
  intro behind hpoint
  exact (hrest '.' (by rw [hpoint]; rfl)).2.1 rfl

theorem scanExponent_of_ends (hrest : Ends rest) : scanExponent rest = some (none, rest) := by
  cases rest with
  | nil => rfl
  | cons c rest =>
    obtain ⟨-, -, he, hE⟩ := hrest c rfl
    rw [scanExponent, if_neg (by simp [he, hE])]

/-- What is read of an integer: its sign and its digits. -/
def integerNumeral (n : Int) : Decimal.Numeral := ⟨decide (n < 0), Nat.toDigits 10 n.natAbs, none, none⟩

theorem scanNumeral_intText (n : Int) (hrest : Ends rest) :
    scanNumeral (intText n ++ rest) = some (integerNumeral n, rest) := by
  by_cases hsign : n < 0
  · simp [scanNumeral, intText, integerNumeral, hsign, scanWhole_toDigits _ hrest,
      scanPlaces_of_ends hrest, scanExponent_of_ends hrest]
  · -- the first digit is no sign
    obtain ⟨c, digits, hdigits, hdigit⟩ := exists_toDigits n.natAbs
    have hc : c ≠ '-' := by
      rintro rfl
      exact absurd hdigit (by decide)
    have hplain : ∀ tail, c :: (digits ++ rest) ≠ '-' :: tail :=
      fun _ htail => hc (List.cons.inj htail).1
    have hwhole : scanWhole (c :: (digits ++ rest)) = some (c :: digits, rest) := by
      rw [← List.cons_append, ← hdigits, scanWhole_toDigits _ hrest]
    simp [scanNumeral, intText, integerNumeral, hsign, hdigits, hwhole, scanPlaces_of_ends hrest,
      scanExponent_of_ends hrest]

/-- An integer of 64 bits is the number that its numeral denotes. -/
theorem number?_integerNumeral {n : Int} (hn : IsWord n) :
    number? (integerNumeral n) = some (.int n) := by
  have hvalue : Decimal.digitsValue 0 (Nat.toDigits 10 n.natAbs) = n.natAbs :=
    Nat.ofDigitChars_ten_toDigits
  have hword : Decimal.maxWord = Nat.pow 2 64 - 1 := rfl
  obtain ⟨hlow, hhigh⟩ := isWord_iff.mp hn
  rw [number?, integerNumeral]
  dsimp only
  rw [hvalue]
  by_cases hsign : n < 0
  · have hsmall : 0 < n.natAbs ∧ n.natAbs ≤ Nat.pow 2 63 := by
      have hpower : Nat.pow 2 63 = 9223372036854775808 := by decide
      omega
    have hback : -(n.natAbs : Int) = n := by omega
    rw [if_neg (by simp only [hsign, decide_true, Bool.not_true, Bool.and_false, Bool.false_and,
      Bool.false_eq_true, not_false_eq_true]), if_pos, hback]
    simp only [hsign, hsmall.1, hsmall.2, Option.isNone_none, decide_true, Bool.and_true]
  · have hsmall : n.natAbs ≤ Decimal.maxWord := by
      have hpower : Nat.pow 2 64 = 18446744073709551616 := by decide
      omega
    have hback : (n.natAbs : Int) = n := by omega
    rw [if_pos, hback]
    simp only [hsign, hsmall, Option.isNone_none, decide_true, decide_false, Bool.not_false,
      Bool.and_true]

/-- What starts with a digit or a minus sign is a numeral. -/
theorem scanToken_numeral {c : Char} (hc : c = '-' ∨ c.isDigit = true) (rest : List Char) :
    isSpace c = false ∧ scanToken c rest =
      (scanNumeral (c :: rest)).map fun (n, rest) => (.scalar ((number? n).map .number), rest) := by
  rcases hc with rfl | hc
  · exact ⟨rfl, rfl⟩
  · have hne : ∀ d : Char, d.isDigit = false → c ≠ d := by
      rintro d hd rfl
      rw [hc] at hd
      cases hd
    constructor
    · simp [isSpace, hne]
    · rw [scanToken, if_pos (by simp [hc])]
      all_goals exact hne _ rfl

end Numerals

theorem Scans.intText {rest : List Char} {tokens : List Token} {n : Int} (hn : IsWord n)
    (hrest : Ends rest) (h : Scans rest tokens) :
    Scans (intText n ++ rest) (.scalar (some (.number (.int n))) :: tokens) := by
  have hnumeral := scanNumeral_intText n hrest
  -- a sign or a digit comes first
  have hfirst : ∃ c text, Json.intText n = c :: text ∧ (c = '-' ∨ c.isDigit = true) := by
    obtain ⟨c, digits, hdigits, hdigit⟩ := exists_toDigits n.natAbs
    rw [Json.intText]
    by_cases hsign : n < 0
    · exact ⟨'-', _, if_pos hsign, .inl rfl⟩
    · rw [if_neg hsign]
      exact ⟨c, digits, hdigits, .inr hdigit⟩
  obtain ⟨c, text, htext, hc⟩ := hfirst
  obtain ⟨hspace, htoken⟩ := scanToken_numeral hc (text ++ rest)
  rw [htext, List.cons_append] at hnumeral ⊢
  refine .append text hspace ?_ h
  rw [htoken, hnumeral]
  show some (Token.scalar ((number? (integerNumeral n)).map Value.number), rest) = _
  rw [number?_integerNumeral hn]
  rfl

/-! ## Data -/

/-- Plain data that JSON text can hold as it is: integers of 64 bits and no other numbers, and no more
than so many lists and objects inside one another. -/
inductive Fits : Nat → Value → Prop where
  | null {levels : Nat} : Fits levels .null
  | bool {levels : Nat} (b : Bool) : Fits levels (.bool b)
  | number {levels : Nat} {n : Int} : IsWord n → Fits levels (.number (.int n))
  | text {levels : Nat} (s : String) : Fits levels (.text s)
  | list {levels : Nat} {items : List Value} : (∀ v ∈ items, Fits levels v) →
      Fits (levels + 1) (.list items)
  | object {levels : Nat} {members : List (String × Value)} : (∀ m ∈ members, Fits levels m.2) →
      Fits (levels + 1) (.object members)

mutual

/-- The tokens of plain data. -/
def tokensOf : Value → List Token
  | .text s => [.text (some s)]
  | .list items => .openList :: itemTokens items ++ [.closeList]
  | .object members => .openObject :: memberTokens members ++ [.closeObject]
  | v => [.scalar (some v)]

def itemTokens : List Value → List Token
  | [] => []
  | [v] => tokensOf v
  | v :: rest => tokensOf v ++ .comma :: itemTokens rest

def memberTokens : List (String × Value) → List Token
  | [] => []
  | [(key, v)] => .text (some key) :: .colon :: tokensOf v
  | (key, v) :: rest => .text (some key) :: .colon :: tokensOf v ++ .comma :: memberTokens rest

end

/-- The text is read as the tokens, whatever may follow a numeral and whatever that is read as. -/
def Spells (text : List Char) (tokens : List Token) : Prop :=
  ∀ rest more, Ends rest → Scans rest more → Scans (text ++ rest) (tokens ++ more)

theorem ends_cons {c : Char} {rest : List Char}
    (h : c.isDigit = false ∧ c ≠ '.' ∧ c ≠ 'e' ∧ c ≠ 'E') : Ends (c :: rest) := by
  intro d hd
  rwa [← Option.some.inj hd]

theorem spells_prettyItems {items : List Value}
    (h : ∀ v ∈ items, ∀ depth, Spells (prettyChars depth v) (tokensOf v)) (depth : Nat) :
    Spells (prettyItems depth items) (itemTokens items) := by
  induction items with
  | nil => exact fun rest more _ hrest => hrest
  | cons v items ih =>
    obtain ⟨hfirst, hothers⟩ := List.forall_mem_cons.mp h
    intro rest more hends hrest
    cases items with
    | nil =>
      rw [prettyItems, itemTokens, List.append_assoc]
      exact .breakLine depth (hfirst depth rest more hends hrest)
    | cons w items =>
      have hcomma : Scans (',' :: (prettyItems depth (w :: items) ++ rest))
          (.comma :: (itemTokens (w :: items) ++ more)) :=
        .mark rfl (fun _ => rfl) (ih hothers rest more hends hrest)
      have hvalue := hfirst depth _ _ (ends_cons (by decide)) hcomma
      have hline := hvalue.breakLine depth
      rw [prettyItems, itemTokens]
      · simpa using hline
      · exact nofun
      · exact nofun

theorem spells_prettyMembers {members : List (String × Value)}
    (h : ∀ m ∈ members, ∀ depth, Spells (prettyChars depth m.2) (tokensOf m.2)) (depth : Nat) :
    Spells (prettyMembers depth members) (memberTokens members) := by
  -- the key, the colon and the space before the value
  have hkey : ∀ key rest more, Scans rest more →
      Scans (breakLine depth ++ quote key ++ ':' :: ' ' :: rest)
        (.text (some key) :: .colon :: more) := by
    intro key rest more hrest
    have hcolon : Scans (':' :: ' ' :: rest) (.colon :: more) :=
      .mark rfl (fun _ => rfl) (.space rfl hrest)
    rw [List.append_assoc]
    exact (hcolon.quote key).breakLine depth
  induction members with
  | nil => exact fun rest more _ hrest => hrest
  | cons m members ih =>
    obtain ⟨key, v⟩ := m
    obtain ⟨hfirst, hothers⟩ := List.forall_mem_cons.mp h
    intro rest more hends hrest
    cases members with
    | nil =>
      have hvalue := hkey key _ _ (hfirst depth rest more hends hrest)
      rw [prettyMembers, memberTokens]
      simpa using hvalue
    | cons m members =>
      have hcomma : Scans (',' :: (prettyMembers depth (m :: members) ++ rest))
          (.comma :: (memberTokens (m :: members) ++ more)) :=
        .mark rfl (fun _ => rfl) (ih hothers rest more hends hrest)
      have hvalue := hkey key _ _ (hfirst depth _ _ (ends_cons (by decide)) hcomma)
      rw [prettyMembers, memberTokens]
      · simpa using hvalue
      · exact nofun
      · exact nofun

/-- Data that fits is printed as its tokens. -/
theorem spells_prettyChars {levels : Nat} {v : Value} (h : Fits levels v) (depth : Nat) :
    Spells (prettyChars depth v) (tokensOf v) := by
  induction h generalizing depth with
  | null => exact fun rest more _ hrest => .append ['u', 'l', 'l'] rfl rfl hrest
  | bool b =>
    intro rest more _ hrest
    cases b with
    | true => exact .append ['r', 'u', 'e'] rfl rfl hrest
    | false => exact .append ['a', 'l', 's', 'e'] rfl rfl hrest
  | number hn =>
    intro rest more hends hrest
    exact hrest.intText hn hends
  | text s =>
    intro rest more _ hrest
    exact hrest.quote s
  | @list levels items _ ih =>
    intro rest more _ hrest
    have hclose : Scans (']' :: rest) (.closeList :: more) := .mark rfl (fun _ => rfl) hrest
    cases items with
    | nil => exact .mark rfl (fun _ => rfl) hclose
    | cons v items =>
      have hends : Ends (breakLine depth ++ ']' :: rest) := ends_cons (by decide)
      have hitems := spells_prettyItems ih (depth + 1) _ _ hends (hclose.breakLine depth)
      have hopen : Scans ('[' :: (prettyItems (depth + 1) (v :: items) ++
          (breakLine depth ++ ']' :: rest)))
          (.openList :: (itemTokens (v :: items) ++ .closeList :: more)) :=
        .mark rfl (fun _ => rfl) hitems
      rw [prettyChars, tokensOf]
      · simpa using hopen
      · exact nofun
  | @object levels members _ ih =>
    intro rest more _ hrest
    have hclose : Scans ('\x7d' :: rest) (.closeObject :: more) := .mark rfl (fun _ => rfl) hrest
    cases members with
    | nil => exact .mark rfl (fun _ => rfl) hclose
    | cons m members =>
      have hends : Ends (breakLine depth ++ '\x7d' :: rest) := ends_cons (by decide)
      have hmembers := spells_prettyMembers ih (depth + 1) _ _ hends (hclose.breakLine depth)
      have hopen : Scans ('\x7b' :: (prettyMembers (depth + 1) (m :: members) ++
          (breakLine depth ++ '\x7d' :: rest)))
          (.openObject :: (memberTokens (m :: members) ++ .closeObject :: more)) :=
        .mark rfl (fun _ => rfl) hmembers
      rw [prettyChars, tokensOf]
      · simpa using hopen
      · exact nofun

/-- The text of data that fits is read as its tokens. -/
theorem scan_pretty {levels : Nat} {v : Value} (h : Fits levels v) :
    scan (pretty v).toList = some (tokensOf v) := by
  have hends : Ends [] := nofun
  have hscans := spells_prettyChars h 0 [] [] hends .done
  rw [List.append_nil, List.append_nil] at hscans
  rw [pretty, String.toList_ofList]
  exact scan_of_scans hscans

end BootTree.Json

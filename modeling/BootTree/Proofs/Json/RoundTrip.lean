/-
  JSON documents, printed and read again.

  1. **Reading what was printed** — the machine that reads the tokens of data puts them where a value
     is expected, as long as the lists and objects around it leave room for those inside it
     (`run_tokensOf`).  So data that fits is read back from its text as the document that says just
     that (`parse_pretty`), and plain data without repeated keys as itself (`read_pretty`).

  2. **Reading any text** — whatever is read from a JSON text fits (`within_of_parse`): a list or an
     object with too many others around it cannot be read, an integer of more than 64 bits is no
     integer, and no key comes twice.  Hence all data that was read from a JSON text, with whole
     numbers only, can be printed and read again.
-/
import BootTree.Json.Parser
import BootTree.Proofs.Json.Tokens
import BootTree.Proofs.Source

namespace BootTree

namespace Json

/-! ## Reading what was printed -/

namespace State

/-- A value may start here. -/
def StartsValue (focus : Focus) : Prop := focus = .value ∨ focus = .itemOrClose

/-- A member may start here. -/
def StartsMember (focus : Focus) : Prop := focus = .key ∨ focus = .keyOrClose

variable {levels : Nat} {frames : List Frame} {focus : Focus}

theorem run_single (st : State) (token : Token) : st.run [token] = st.step token := by
  show (st.step token >>= pure) = st.step token
  rw [bind_pure]

theorem run_append (st : State) (first second : List Token) :
    st.run (first ++ second) = st.run first >>= fun st => st.run second :=
  List.foldlM_append

theorem run_cons (st : State) (token : Token) (rest : List Token) :
    st.run (token :: rest) = st.step token >>= fun st => st.run rest := rfl

theorem step_of_startsValue (h : StartsValue focus) {token : Token} (htoken : token ≠ .closeList) :
    step ⟨frames, focus⟩ token = startValue ⟨frames, focus⟩ token := by
  rcases h with rfl | rfl
  · rfl
  · cases token with
    | closeList => exact absurd rfl htoken
    | _ => rfl

theorem step_of_startsMember (h : StartsMember focus) (entries : List (Option String × Source))
    (key : Option String) : step ⟨.object entries :: frames, focus⟩ (.text key) =
      some ⟨.member entries key :: frames, .colon⟩ := by
  rcases h with rfl | rfl <;> rfl

/-- Where a value may start and there is room for so many levels, the tokens of the value put it
there. -/
def Reads (levels : Nat) (v : Value) : Prop :=
  ∀ (frames : List Frame) (focus : Focus), frames.length + levels ≤ depthLimit →
    StartsValue focus → run ⟨frames, focus⟩ (tokensOf v) = accept frames (.ofValue v)

theorem run_itemTokens {items : List Value} (h : ∀ v ∈ items, Reads levels v) (hne : items ≠ [])
    (hroom : frames.length + 1 + levels ≤ depthLimit) (hfocus : StartsValue focus)
    (done : List Source) : run ⟨.list done :: frames, focus⟩ (itemTokens items) =
      some ⟨.list ((Source.ofValues items).reverse ++ done) :: frames, .commaOrClose⟩ := by
  induction items generalizing done focus with
  | nil => exact absurd rfl hne
  | cons v items ih =>
    obtain ⟨hfirst, hothers⟩ := List.forall_mem_cons.mp h
    have hvalue := hfirst (.list done :: frames) focus hroom hfocus
    cases items with
    | nil =>
      rw [itemTokens, hvalue]
      rfl
    | cons w items =>
      have hrest := ih hothers (by simp) (.inl rfl) (.ofValue v :: done)
      rw [itemTokens, run_append, hvalue]
      · show run ⟨.list (.ofValue v :: done) :: frames, .value⟩ (itemTokens (w :: items)) = _
        have hlist : (Source.ofValues (v :: w :: items)).reverse ++ done =
            (Source.ofValues (w :: items)).reverse ++ .ofValue v :: done := by
          rw [Source.ofValues, List.reverse_cons, List.append_assoc, List.singleton_append]
        rw [hrest, hlist]
      · exact List.cons_ne_nil _ _

theorem run_memberTokens {members : Fields} (h : ∀ m ∈ members, Reads levels m.2)
    (hne : members ≠ []) (hroom : frames.length + 1 + levels ≤ depthLimit)
    (hfocus : StartsMember focus) (done : List (Option String × Source)) :
    run ⟨.object done :: frames, focus⟩ (memberTokens members) =
      some ⟨.object ((Source.ofFields members).reverse ++ done) :: frames, .commaOrClose⟩ := by
  induction members generalizing done focus with
  | nil => exact absurd rfl hne
  | cons m members ih =>
    obtain ⟨key, v⟩ := m
    obtain ⟨hfirst, hothers⟩ := List.forall_mem_cons.mp h
    have hvalue := hfirst (.member done (some key) :: frames) .value hroom (.inl rfl)
    have hmember : run ⟨.object done :: frames, focus⟩ (.text (some key) :: .colon :: tokensOf v) =
        some ⟨.object ((some key, .ofValue v) :: done) :: frames, .commaOrClose⟩ := by
      rw [run_cons, step_of_startsMember hfocus]
      exact hvalue
    cases members with
    | nil =>
      rw [memberTokens, hmember]
      rfl
    | cons m members =>
      have hrest := ih hothers (by simp) (.inl rfl) ((some key, .ofValue v) :: done)
      rw [memberTokens, run_append, hmember]
      · show run ⟨.object ((some key, .ofValue v) :: done) :: frames, .key⟩
          (memberTokens (m :: members)) = _
        have hlist : (Source.ofFields ((key, v) :: m :: members)).reverse ++ done =
            (Source.ofFields (m :: members)).reverse ++ (some key, .ofValue v) :: done := by
          rw [Source.ofFields, List.reverse_cons, List.append_assoc, List.singleton_append]
        rw [hrest, hlist]
      · exact List.cons_ne_nil _ _

theorem closeList_eq (h : frames.length < depthLimit) (items : List Source) (focus : Focus) :
    closeList ⟨.list items :: frames, focus⟩ = accept frames (.list .strict items.reverse) := by
  rw [closeList]
  dsimp only
  rw [if_pos h]

theorem closeObject_eq (h : frames.length < depthLimit) (entries : List (Option String × Source))
    (focus : Focus) :
    closeObject ⟨.object entries :: frames, focus⟩ = accept frames (.record entries.reverse) := by
  rw [closeObject]
  dsimp only
  rw [if_pos h]

/-- The tokens of data that fits put it where a value is expected. -/
theorem run_tokensOf {v : Value} (h : Fits levels v) : Reads levels v := by
  induction h with
  | null | bool | number | text =>
    intro frames focus _ hfocus
    rw [tokensOf, run_single, step_of_startsValue hfocus (by simp)]
    · rfl
    all_goals simp
  | @list levels items _ ih =>
    intro frames focus hroom hfocus
    have hclose : ∀ done focus, closeList ⟨.list done :: frames, focus⟩ =
        accept frames (.list .strict done.reverse) := closeList_eq (by omega)
    rw [tokensOf, List.cons_append, run_cons, step_of_startsValue hfocus (by simp)]
    show run ⟨.list [] :: frames, .itemOrClose⟩ (itemTokens items ++ [.closeList]) = _
    rw [run_append]
    by_cases hne : items = []
    · rw [hne]
      exact (run_single ⟨.list [] :: frames, .itemOrClose⟩ _).trans (hclose [] .itemOrClose)
    · rw [run_itemTokens ih hne (by omega) (.inr rfl), List.append_nil]
      show run ⟨.list (Source.ofValues items).reverse :: frames, .commaOrClose⟩ [.closeList] = _
      rw [run_single]
      show closeList ⟨.list (Source.ofValues items).reverse :: frames, .commaOrClose⟩ = _
      rw [hclose, List.reverse_reverse, Source.ofValue]
  | @object levels members _ ih =>
    intro frames focus hroom hfocus
    have hclose : ∀ done focus, closeObject ⟨.object done :: frames, focus⟩ =
        accept frames (.record done.reverse) := closeObject_eq (by omega)
    rw [tokensOf, List.cons_append, run_cons, step_of_startsValue hfocus (by simp)]
    show run ⟨.object [] :: frames, .keyOrClose⟩ (memberTokens members ++ [.closeObject]) = _
    rw [run_append]
    by_cases hne : members = []
    · rw [hne]
      exact (run_single ⟨.object [] :: frames, .keyOrClose⟩ _).trans (hclose [] .keyOrClose)
    · rw [run_memberTokens ih hne (by omega) (.inr rfl), List.append_nil]
      show run ⟨.object (Source.ofFields members).reverse :: frames, .commaOrClose⟩
        [.closeObject] = _
      rw [run_single]
      show closeObject ⟨.object (Source.ofFields members).reverse :: frames, .commaOrClose⟩ = _
      rw [hclose, List.reverse_reverse, Source.ofValue]

end State

/-- The text of data that fits is the document that says just that, key for key. -/
theorem parse_pretty {v : Value} (h : Fits State.depthLimit v) :
    parse (pretty v) = some (.ofValue v) := by
  have hrun : State.start.run (tokensOf v) = State.accept [] (.ofValue v) :=
    State.run_tokensOf h [] .value (by simp) (.inl rfl)
  rw [parse, scan_pretty h]
  show State.start.run (tokensOf v) >>= _ = _
  rw [hrun]
  rfl

/-- Plain data that fits is read back from its text. -/
theorem read_pretty {v : Value} (h : Fits State.depthLimit v) (hkeys : v.DistinctKeys) :
    read (pretty v) = some v := by
  rw [read, parse_pretty h]
  exact Source.value?_ofValue hkeys

/-! ## Reading any text -/

end Json

/-- All numbers in the data are integers. -/
inductive Value.WholeNumbers : Value → Prop where
  | null : WholeNumbers .null
  | bool (b : Bool) : WholeNumbers (.bool b)
  | number (n : Int) : WholeNumbers (.number (.int n))
  | text (s : String) : WholeNumbers (.text s)
  | list {items : List Value} : (∀ v ∈ items, WholeNumbers v) → WholeNumbers (.list items)
  | object {members : Fields} : (∀ m ∈ members, WholeNumbers m.2) → WholeNumbers (.object members)

/-- What is read from the document has no key twice, and fits if its numbers are whole. -/
def Source.Within (levels : Nat) (s : Source) : Prop :=
  ∀ v, s.value? = some v → v.DistinctKeys ∧ (v.WholeNumbers → Json.Fits levels v)

namespace Source

variable {levels : Nat}

theorem within_unreadable : Within levels .unreadable := by
  intro v hread
  cases hread

theorem within_text (s : String) : Within levels (.atom (.text s)) := by
  rintro v ⟨⟩
  exact ⟨.text s, fun _ => .text s⟩

theorem within_list {items : List Source} (h : ∀ s ∈ items, s.Within levels)
    (positional : Positional) : Within (levels + 1) (.list positional items) := by
  intro v hread
  rw [value?] at hread
  obtain ⟨vs, hvs, rfl⟩ := Option.map_eq_some_iff.mp hread
  have hall := forall_of_values? h hvs
  refine ⟨.list fun v hv => (hall v hv).1, ?_⟩
  rintro (_ | _ | _ | _ | hwhole)
  exact .list fun v hv => (hall v hv).2 (hwhole v hv)

theorem within_record {entries : List (Option String × Source)}
    (h : ∀ e ∈ entries, e.2.Within levels) : Within (levels + 1) (.record entries) := by
  intro v hread
  rw [value?] at hread
  obtain ⟨fields, hfields, rfl⟩ := Option.map_eq_some_iff.mp hread
  have hall := forall_of_fields? h (List.forall_mem_nil _) hfields
  have hnone : (Fields.keys []).Nodup := List.nodup_nil
  refine ⟨.object (nodup_keys_fields? hnone hfields) fun m hm => (hall m hm).1, ?_⟩
  rintro (_ | _ | _ | _ | _ | hwhole)
  exact .object fun m hm => (hall m hm).2 (hwhole m hm)

end Source

namespace Json

/-- What the token says by itself fits, however little room there is. -/
def Token.Within (token : Token) : Prop :=
  ∀ v, token = .scalar (some v) → ∀ levels, Source.Within levels (.atom v)

theorem isWord_of_number? {n : Decimal.Numeral} {i : Int} (h : number? n = some (.int i)) :
    IsWord i := by
  have hword : Decimal.maxWord = Nat.pow 2 64 - 1 := rfl
  have hpowers : Nat.pow 2 63 = 9223372036854775808 ∧ Nat.pow 2 64 = 18446744073709551616 := by
    decide
  rw [number?] at h
  split at h
  · next hplain =>
    simp only [Bool.and_eq_true, decide_eq_true_eq] at hplain
    cases h
    exact isWord_iff.mpr ⟨by omega, by omega⟩
  · split at h
    · next hnegative =>
      simp only [Bool.and_eq_true, decide_eq_true_eq] at hnegative
      cases h
      exact isWord_iff.mpr ⟨by omega, by omega⟩
    · -- what was scaled is a double
      obtain ⟨d, -, hd⟩ := Option.map_eq_some_iff.mp h
      cases hd

theorem within_of_number {n : Decimal.Numeral} {x : Number} (h : number? n = some x)
    (levels : Nat) : Source.Within levels (.atom (.number x)) := by
  rintro v ⟨⟩
  refine ⟨.number x, ?_⟩
  rintro (_ | _ | i)
  exact .number (isWord_of_number? h)

theorem within_of_scanWord {cs rest : List Char} {v : Value} (h : scanWord cs = some (v, rest))
    (levels : Nat) : Source.Within levels (.atom v) := by
  rw [scanWord.eq_def] at h
  split at h <;> cases h
  · rintro v ⟨⟩
    exact ⟨.null, fun _ => .null⟩
  · rintro v ⟨⟩
    exact ⟨.bool true, fun _ => .bool true⟩
  · rintro v ⟨⟩
    exact ⟨.bool false, fun _ => .bool false⟩

theorem within_of_scanToken {c : Char} {text rest : List Char} {token : Token}
    (h : scanToken c text = some (token, rest)) : token.Within := by
  intro v hv levels
  subst hv
  rw [scanToken.eq_def] at h
  split at h
  · cases h
  · cases h
  · cases h
  · cases h
  · cases h
  · cases h
  · obtain ⟨result, -, hresult⟩ := Option.map_eq_some_iff.mp h
    cases hresult
  · split at h
    · obtain ⟨⟨n, behind⟩, -, hresult⟩ := Option.map_eq_some_iff.mp h
      obtain ⟨hscalar, -⟩ := Prod.mk.inj hresult
      obtain ⟨x, hx, rfl⟩ := Option.map_eq_some_iff.mp (Token.scalar.inj hscalar)
      exact within_of_number hx levels
    · obtain ⟨⟨w, behind⟩, hword, hresult⟩ := Option.map_eq_some_iff.mp h
      cases hresult
      exact within_of_scanWord hword levels

theorem within_of_scan {cs : List Char} {tokens : List Token} (h : scan cs = some tokens) :
    ∀ token ∈ tokens, token.Within := by
  have hloop : ∀ fuel cs tokens, scanLoop fuel cs = some tokens → ∀ token ∈ tokens, token.Within := by
    intro fuel
    induction fuel with
    | zero =>
      intro cs tokens hscan
      cases cs with
      | nil =>
        cases hscan
        exact List.forall_mem_nil _
      | cons c cs => cases hscan
    | succ fuel ih =>
      intro cs tokens hscan
      cases cs with
      | nil =>
        cases hscan
        exact List.forall_mem_nil _
      | cons c cs =>
        rw [scanLoop] at hscan
        split at hscan
        · exact ih cs tokens hscan
        · obtain ⟨⟨token, rest⟩, htoken, hscan⟩ := Option.bind_eq_some_iff.mp hscan
          obtain ⟨others, hothers, hscan⟩ := Option.bind_eq_some_iff.mp hscan
          cases hscan
          exact List.forall_mem_cons.mpr ⟨within_of_scanToken htoken, ih rest others hothers⟩
  exact hloop cs.length cs tokens h

/-- All parts of the frame are within so many levels. -/
def Frame.Within (levels : Nat) : Frame → Prop
  | .list items => ∀ s ∈ items, s.Within levels
  | .object entries => ∀ e ∈ entries, e.2.Within levels
  | .member entries _ => ∀ e ∈ entries, e.2.Within levels

namespace State

/-- The parts of every open list and object are within what those around it leave. -/
def FramesWithin : List Frame → Prop
  | [] => True
  | frame :: frames => frame.Within (depthLimit - (frames.length + 1)) ∧ FramesWithin frames

/-- All that was read so far is within what may be around it. -/
structure Within (st : State) : Prop where
  frames : FramesWithin st.frames
  document : ∀ s, st.focus = .finished s → s.Within depthLimit

variable {st st' : State} {frames : List Frame}

theorem within_start : start.Within := ⟨trivial, nofun⟩

theorem within_accept {s : Source} (hframes : FramesWithin frames)
    (hs : s.Within (depthLimit - frames.length)) (h : accept frames s = some st) : st.Within := by
  rw [accept.eq_def] at h
  split at h
  · cases h
    refine ⟨trivial, ?_⟩
    rintro s' ⟨⟩
    exact hs
  · cases h
    exact ⟨⟨List.forall_mem_cons.mpr ⟨hs, hframes.1⟩, hframes.2⟩, nofun⟩
  · cases h
    exact ⟨⟨List.forall_mem_cons.mpr ⟨hs, hframes.1⟩, hframes.2⟩, nofun⟩
  · cases h

/-- What is closed has one level more than its parts, if it can be read at all. -/
theorem within_close {s : Source} (hframes : FramesWithin frames)
    (hs : s.Within (depthLimit - (frames.length + 1) + 1))
    (h : accept frames (if frames.length < depthLimit then s else .unreadable) = some st) :
    st.Within := by
  refine within_accept hframes ?_ h
  split
  · next hroom =>
    have hlevels : depthLimit - frames.length = depthLimit - (frames.length + 1) + 1 := by omega
    rw [hlevels]
    exact hs
  · exact Source.within_unreadable

theorem within_closeList (hst : st.Within) (h : st.closeList = some st') : st'.Within := by
  have hframes := hst.frames
  rw [closeList.eq_def] at h
  split at h
  · next items frames hopen =>
    rw [hopen] at hframes
    have hitems : ∀ s ∈ items.reverse, s.Within (depthLimit - (frames.length + 1)) :=
      fun s hs => hframes.1 s (List.mem_reverse.mp hs)
    exact within_close hframes.2 (Source.within_list hitems _) h
  · cases h

theorem within_closeObject (hst : st.Within) (h : st.closeObject = some st') : st'.Within := by
  have hframes := hst.frames
  rw [closeObject.eq_def] at h
  split at h
  · next entries frames hopen =>
    rw [hopen] at hframes
    have hentries : ∀ e ∈ entries.reverse, e.2.Within (depthLimit - (frames.length + 1)) :=
      fun e he => hframes.1 e (List.mem_reverse.mp he)
    exact within_close hframes.2 (Source.within_record hentries) h
  · cases h

theorem within_startValue {token : Token} (hst : st.Within) (htoken : token.Within)
    (h : st.startValue token = some st') : st'.Within := by
  rw [startValue.eq_def] at h
  split at h
  · cases h
    exact ⟨⟨List.forall_mem_nil _, hst.frames⟩, nofun⟩
  · cases h
    exact ⟨⟨List.forall_mem_nil _, hst.frames⟩, nofun⟩
  · exact within_accept hst.frames (Source.within_text _) h
  · exact within_accept hst.frames Source.within_unreadable h
  · next v => exact within_accept hst.frames (htoken v rfl _) h
  · exact within_accept hst.frames Source.within_unreadable h
  · cases h

theorem within_startMember {token : Token} (hst : st.Within)
    (h : st.startMember token = some st') : st'.Within := by
  have hframes := hst.frames
  rw [startMember.eq_def] at h
  split at h
  · next key entries frames hopen =>
    cases h
    rw [hopen] at hframes
    exact ⟨hframes, nofun⟩
  · cases h

/-- One token keeps all within. -/
theorem within_step {token : Token} (hst : st.Within) (htoken : token.Within)
    (h : st.step token = some st') : st'.Within := by
  -- a colon or a comma leaves what is open as it is
  have hkept : ∀ focus, (∀ s, focus ≠ .finished s) → Within ⟨st.frames, focus⟩ :=
    fun focus hfocus => ⟨hst.frames, fun s hs => absurd hs (hfocus s)⟩
  rw [step.eq_def] at h
  split at h
  · exact within_startValue hst htoken h
  · split at h
    · exact within_closeList hst h
    · exact within_startValue hst htoken h
  · split at h
    · exact within_closeObject hst h
    · exact within_startMember hst h
  · exact within_startMember hst h
  · split at h
    · cases h
      exact hkept .value (by simp)
    · cases h
  · split at h
    · cases h
      exact hkept .value (by simp)
    · cases h
      exact hkept .key (by simp)
    · exact within_closeList hst h
    · exact within_closeObject hst h
    · cases h
  · cases h

/-- All tokens of a text keep all within. -/
theorem within_run {tokens : List Token} (htokens : ∀ token ∈ tokens, token.Within)
    (hst : st.Within) (h : st.run tokens = some st') : st'.Within := by
  induction tokens generalizing st with
  | nil =>
    cases h
    exact hst
  | cons token tokens ih =>
    obtain ⟨hfirst, hothers⟩ := List.forall_mem_cons.mp htokens
    rw [run_cons] at h
    obtain ⟨next, hstep, hrest⟩ := Option.bind_eq_some_iff.mp h
    exact ih hothers (within_step hst hfirst hstep) hrest

end State

/-- Whatever is read from a text has no key twice, and fits if its numbers are whole. -/
theorem within_of_parse {text : String} {s : Source} (h : parse text = some s) :
    s.Within State.depthLimit := by
  rw [parse] at h
  obtain ⟨tokens, htokens, h⟩ := Option.bind_eq_some_iff.mp h
  obtain ⟨st, hst, h⟩ := Option.bind_eq_some_iff.mp h
  have hwithin := State.within_run (within_of_scan htokens) State.within_start hst
  split at h
  · next s' hfinished =>
    cases h
    exact hwithin.document s hfinished
  · cases h

end Json

end BootTree

/-
  The text of a menu determines the menu.

  The format has no escapes, so what keeps it unambiguous is that the parts of a menu stay within
  their lines (`Menu.Plain`).

  1. **Lines** — two texts that agree have the same first line (`eq_of_line`).

  2. **Entries** — the label and the name together tell the kind (`kind_eq_of_label`), and the first
     space of the command line ends the initial ram disk (`eq_of_commandLine`), so two texts that
     begin with the block of an entry begin with the same entry (`eq_of_block`).

  3. **Menus** — a block begins with another word than the end of the menu, so the entries can be
     taken off one by one (`eq_of_blocks`).
-/
import BootTree.Menu

namespace BootTree

/-! ## Lines -/

theorem eq_of_append_cons {α : Type} {c : α} {a b x y : List α} (ha : c ∉ a) (hb : c ∉ b)
    (h : a ++ c :: x = b ++ c :: y) : a = b ∧ x = y := by
  induction a generalizing b with
  | nil =>
    cases b with
    | nil => exact ⟨rfl, (List.cons.inj h).2⟩
    | cons d rest => exact absurd (List.cons.inj h).1 (List.ne_of_not_mem_cons hb)
  | cons d rest ih =>
    cases b with
    | nil => exact absurd (List.cons.inj h).1.symm (List.ne_of_not_mem_cons ha)
    | cons d' rest' =>
      obtain ⟨hd, hrest⟩ := List.cons.inj h
      obtain ⟨hrests, hbehind⟩ :=
        ih (List.not_mem_of_not_mem_cons ha) (List.not_mem_of_not_mem_cons hb) hrest
      exact ⟨by rw [hd, hrests], hbehind⟩

/-- Two texts that agree agree in what stands before the first line feed and in what stands behind.
What stands behind begins with the same words in both. -/
theorem eq_of_line {a b x y : String} (words : String) (hwords : words.toList.head? = some '\n')
    (ha : '\n' ∉ a.toList) (hb : '\n' ∉ b.toList) (h : a ++ (words ++ x) = b ++ (words ++ y)) :
    a = b ∧ x = y := by
  obtain ⟨rest, hrest⟩ := List.head?_eq_some_iff.mp hwords
  have hlist : a.toList ++ '\n' :: (rest ++ x.toList) = b.toList ++ '\n' :: (rest ++ y.toList) := by
    simpa [hrest] using congrArg String.toList h
  obtain ⟨hab, hxy⟩ := eq_of_append_cons ha hb hlist
  exact ⟨String.toList_inj.mp hab, String.toList_inj.mp (List.append_cancel_left hxy)⟩

/-! ## Entries -/

/-- An entry that stays within the lines of its block, its initial ram disk within one word. -/
structure MenuEntry.Plain (e : MenuEntry) : Prop where
  name : '\n' ∉ e.name.toList
  kernel : '\n' ∉ e.kernel.toList
  initrd : '\n' ∉ e.initrd.toList
  initrdWord : ' ' ∉ e.initrd.toList
  append : '\n' ∉ e.append.toList

instance (e : MenuEntry) : Decidable e.Plain :=
  decidable_of_iff ('\n' ∉ e.name.toList ∧ '\n' ∉ e.kernel.toList ∧ '\n' ∉ e.initrd.toList ∧
      ' ' ∉ e.initrd.toList ∧ '\n' ∉ e.append.toList)
    ⟨fun h => ⟨h.1, h.2.1, h.2.2.1, h.2.2.2.1, h.2.2.2.2⟩,
      fun h => ⟨h.name, h.kernel, h.initrd, h.initrdWord, h.append⟩⟩

namespace MenuEntry

variable {e e' : MenuEntry}

theorem Plain.label (h : e.Plain) : '\n' ∉ e.label.toList := by
  rw [MenuEntry.label]
  split
  · exact h.name
  · simpa using h.name

theorem Plain.commandLine (h : e.Plain) : '\n' ∉ e.commandLine.toList := by
  rw [MenuEntry.commandLine]
  split
  · simpa using h.initrd
  · simpa using ⟨h.initrd, h.append⟩

/-- Entries of one name with one label are of one kind: the label of a host is longer than its name. -/
theorem kind_eq_of_label (hname : e.name = e'.name) (hlabel : e.label = e'.label) :
    e.kind = e'.kind := by
  have hlength := congrArg String.length hlabel
  rw [label, label, ← hname] at hlength
  cases hkind : e.kind <;> cases hkind' : e'.kind <;> simp [hkind, hkind'] at hlength ⊢

/-- The first space of a command line ends the initial ram disk; without one there are no options. -/
theorem eq_of_commandLine (h : ' ' ∉ e.initrd.toList) (h' : ' ' ∉ e'.initrd.toList)
    (heq : e.commandLine = e'.commandLine) : e.initrd = e'.initrd ∧ e.append = e'.append := by
  rw [commandLine, commandLine, String.append_assoc, String.append_assoc,
    String.append_right_inj] at heq
  have hchars := congrArg String.toList heq
  by_cases hnone : e.append = "" <;> by_cases hnone' : e'.append = ""
  · rw [if_pos hnone, if_pos hnone', String.append_empty, String.append_empty] at heq
    exact ⟨heq, hnone.trans hnone'.symm⟩
  · -- the space before the options of the other entry would stand in this initial ram disk
    rw [if_pos hnone, if_neg hnone', String.append_empty] at heq
    exact absurd (by simp [heq]) h
  · rw [if_neg hnone, if_pos hnone', String.append_empty] at heq
    exact absurd (by simp [← heq]) h'
  · rw [if_neg hnone, if_neg hnone'] at hchars
    obtain ⟨hinitrd, happend⟩ := eq_of_append_cons h h' (by simpa using hchars)
    exact ⟨String.toList_inj.mp hinitrd, String.toList_inj.mp happend⟩

/-- Two texts that begin with the block of an entry begin with the same entry. -/
theorem eq_of_block {x y : String} (h : e.Plain) (h' : e'.Plain)
    (heq : e.block ++ x = e'.block ++ y) : e = e' ∧ x = y := by
  simp only [block, String.append_assoc] at heq
  obtain ⟨hlabel, heq⟩ := eq_of_line "\n\tMENU LABEL " rfl h.label h'.label
    ((String.append_right_inj _).mp heq)
  obtain ⟨hname, heq⟩ := eq_of_line "\n\tkernel " rfl h.name h'.name heq
  obtain ⟨hkernel, heq⟩ := eq_of_line "\n\tappend " rfl h.kernel h'.kernel heq
  obtain ⟨hline, heq⟩ := eq_of_line "\n\tipappend 2\n" rfl h.commandLine h'.commandLine heq
  obtain ⟨hinitrd, happend⟩ := eq_of_commandLine h.initrdWord h'.initrdWord hline
  have hkind := kind_eq_of_label hname hlabel
  refine ⟨?_, heq⟩
  cases e
  cases e'
  simp_all

end MenuEntry

/-! ## Menus -/

/-- A menu whose parts stay within their lines. -/
structure Menu.Plain (m : Menu) : Prop where
  title : '\n' ∉ m.title.toList
  entries : ∀ e ∈ m.entries, e.Plain

instance (m : Menu) : Decidable m.Plain :=
  decidable_of_iff ('\n' ∉ m.title.toList ∧ ∀ e ∈ m.entries, e.Plain)
    ⟨fun h => ⟨h.1, h.2⟩, fun h => ⟨h.title, h.entries⟩⟩

namespace Menu

/-- The blocks of entries and the end of a menu. -/
def body (entries : List MenuEntry) : String :=
  String.join (entries.map fun e => "\n" ++ e.block) ++ "\nMENU end\n"

theorem body_cons (e : MenuEntry) (rest : List MenuEntry) :
    body (e :: rest) = "\n" ++ (e.block ++ body rest) := by
  simp only [body, List.map_cons, String.join_cons, String.append_assoc]

/-- No entry begins like the end of a menu. -/
theorem body_cons_ne_body_nil (e : MenuEntry) (rest : List MenuEntry) :
    body (e :: rest) ≠ body [] := by
  intro h
  have hsecond := congrArg (fun s => s.toList[1]?) h
  simp [body, MenuEntry.block] at hsecond

theorem eq_of_blocks {entries entries' : List MenuEntry} (h : ∀ e ∈ entries, e.Plain)
    (h' : ∀ e ∈ entries', e.Plain) (heq : body entries = body entries') : entries = entries' := by
  induction entries generalizing entries' with
  | nil =>
    cases entries' with
    | nil => rfl
    | cons e' rest' => exact absurd heq.symm (body_cons_ne_body_nil e' rest')
  | cons e rest ih =>
    cases entries' with
    | nil => exact absurd heq (body_cons_ne_body_nil e rest)
    | cons e' rest' =>
      obtain ⟨hfirst, hrest⟩ := List.forall_mem_cons.mp h
      obtain ⟨hfirst', hrest'⟩ := List.forall_mem_cons.mp h'
      rw [body_cons, body_cons, String.append_right_inj] at heq
      obtain ⟨hsame, heq⟩ := MenuEntry.eq_of_block hfirst hfirst' heq
      rw [hsame, ih hrest hrest' heq]

/-- The text of a menu: its title, and its entries behind words that no menu changes. -/
theorem render_eq (m : Menu) : m.render = "DEFAULT menu\nPROMPT 0\nMENU TITLE " ++ (m.title ++
    ("\nTIMEOUT 200\nTOTALTIMEOUT 6000\nONTIMEOUT local\n\n" ++
      ("LABEL local\n\tMENU LABEL (local)\n\tMENU DEFAULT\n\tLOCALBOOT -1\n" ++
        body m.entries))) := by
  unfold render header body
  simp only [String.append_assoc, -String.reduceAppend]

/-- Menus whose parts stay within their lines have the same text only if they are the same, title
and entries, in all parts and in their order. -/
theorem render_inj {m m' : Menu} (h : m.Plain) (h' : m'.Plain) :
    m.render = m'.render ↔ m = m' := by
  refine ⟨fun heq => ?_, fun heq => congrArg render heq⟩
  rw [render_eq, render_eq, String.append_right_inj] at heq
  obtain ⟨htitle, heq⟩ := eq_of_line _ (by simp) h.title h'.title heq
  rw [String.append_right_inj] at heq
  have hentries := eq_of_blocks h.entries h'.entries heq
  cases m
  cases m'
  simp_all

/-- A menu of one entry. -/
def single (name : String) (kind : EntryKind) (initrd append : String) : Menu :=
  ⟨"Lab", [⟨name, kind, "/images/d/vmlinuz", initrd, append⟩]⟩

/-- A distribution and a host with the same label still have different texts. -/
theorem render_inj_sameLabel :
    (single "host-web" .distro "/i" "quiet").Plain ∧ (single "web" .host "/i" "quiet").Plain ∧
      (single "host-web" .distro "/i" "quiet").render ≠ (single "web" .host "/i" "quiet").render :=
  have hplain : (single "host-web" .distro "/i" "quiet").Plain := by decide +kernel
  have hplain' : (single "web" .host "/i" "quiet").Plain := by decide +kernel
  ⟨hplain, hplain', fun h => absurd ((render_inj hplain hplain').mp h) (by decide)⟩

/-- With a space in it an initial ram disk could pass for one with options. -/
example : (MenuEntry.mk "d" .distro "/k" "/i quiet" "").block =
    (MenuEntry.mk "d" .distro "/k" "/i" "quiet").block := by
  decide +kernel

end Menu

end BootTree

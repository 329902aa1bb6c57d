/-
  The files that a record declares: a mapping in the order of insertion.

  1. **Inserting** — a destination that is there keeps its place, a new one comes at the end
     (`destinations_insert`), and its source is the new one (`get?_insert`).

  2. **Pairs one after another** — the mapping that they declare has every destination once, in the
     order in which each came first, with the source that came last (`InsertionOrdered`).  One
     insertion keeps this (`InsertionOrdered.insert`), and so it holds for any list of pairs, with any
     repetitions (`insertionOrdered_ofList`).

  3. **Documents** — a mapping is read exactly from the records whose members are texts, and is what
     these declare one after another (`read_eq_ok_iff`).  Such a record is the text of the pairs as a
     JSON object, where keys may repeat (`exists_parse_members`).
-/
import BootTree.Proofs.Json.RoundTrip
import BootTree.Proofs.Registry.Documents
import Mathlib.Data.Finset.Card

namespace BootTree

namespace TemplateFiles

variable {files : TemplateFiles} {pairs : List (String × String)} {entries : List (String × String)}

/-- The destinations in their order. -/
def destinations (files : TemplateFiles) : List String := files.entries.map Prod.fst

/-! ## Inserting -/

theorem find?_insertIn (destination source x : String) :
    (insertIn destination source entries).find? (fun e => e.1 = x) =
      if x = destination then some (destination, source)
      else entries.find? fun e => e.1 = x := by
  induction entries with
  | nil =>
    by_cases hx : x = destination
    · simp [insertIn, hx]
    · simp [insertIn, hx, Ne.symm hx]
  | cons e rest ih =>
    obtain ⟨d, s⟩ := e
    rw [insertIn]
    by_cases hd : d = destination
    · rw [if_pos hd]
      by_cases hx : x = destination
      · simp [hx, hd]
      · have hne : d ≠ x := fun h => hx (h ▸ hd)
        simp [hx, hne]
    · rw [if_neg hd]
      by_cases hx : d = x
      · have hne : x ≠ destination := hx ▸ hd
        simp [hx, hne]
      · rw [List.find?_cons_of_neg (by simpa using hx), ih, List.find?_cons_of_neg (by simpa using hx)]

theorem get?_insert (files : TemplateFiles) (destination source x : String) :
    (files.insert destination source).get? x =
      if x = destination then some source else files.get? x := by
  show ((insertIn destination source files.entries).find? fun e => e.1 = x).map Prod.snd = _
  rw [find?_insertIn]
  split
  · rfl
  · rfl

theorem map_fst_insertIn_of_mem {destination : String}
    (h : destination ∈ entries.map Prod.fst) (source : String) :
    (insertIn destination source entries).map Prod.fst = entries.map Prod.fst := by
  induction entries with
  | nil => cases h
  | cons e rest ih =>
    obtain ⟨d, s⟩ := e
    rw [insertIn]
    by_cases hd : d = destination
    · rw [if_pos hd]
      rfl
    · have hrest : destination ∈ rest.map Prod.fst :=
        (List.mem_cons.mp h).resolve_left (Ne.symm hd)
      rw [if_neg hd, List.map_cons, ih hrest, List.map_cons]

theorem destinations_insert (files : TemplateFiles) (destination source : String) :
    (files.insert destination source).destinations =
      if destination ∈ files.destinations then files.destinations
      else files.destinations ++ [destination] := by
  show (insertIn destination source files.entries).map Prod.fst = _
  split
  · next h => exact map_fst_insertIn_of_mem h source
  · next h =>
    rw [insertIn_of_not_mem h, List.map_append]
    rfl

theorem get?_eq_none_iff {destination : String} :
    files.get? destination = none ↔ destination ∉ files.destinations := by
  rw [get?, Option.map_eq_none_iff, List.find?_eq_none, destinations, List.mem_map]
  constructor
  · rintro h ⟨e, he, rfl⟩
    exact h e he (by simp)
  · intro h e he hd
    exact h ⟨e, he, by simpa using hd⟩

/-! ## Pairs one after another -/

/-- The last pair with the destination has this source. -/
def LastFor (pairs : List (String × String)) (destination source : String) : Prop :=
  ∃ before behind, pairs = before ++ (destination, source) :: behind ∧
    destination ∉ behind.map Prod.fst

/-- Where a list with one more element is cut: at that element, or before it. -/
theorem cut_concat {α : Type} {xs before behind : List α} {x y : α}
    (h : xs ++ [x] = before ++ y :: behind) :
    behind = [] ∧ y = x ∨ ∃ front, behind = front ++ [x] ∧ xs = before ++ y :: front := by
  rcases List.eq_nil_or_concat' behind with rfl | ⟨front, last, rfl⟩
  · obtain ⟨-, hlast⟩ := List.append_inj' h rfl
    exact .inl ⟨rfl, (List.singleton_inj.mp hlast).symm⟩
  · rw [← List.cons_append, ← List.append_assoc] at h
    obtain ⟨hfront, hlast⟩ := List.append_inj' h rfl
    rw [List.singleton_inj.mp hlast]
    exact .inr ⟨front, rfl, hfront⟩

theorem lastFor_concat {d s destination source : String} :
    LastFor (pairs ++ [(destination, source)]) d s ↔
      if d = destination then source = s else LastFor pairs d s := by
  constructor
  · rintro ⟨before, behind, hpairs, hnot⟩
    rcases cut_concat hpairs with ⟨-, hlast⟩ | ⟨front, rfl, hfront⟩
    · cases hlast
      rw [if_pos rfl]
    · -- the pair that was added is another one's
      rw [List.map_append, List.mem_append, not_or] at hnot
      have hd : d ≠ destination := by simpa using hnot.2
      rw [if_neg hd]
      exact ⟨before, front, hfront, hnot.1⟩
  · split
    · rintro rfl
      next hd => exact ⟨pairs, [], by rw [hd], List.not_mem_nil⟩
    · next hd =>
      rintro ⟨before, behind, rfl, hnot⟩
      refine ⟨before, behind ++ [(destination, source)], by simp, ?_⟩
      rw [List.map_append, List.mem_append, not_or]
      exact ⟨hnot, by simpa using hd⟩

/-- The mapping has the destinations of the pairs, in the order in which each came first, and for
each of them the source that came last. -/
structure InsertionOrdered (pairs : List (String × String)) (files : TemplateFiles) : Prop where
  mem : ∀ d, d ∈ files.destinations ↔ d ∈ pairs.map Prod.fst
  order : files.destinations.Pairwise fun d d' =>
    (pairs.map Prod.fst).idxOf d < (pairs.map Prod.fst).idxOf d'
  get? : ∀ d s, files.get? d = some s ↔ LastFor pairs d s

namespace InsertionOrdered

/-- One more pair. -/
theorem insert (h : InsertionOrdered pairs files) (destination source : String) :
    InsertionOrdered (pairs ++ [(destination, source)]) (files.insert destination source) := by
  have hkeys : (pairs ++ [(destination, source)]).map Prod.fst =
      pairs.map Prod.fst ++ [destination] := List.map_append
  -- where a destination came first is not changed by what comes later
  have hindex : ∀ d ∈ files.destinations, (pairs.map Prod.fst ++ [destination]).idxOf d =
      (pairs.map Prod.fst).idxOf d := fun d hd => List.idxOf_append_of_mem ((h.mem d).mp hd)
  have horder : files.destinations.Pairwise fun d d' =>
      (pairs.map Prod.fst ++ [destination]).idxOf d <
        (pairs.map Prod.fst ++ [destination]).idxOf d' := by
    refine h.order.imp_of_mem fun {d d'} hd hd' hlt => ?_
    rw [hindex d hd, hindex d' hd']
    exact hlt
  refine ⟨fun d => ?_, ?_, fun d s => ?_⟩
  · rw [destinations_insert, hkeys, List.mem_append, List.mem_singleton, ← h.mem d]
    split
    · next hin => exact ⟨.inl, fun hd => hd.elim id fun hd => hd ▸ hin⟩
    · rw [List.mem_append, List.mem_singleton]
  · rw [destinations_insert, hkeys]
    split
    · exact horder
    · next hout =>
      refine List.pairwise_append.mpr ⟨horder, List.pairwise_singleton _ _, ?_⟩
      intro d hd d' hd'
      rw [List.mem_singleton.mp hd', hindex d hd]
      have hnew : destination ∉ pairs.map Prod.fst := fun hmem => hout ((h.mem _).mpr hmem)
      rw [List.idxOf_append_of_notMem hnew]
      have hlt := List.idxOf_lt_length_iff.mpr ((h.mem d).mp hd)
      omega
  · rw [get?_insert, lastFor_concat, ← h.get? d s]
    split
    · rw [Option.some.injEq]
    · rfl

theorem get?_eq_none (h : InsertionOrdered pairs files) (d : String) :
    files.get? d = none ↔ d ∉ pairs.map Prod.fst := by
  rw [get?_eq_none_iff, h.mem]

/-- There are as many entries as different destinations. -/
theorem size (h : InsertionOrdered pairs files) :
    files.size = (pairs.map Prod.fst).toFinset.card := by
  have hsame : (pairs.map Prod.fst).toFinset = files.destinations.toFinset := by
    ext d
    rw [List.mem_toFinset, List.mem_toFinset, h.mem]
  have hcard : files.destinations.toFinset.card = files.destinations.length :=
    List.toFinset_card_of_nodup files.distinct
  rw [hsame, hcard, destinations, List.length_map]
  rfl

end InsertionOrdered

theorem ofList_concat (pairs : List (String × String)) (destination source : String) :
    ofList (pairs ++ [(destination, source)]) = (ofList pairs).insert destination source :=
  List.foldl_concat ..

theorem insertionOrdered_ofList (pairs : List (String × String)) :
    InsertionOrdered pairs (ofList pairs) := by
  -- the last pair is the one that was inserted last
  induction pairs using List.reverseRecOn with
  | nil =>
    refine ⟨fun d => .rfl, List.Pairwise.nil, fun d s => ⟨nofun, ?_⟩⟩
    rintro ⟨before, behind, hpairs, -⟩
    exact absurd hpairs (by simp)
  | append_singleton pairs e ih =>
    obtain ⟨destination, source⟩ := e
    rw [ofList_concat]
    exact ih.insert destination source

/-! ## Documents -/

/-- The entry of a record declares the pair. -/
def EntryDeclares (entry : Option String × Source) (pair : String × String) : Prop :=
  entry.1 = some pair.1 ∧ entry.2.asText = some pair.2

/-- The document is a record whose members are these pairs, in this order. -/
def Declares (s : Source) (pairs : List (String × String)) : Prop :=
  ∃ entries, s.entries? = some entries ∧ List.Forall₂ EntryDeclares entries pairs

/-- What the first entry declares is its key and its text, so that both must be there. -/
theorem entriesDeclare_cons_iff {key : Option String} {s : Source}
    {rest : List (Option String × Source)} :
    List.Forall₂ EntryDeclares ((key, s) :: rest) pairs ↔
      ∃ destination source others, key = some destination ∧ s.asText = some source ∧
        List.Forall₂ EntryDeclares rest others ∧ pairs = (destination, source) :: others := by
  rw [List.forall₂_cons_left_iff]
  constructor
  · rintro ⟨⟨destination, source⟩, others, ⟨hkey, htext⟩, hrest, rfl⟩
    exact ⟨destination, source, others, hkey, htext, hrest, rfl⟩
  · rintro ⟨destination, source, others, hkey, htext, hrest, rfl⟩
    exact ⟨(destination, source), others, ⟨hkey, htext⟩, hrest, rfl⟩

theorem readEntries_eq_ok_iff {all : TemplateFiles} {entries : List (Option String × Source)} :
    readEntries files entries = .ok all ↔
      ∃ pairs, List.Forall₂ EntryDeclares entries pairs ∧ all = files.insertAll pairs := by
  induction entries generalizing files with
  | nil =>
    constructor
    · rintro ⟨⟩
      exact ⟨[], .nil, rfl⟩
    · rintro ⟨pairs, ⟨⟩, rfl⟩
      rfl
  | cons entry rest ih =>
    obtain ⟨key, s⟩ := entry
    simp only [entriesDeclare_cons_iff]
    cases key with
    | none =>
      constructor
      · rintro ⟨⟩
      · rintro ⟨_, ⟨_, _, _, ⟨⟩, _⟩, -⟩
    | some destination =>
      rw [readEntries]
      cases s.asText with
      | none =>
        constructor
        · rintro ⟨⟩
        · rintro ⟨_, ⟨_, _, _, -, ⟨⟩, _⟩, -⟩
      | some source =>
        dsimp only
        rw [ih]
        constructor
        · rintro ⟨pairs, hrest, rfl⟩
          exact ⟨_, ⟨destination, source, pairs, rfl, rfl, hrest, rfl⟩, rfl⟩
        · rintro ⟨_, ⟨_, _, pairs, ⟨⟩, ⟨⟩, hrest, rfl⟩, rfl⟩
          exact ⟨pairs, hrest, rfl⟩

/-- A mapping is read from the records that declare it, and from nothing else. -/
theorem read_eq_ok_iff {s : Source} :
    read s = .ok files ↔ ∃ pairs, Declares s pairs ∧ files = ofList pairs := by
  rw [read]
  cases hs : s.entries? with
  | none =>
    constructor
    · rintro ⟨⟩
    · rintro ⟨pairs, ⟨entries, hentries, -⟩, -⟩
      cases hentries.symm.trans hs
  | some entries =>
    dsimp only
    rw [readEntries_eq_ok_iff]
    constructor
    · rintro ⟨pairs, hmembers, rfl⟩
      exact ⟨pairs, ⟨entries, hs, hmembers⟩, rfl⟩
    · rintro ⟨pairs, ⟨entries', hentries, hmembers⟩, rfl⟩
      cases hentries.symm.trans hs
      exact ⟨pairs, hmembers, rfl⟩

/-- The pairs as the members of an object, with their repetitions. -/
def members (pairs : List (String × String)) : Fields := pairs.map fun e => (e.1, .text e.2)

theorem declares_members (pairs : List (String × String)) :
    Declares (.ofValue (.object (members pairs))) pairs := by
  rw [Source.ofValue]
  refine ⟨_, rfl, ?_⟩
  induction pairs with
  | nil => exact .nil
  | cons e rest ih =>
    rw [members, List.map_cons, Source.ofFields]
    exact .cons ⟨rfl, rfl⟩ ih

/-- The pairs can be printed as a JSON object, and the text read as a document that declares them. -/
theorem exists_parse_members (pairs : List (String × String)) :
    ∃ s, Json.parse (Json.pretty (.object (members pairs))) = some s ∧ Declares s pairs := by
  have hfits : Json.Fits Json.State.depthLimit (.object (members pairs)) := by
    refine .object fun m hm => ?_
    obtain ⟨e, -, rfl⟩ := List.mem_map.mp hm
    exact .text e.2
  exact ⟨_, Json.parse_pretty hfits, declares_members pairs⟩

/-- Declared files are a mapping in the order of insertion.  For every list of pairs, inserting them
one by one gives the same mapping as collecting them, and as reading any document that has just these
members, such as the text of a JSON object; keys may repeat in it.  The mapping has every destination
once, in the order in which each came first; for each of them the source that came last, and none for
any other; and as many entries as there are different destinations.  Every mapping is read back from
its own document. -/
theorem ofList_ordered_map (pairs : List (String × String)) :
    (pairs.foldl (fun files e => files.insert e.1 e.2) empty = ofList pairs ∧
      (∀ s, Declares s pairs → read s = .ok (ofList pairs)) ∧
      ∃ s, Json.parse (Json.pretty (.object (members pairs))) = some s ∧ Declares s pairs) ∧
    ((ofList pairs).destinations.Nodup ∧
      (ofList pairs).destinations.Pairwise fun d d' =>
        (pairs.map Prod.fst).idxOf d < (pairs.map Prod.fst).idxOf d') ∧
    ((∀ d s, (ofList pairs).get? d = some s ↔ LastFor pairs d s) ∧
      ∀ d, (ofList pairs).get? d = none ↔ d ∉ pairs.map Prod.fst) ∧
    (ofList pairs).size = (pairs.map Prod.fst).toFinset.card ∧
    ∀ files : TemplateFiles, read (.ofValue files.toValue) = .ok files ∧
      ∃ s, Json.parse (Json.pretty files.toValue) = some s ∧ read s = .ok files := by
  have hread : ∀ pairs s, Declares s pairs → read s = .ok (ofList pairs) :=
    fun pairs s hs => read_eq_ok_iff.mpr ⟨pairs, hs, rfl⟩
  have hordered := insertionOrdered_ofList pairs
  refine ⟨⟨rfl, hread pairs, exists_parse_members pairs⟩,
    ⟨(ofList pairs).distinct, hordered.order⟩, ⟨hordered.get?, hordered.get?_eq_none⟩,
    hordered.size, fun files => ⟨read_ofValue files, ?_⟩⟩
  obtain ⟨s, hparse, hs⟩ := exists_parse_members files.entries
  refine ⟨s, hparse, ?_⟩
  rw [hread _ s hs]
  -- the mapping declares its own entries
  have hsame := hread _ _ (declares_members files.entries)
  exact hsame.symm.trans (read_ofValue files)

end TemplateFiles

end BootTree

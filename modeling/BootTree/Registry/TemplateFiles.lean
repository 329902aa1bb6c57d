/-
  The files a record declares: an ordered mapping from destination templates to source templates.

  Entries keep the order in which their destinations first came; putting a destination in again
  replaces its source in place. No destination occurs twice.
-/
import BootTree.Json.Printer
import BootTree.Source
import BootTree.Text.Quoted

namespace BootTree

/-- Something of another kind than the reader expects. -/
structure Mismatch where
  found : String
  expected : String
  deriving DecidableEq, Repr

def Mismatch.message (m : Mismatch) : String :=
  s!"invalid type: {m.found}, expected {m.expected}"

/-- A value as a message about its kind names it. -/
def Value.describe : Value → String
  | .null => "null"
  | .bool b => "boolean `" ++ (if b then "true" else "false") ++ "`"
  | .number (.int n) => "integer `" ++ String.ofList (Json.intText n) ++ "`"
  | .number (.double d) => "floating point `" ++ Json.layout.text d ++ "`"
  | .text s => "string " ++ Text.quoted s
  | .list _ => "sequence"
  | .object _ => "map"

def Source.describe : Source → String
  | .atom v => v.describe
  | .scalar r => (r.meaning.getD (.text r.text)).describe
  | .unreadable => "map"
  | .marked inner => inner.describe
  | .list _ _ => "sequence"
  | .record _ => "map"

/-- An ordered mapping from destinations to sources, both templates. -/
structure TemplateFiles where
  entries : List (String × String)
  distinct : (entries.map Prod.fst).Nodup
  deriving DecidableEq

namespace TemplateFiles

def empty : TemplateFiles := ⟨[], List.nodup_nil⟩

instance : Inhabited TemplateFiles := ⟨empty⟩

/-- Puts an entry in the place of its destination, else at the end. -/
def insertIn (destination source : String) : List (String × String) → List (String × String)
  | [] => [(destination, source)]
  | (d, s) :: rest =>
    if d = destination then (d, source) :: rest else (d, s) :: insertIn destination source rest

/-- Inserting adds no destination but its own. -/
theorem mem_keys_insertIn {destination source x : String} {entries : List (String × String)} :
    x ∈ (insertIn destination source entries).map Prod.fst
      ↔ x = destination ∨ x ∈ entries.map Prod.fst := by
  induction entries with
  | nil => simp [insertIn]
  | cons e rest ih =>
    obtain ⟨d, s⟩ := e
    by_cases hd : d = destination
    · subst hd; simp [insertIn]
    · simp only [insertIn, if_neg hd, List.map_cons, List.mem_cons, ih]
      exact or_left_comm

/-- Inserting keeps destinations distinct. -/
theorem nodup_insertIn {destination source : String} {entries : List (String × String)}
    (h : (entries.map Prod.fst).Nodup) :
    ((insertIn destination source entries).map Prod.fst).Nodup := by
  induction entries with
  | nil => simp [insertIn]
  | cons e rest ih =>
    obtain ⟨d, s⟩ := e
    rw [List.map_cons, List.nodup_cons] at h
    by_cases hd : d = destination
    · simpa [insertIn, hd] using h
    · rw [insertIn, if_neg hd, List.map_cons, List.nodup_cons, mem_keys_insertIn]
      exact ⟨fun hm => hm.elim hd h.1, ih h.2⟩

/-- Declares a source for a destination, in place of the one it had. -/
def insert (files : TemplateFiles) (destination source : String) : TemplateFiles :=
  ⟨insertIn destination source files.entries, nodup_insertIn files.distinct⟩

/-- The source declared for a destination. -/
def get? (files : TemplateFiles) (destination : String) : Option String :=
  (files.entries.find? fun e => e.1 = destination).map Prod.snd

def size (files : TemplateFiles) : Nat := files.entries.length

def isEmpty (files : TemplateFiles) : Bool := files.entries.isEmpty

/-- Declares pairs one after another. -/
def insertAll (files : TemplateFiles) (pairs : List (String × String)) : TemplateFiles :=
  pairs.foldl (fun files e => files.insert e.1 e.2) files

/-- The mapping that pairs declare one after another. -/
def ofList (pairs : List (String × String)) : TemplateFiles := empty.insertAll pairs

/-- The mapping as an object of texts. -/
def toValue (files : TemplateFiles) : Value :=
  .object (files.entries.map fun e => (e.1, .text e.2))

/-- Declares the entries of a record one after another. -/
def readEntries (files : TemplateFiles) :
    List (Option String × Source) → Except Mismatch TemplateFiles
  | [] => .ok files
  | (some destination, s) :: rest =>
    match s.asText with
    | some source => readEntries (files.insert destination source) rest
    | none => .error ⟨s.describe, "a string"⟩
  | (none, _) :: _ => .error ⟨"map", "a string"⟩

/-- Reads a mapping from a record of texts. -/
def read (s : Source) : Except Mismatch TemplateFiles :=
  match s.entries? with
  | some entries => readEntries empty entries
  | none => .error ⟨s.describe, "a map of destination templates to source templates"⟩

end TemplateFiles

end BootTree

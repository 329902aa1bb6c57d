/-
  YAML text as a document.

  An alias stands for the node of its number, the last one that has it. Nesting is limited, and so
  is the number of aliases that are followed: beyond the limits nothing can be read.
-/
import BootTree.Yaml.Meaning
import BootTree.Yaml.Node

namespace BootTree.Yaml

/-! ## Anchors -/

mutual

/-- The nodes with numbers, in the order of their anchors. -/
def Node.marked : Node → List (Nat × Node)
  | .scalar mark tag style text => (mark.map (·, .scalar mark tag style text)).toList
  | .alias _ => []
  | .list mark tag items =>
    (mark.map (·, .list mark tag items)).toList ++ markedItems items
  | .record mark tag entries =>
    (mark.map (·, .record mark tag entries)).toList ++ markedEntries entries

def markedItems : List Node → List (Nat × Node)
  | [] => []
  | n :: rest => n.marked ++ markedItems rest

def markedEntries : List (Node × Node) → List (Nat × Node)
  | [] => []
  | (k, v) :: rest => k.marked ++ v.marked ++ markedEntries rest

end

mutual

/-- The number of scalars, aliases, and opening and closing brackets or their like. -/
def Node.weight : Node → Nat
  | .scalar _ _ _ _ => 1
  | .alias _ => 1
  | .list _ _ items => 2 + weightItems items
  | .record _ _ entries => 2 + weightEntries entries

def weightItems : List Node → Nat
  | [] => 0
  | n :: rest => n.weight + weightItems rest

def weightEntries : List (Node × Node) → Nat
  | [] => 0
  | (k, v) :: rest => k.weight + v.weight + weightEntries rest

end

/-- The node that an alias stands for. -/
def target? (marked : List (Nat × Node)) (number : Nat) : Option Node :=
  marked.reverse.lookup number

/-! ## Documents -/

/-- The number of aliases that may still be followed. -/
abbrev Budget := StateM Nat

/-- A node that is no alias: the node itself, or what it stands for. -/
def follow (marked : List (Nat × Node)) (n : Node) : Budget (Option Node) := do
  match n with
  | .alias number =>
    match ← get with
    | 0 => return none
    | left + 1 =>
      set left
      return target? marked number
  | _ => return some n

/-- Marks a list or record that has a tag of the document's own. -/
def withTag (tag : Option String) (s : Source) : Source :=
  if tag.any isLocal then .marked s else s

/-- The key that a node stands for: the text of a scalar, whatever it looks like. -/
def keyText (marked : List (Nat × Node)) (n : Node) : Budget (Option String) := do
  match ← follow marked n with
  | some (.scalar _ _ _ text) => return some text
  | _ => return none

/-- The document of a node, with at most `depth` lists and records inside one another. -/
def source (marked : List (Nat × Node)) : Nat → Node → Budget Source
  | 0, n => do
    match ← follow marked n with
    | some (.scalar _ tag style text) => return .scalar (reading tag style text)
    | _ => return .unreadable
  | depth + 1, n => do
    match ← follow marked n with
    | some (.scalar _ tag style text) => return .scalar (reading tag style text)
    | some (.list _ tag items) =>
      return withTag tag (.list .never (← items.mapM (source marked depth)))
    | some (.record _ tag entries) =>
      let entries ← entries.mapM fun (k, v) => do
        return (← keyText marked k, ← source marked depth v)
      return withTag tag (.record entries)
    | _ => return .unreadable

/-- The greatest number of lists and records inside one another. -/
def depthLimit : Nat := 128

/-- The document of a tree. -/
def Node.source (n : Node) : Source := ((Yaml.source n.marked depthLimit n).run (100 * n.weight)).1

/-- The document that a text is. -/
def parse (text : String) : Option Source := do
  let tokens ← scan text.toList
  let document ← Node.ofTokens tokens
  some (document.getD .empty).source

end BootTree.Yaml

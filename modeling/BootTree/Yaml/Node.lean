/-
  YAML tokens as one tree of nodes.

  A text holds one document, or none. An anchor is numbered by how many names are known when it is
  set; a name set once more takes the next number, which the next new name takes too. An alias keeps
  the number that its name has where it stands.
-/
import BootTree.Yaml.Token

namespace BootTree.Yaml

/-- A node with the number of its anchor and its tag in full. -/
inductive Node where
  | scalar (mark : Option Nat) (tag : Option String) (style : Style) (text : String)
  | alias (mark : Nat)
  | list (mark : Option Nat) (tag : Option String) (items : List Node)
  | record (mark : Option Nat) (tag : Option String) (entries : List (Node × Node))
  deriving Repr, Inhabited

namespace Node

/-- The node where nothing is written. -/
def empty : Node := .scalar none none .plain ""

/-! ## Reading state -/

/-- The tokens to come, the numbers of the anchor names, and the tag handles. -/
structure Reader where
  tokens : List Token
  names : List (String × Nat) := []
  handles : List (String × String) := []

abbrev Read := StateT Reader Option

def fail : Read α := fun _ => none

def peek : Read (Option Token) := do return (← get).tokens.head?

def skip : Read Unit := modify fun r => { r with tokens := r.tokens.drop 1 }

/-- Gives a name the next number. -/
def setName (name : String) (number : Nat) : List (String × Nat) → List (String × Nat)
  | [] => [(name, number)]
  | (n, k) :: rest =>
    if n = name then (n, number) :: rest else (n, k) :: setName name number rest

/-- Numbers an anchor, if there is one. -/
def setAnchor (anchor : Option String) : Read (Option Nat) := do
  match anchor with
  | none => return none
  | some name =>
    let r ← get
    let number := r.names.length
    set { r with names := setName name number r.names }
    return some number

/-- The full text of a tag. -/
def resolveTag (t : Tag) : Read String := do
  if t.handle = "" then return t.suffix
  let known := (← get).handles ++ [("!", "!"), ("!!", "tag:yaml.org,2002:")]
  match known.lookup t.handle with
  | some leader => return leader ++ t.suffix
  | none => fail

/-- Reads an anchor and a tag, in either order; each may be missing. -/
def properties : Read (Option String × Option String) := do
  match ← peek with
  | some (.anchor a) =>
    skip
    match ← peek with
    | some (.tag t) =>
      skip
      return (some a, some (← resolveTag t))
    | _ => return (some a, none)
  | some (.tag t) =>
    skip
    match ← peek with
    | some (.anchor a) =>
      skip
      return (some a, some (← resolveTag t))
    | _ => return (none, some (← resolveTag t))
  | _ => return (none, none)

/-! ## Nodes -/

/-- Whether an entry of a block ends here without a node. -/
def endsBlockEntry : Option Token → Bool
  | some .key | some .value | some .blockEnd => true
  | _ => false

/-- Whether an entry inside brackets ends here without a node, for the bracket that closes it. -/
def endsFlowEntry (inList : Bool) : Option Token → Bool
  | some .comma => true
  | some .flowListEnd => inList
  | some .flowRecordEnd => !inList
  | _ => false

def isValue : Option Token → Bool
  | some .value => true
  | _ => false

mutual

/-- Reads a node. Blocks are possible outside of brackets only; as a part of a record, a list need
not be indented. Every call takes fuel, and there are at most two calls to a token. -/
def node (inBlock asPart : Bool) : Nat → Read Node
  | 0 => fail
  | fuel + 1 => do
    match ← peek with
    | some (.alias name) =>
      skip
      match (← get).names.lookup name with
      | some number => return .alias number
      | none => fail
    | _ =>
      let (anchor, tag) ← properties
      match ← peek, inBlock, asPart with
      | some .item, _, true =>
        let mark ← setAnchor anchor
        return .list mark tag (← looseItems fuel)
      | some (.scalar style text), _, _ =>
        skip
        let mark ← setAnchor anchor
        return .scalar mark (if tag = some "!" then none else tag) style text
      | some .flowList, _, _ =>
        skip
        let mark ← setAnchor anchor
        return .list mark tag (← flowItems true fuel)
      | some .flowRecord, _, _ =>
        skip
        let mark ← setAnchor anchor
        return .record mark tag (← flowEntries true fuel)
      | some .blockList, true, _ =>
        skip
        let mark ← setAnchor anchor
        return .list mark tag (← blockItems fuel)
      | some .blockRecord, true, _ =>
        skip
        let mark ← setAnchor anchor
        return .record mark tag (← blockEntries fuel)
      | _, _, _ =>
        if anchor.isNone && tag.isNone then fail
        else
          let mark ← setAnchor anchor
          return .scalar mark tag .plain ""

/-- Reads the items of an indented list, and its end. -/
def blockItems : Nat → Read (List Node)
  | 0 => fail
  | fuel + 1 => do
    match ← peek with
    | some .item =>
      skip
      let item ← match ← peek with
        | some .item | some .blockEnd => pure empty
        | _ => node true false fuel
      return item :: (← blockItems fuel)
    | some .blockEnd =>
      skip
      return []
    | _ => fail

/-- Reads the items of a list that is not indented. -/
def looseItems : Nat → Read (List Node)
  | 0 => fail
  | fuel + 1 => do
    match ← peek with
    | some .item =>
      skip
      let next ← peek
      let item ← match next with
        | some .item => pure empty
        | _ => if endsBlockEntry next then pure empty else node true false fuel
      return item :: (← looseItems fuel)
    | _ => return []

/-- Reads a key or value of a block, or nothing. -/
def blockPart : Nat → Read Node
  | 0 => fail
  | fuel + 1 => do
    if endsBlockEntry (← peek) then return empty else node true true fuel

/-- Reads the entries of a block, and its end. -/
def blockEntries : Nat → Read (List (Node × Node))
  | 0 => fail
  | fuel + 1 => do
    match ← peek with
    | some .key =>
      skip
      let key ← blockPart fuel
      let value ←
        if isValue (← peek) then
          skip
          blockPart fuel
        else pure empty
      return (key, value) :: (← blockEntries fuel)
    | some .blockEnd =>
      skip
      return []
    | _ => fail

/-- Reads the value behind a key inside brackets, or nothing. -/
def flowValue (inList : Bool) : Nat → Read Node
  | 0 => fail
  | fuel + 1 => do
    if isValue (← peek) then
      skip
      if endsFlowEntry inList (← peek) then return empty else node false false fuel
    else return empty

/-- Reads the items of a list in brackets, and the closing one. An item may be a record of one entry
without brackets of its own; where its key is missing, so is the token that ends it. -/
def flowItems (first : Bool) : Nat → Read (List Node)
  | 0 => fail
  | fuel + 1 => do
    match ← peek, first with
    | some .flowListEnd, _ =>
      skip
      return []
    | some .comma, false =>
      skip
      match ← peek with
      | some .flowListEnd =>
        skip
        return []
      | _ => flowItem fuel
    | _, true => flowItem fuel
    | _, false => fail

/-- Reads an item of a list in brackets, and all that follow. -/
def flowItem : Nat → Read (List Node)
  | 0 => fail
  | fuel + 1 => do
    let item ← match ← peek with
      | some .key =>
        skip
        let next ← peek
        let key ←
          if isValue next || endsFlowEntry true next then
            skip
            pure empty
          else node false false fuel
        let value ← flowValue true fuel
        pure (.record none none [(key, value)])
      | _ => node false false fuel
    return item :: (← flowItems false fuel)

/-- Reads the entries of a record in brackets, and the closing one. -/
def flowEntries (first : Bool) : Nat → Read (List (Node × Node))
  | 0 => fail
  | fuel + 1 => do
    match ← peek, first with
    | some .flowRecordEnd, _ =>
      skip
      return []
    | some .comma, false =>
      skip
      match ← peek with
      | some .flowRecordEnd =>
        skip
        return []
      | _ => flowEntry fuel
    | _, true => flowEntry fuel
    | _, false => fail

/-- Reads an entry of a record in brackets, and all that follow. -/
def flowEntry : Nat → Read (List (Node × Node))
  | 0 => fail
  | fuel + 1 => do
    let entry ← match ← peek with
      | some .key =>
        skip
        let next ← peek
        let key ←
          if isValue next || endsFlowEntry false next then pure empty else node false false fuel
        pure (key, ← flowValue false fuel)
      | _ => pure (← node false false fuel, empty)
    return entry :: (← flowEntries false fuel)

end

/-! ## Documents -/

/-- Takes in the directives in front of a document: at most one version, which is 1.1 or 1.2, and no
handle twice. -/
def directives (versioned : Bool) : Nat → Read Unit
  | 0 => fail
  | fuel + 1 => do
    match ← peek with
    | some (.directive (.version major minor)) =>
      if versioned || major ≠ 1 || (minor ≠ 1 && minor ≠ 2) then fail
      else
        skip
        directives true fuel
    | some (.directive (.tagHandle handle leader)) =>
      if ((← get).handles.lookup handle).isSome then fail
      else
        skip
        modify fun r => { r with handles := r.handles ++ [(handle, leader)] }
        directives versioned fuel
    | _ => return ()

/-- Reads the node of a document that has a line to start it. -/
def startedDocument (fuel : Nat) : Read Node := do
  directives false fuel
  match ← peek with
  | some .documentStart =>
    skip
    match ← peek with
    | none | some .documentStart | some .documentEnd | some (.directive _) => return empty
    | _ => node true false fuel
  | _ => fail

/-- Reads the one document of a text; none where there is nothing. -/
def document (fuel : Nat) : Read (Option Node) := do
  match ← peek with
  | none => return none
  | some .documentStart | some (.directive _) => return some (← startedDocument fuel)
  | _ => return some (← node true false fuel)

/-- The document that tokens make up; only lines that end it may follow. -/
def ofTokens (tokens : List Token) : Option (Option Node) := do
  let (document, r) ← (document (2 * tokens.length + 2)).run { tokens }
  let rest := r.tokens.dropWhile fun t => match t with
    | .documentEnd => true
    | _ => false
  if rest.isEmpty then some document else none

end Node

end BootTree.Yaml

/-
  The words of a command line: switches, their values, operands, and the command that follows.

  A level is what may stand between one command and the next. A switch has a long name behind two
  dashes or a letter behind one; letters can be joined, and a value can be joined to its switch.
  Behind two dashes alone there are only operands. No switch may be given twice on a level.
-/

namespace BootTree.Command

/-- What a switch is for: a flag, a text or path to be given, or one that asks for a text of the
program itself. -/
inductive SwitchKind where
  | flag
  | text
  | path
  | help
  | version
  deriving DecidableEq, Repr

/-- A switch: its long name, its letter if it has one, and what it is for. -/
structure Switch where
  long : String
  letter : Option Char := none
  kind : SwitchKind
  deriving DecidableEq, Repr

/-- The operands that a level takes. -/
inductive Operands where
  | none
  | text
  | path
  | texts
  deriving DecidableEq, Repr

/-- What may stand on one level of a command line. -/
structure Level where
  switches : List Switch
  operands : Operands := .none
  commands : List String := []
  deriving Repr

/-- Why no command is run. -/
inductive Stop where
  | usage
  | help
  | version
  deriving DecidableEq, Repr

/-- What was given on a level. -/
structure Given where
  flags : List String := []
  values : List (String × String) := []
  operands : List String := []
  deriving Repr

namespace Given

def hasFlag (g : Given) (name : String) : Bool := g.flags.contains name

def value? (g : Given) (name : String) : Option String := g.values.lookup name

/-- Notes a switch without a value. -/
def addFlag (g : Given) (s : Switch) : Except Stop Given :=
  match s.kind with
  | .help => .error .help
  | .version => .error .version
  | _ => if g.hasFlag s.long then .error .usage else .ok { g with flags := s.long :: g.flags }

/-- Notes the value of a switch; a path is not empty. -/
def addValue (g : Given) (s : Switch) (value : String) : Except Stop Given :=
  if (g.value? s.long).isSome || (s.kind = .path && value = "") then .error .usage
  else .ok { g with values := (s.long, value) :: g.values }

/-- Notes an operand. -/
def addOperand (g : Given) (operands : Operands) (word : String) : Except Stop Given :=
  let added : Given := { g with operands := g.operands ++ [word] }
  match operands with
  | .none => .error .usage
  | .text => if g.operands.isEmpty then .ok added else .error .usage
  | .path => if g.operands.isEmpty && word ≠ "" then .ok added else .error .usage
  | .texts => .ok added

end Given

/-- Whether a switch is followed by a value. -/
def Switch.takesValue (s : Switch) : Bool := s.kind = .text || s.kind = .path

namespace Level

/-- Reads a word of two dashes and a name, perhaps with a value behind an equals sign. Gives the
switch that still waits for its value. -/
def readLong (level : Level) (g : Given) (word : List Char) :
    Except Stop (Given × Option Switch) := do
  let name := String.ofList (word.takeWhile (· ≠ '='))
  let joined := (word.dropWhile (· ≠ '=')).tail?.map String.ofList
  match level.switches.find? (fun s => s.long = name), joined with
  | none, _ => .error .usage
  | some s, some value => if s.takesValue then .ok (← g.addValue s value, none) else .error .usage
  | some s, none => if s.takesValue then .ok (g, some s) else .ok (← g.addFlag s, none)

/-- Reads letters behind one dash; what follows the letter of a switch with a value is its value. -/
def readLetters (level : Level) (g : Given) : List Char → Except Stop (Given × Option Switch)
  | [] => .ok (g, none)
  | c :: rest => do
    match level.switches.find? (fun s => s.letter = some c) with
    | none => .error .usage
    | some s =>
      if !s.takesValue then level.readLetters (← g.addFlag s) rest
      else
        match rest with
        | [] => .ok (g, some s)
        | '=' :: value => .ok (← g.addValue s (String.ofList value), none)
        | value => .ok (← g.addValue s (String.ofList value), none)

/-- Whether a word can be no value: it has a dash in front, and more than that. -/
def isDashed (word : String) : Bool := word.toList.head? = some '-' && word ≠ "-"

/-- Reads words up to the end or to a command. `waiting` is the switch whose value comes next,
`literal` whether only operands are left. Gives the words from the command on. -/
def readFrom (level : Level) (g : Given) (waiting : Option Switch) (literal : Bool) :
    List String → Except Stop (Given × List String)
  | [] => if waiting.isSome then .error .usage else .ok (g, [])
  | word :: rest => do
    if literal then level.readFrom (← g.addOperand level.operands word) none true rest
    else
      match waiting with
      | some s =>
        if isDashed word then .error .usage
        else level.readFrom (← g.addValue s word) none false rest
      | none =>
        if level.commands.contains word then .ok (g, word :: rest)
        else
          match word.toList with
          | ['-', '-'] => level.readFrom g none true rest
          | '-' :: '-' :: name =>
            let (g, waiting) ← level.readLong g name
            level.readFrom g waiting false rest
          | '-' :: c :: letters =>
            let (g, waiting) ← level.readLetters g (c :: letters)
            level.readFrom g waiting false rest
          | _ => level.readFrom (← g.addOperand level.operands word) none false rest

/-- Reads the words of a level: what was given, and the words from the next command on. -/
def read (level : Level) (words : List String) : Except Stop (Given × List String) :=
  level.readFrom {} none false words

end Level

end BootTree.Command

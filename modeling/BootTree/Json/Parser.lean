/-
  JSON text as a document: a machine that takes the tokens one by one and keeps the open lists and
  objects on a stack.

  Nesting is limited. A list or object with 127 others around it can still be passed over, but
  nothing can be read from it.
-/
import BootTree.Json.Token
import BootTree.Source

namespace BootTree.Json

/-- A list or object that is not closed yet, its parts last first. A member is an object of which a
key is read and its value is still to come. -/
inductive Frame where
  | list (items : List Source)
  | object (entries : List (Option String × Source))
  | member (entries : List (Option String × Source)) (key : Option String)
  deriving Repr

/-- What the machine expects next. -/
inductive Focus where
  | value
  | itemOrClose
  | keyOrClose
  | key
  | colon
  | commaOrClose
  | finished (document : Source)
  deriving Repr

/-- The lists and objects that are open, innermost first, and what may come next. -/
structure State where
  frames : List Frame
  focus : Focus
  deriving Repr

namespace State

def start : State := ⟨[], .value⟩

/-- The greatest number of lists and objects inside one another. -/
def depthLimit : Nat := 127

/-- Puts a complete value where it belongs. -/
def accept (frames : List Frame) (s : Source) : Option State :=
  match frames with
  | [] => some ⟨[], .finished s⟩
  | .list items :: frames => some ⟨.list (s :: items) :: frames, .commaOrClose⟩
  | .member entries key :: frames => some ⟨.object ((key, s) :: entries) :: frames, .commaOrClose⟩
  | .object _ :: _ => none

/-- Closes the list on top. -/
def closeList (st : State) : Option State :=
  match st.frames with
  | .list items :: frames =>
    accept frames (if frames.length < depthLimit then .list .strict items.reverse else .unreadable)
  | _ => none

/-- Closes the object on top. -/
def closeObject (st : State) : Option State :=
  match st.frames with
  | .object entries :: frames =>
    accept frames (if frames.length < depthLimit then .record entries.reverse else .unreadable)
  | _ => none

/-- Starts or completes a value. -/
def startValue (st : State) (token : Token) : Option State :=
  match token with
  | .openList => some ⟨.list [] :: st.frames, .itemOrClose⟩
  | .openObject => some ⟨.object [] :: st.frames, .keyOrClose⟩
  | .text (some s) => accept st.frames (.atom (.text s))
  | .text none => accept st.frames .unreadable
  | .scalar (some v) => accept st.frames (.atom v)
  | .scalar none => accept st.frames .unreadable
  | _ => none

/-- Takes a key. -/
def startMember (st : State) (token : Token) : Option State :=
  match token, st.frames with
  | .text key, .object entries :: frames => some ⟨.member entries key :: frames, .colon⟩
  | _, _ => none

/-- Takes one token. -/
def step (st : State) (token : Token) : Option State :=
  match st.focus with
  | .value => st.startValue token
  | .itemOrClose =>
    match token with
    | .closeList => st.closeList
    | _ => st.startValue token
  | .keyOrClose =>
    match token with
    | .closeObject => st.closeObject
    | _ => st.startMember token
  | .key => st.startMember token
  | .colon =>
    match token with
    | .colon => some ⟨st.frames, .value⟩
    | _ => none
  | .commaOrClose =>
    match token, st.frames with
    | .comma, .list _ :: _ => some ⟨st.frames, .value⟩
    | .comma, .object _ :: _ => some ⟨st.frames, .key⟩
    | .closeList, _ => st.closeList
    | .closeObject, _ => st.closeObject
    | _, _ => none
  | .finished _ => none

/-- Takes a list of tokens in turn. -/
def run (st : State) (tokens : List Token) : Option State := tokens.foldlM step st

end State

/-- The document that a text is. -/
def parse (text : String) : Option Source := do
  let tokens ← scan text.toList
  let st ← State.start.run tokens
  match st.focus with
  | .finished s => some s
  | _ => none

/-- The plain data that a text is. -/
def read (text : String) : Option Value := do
  (← parse text).value?

end BootTree.Json

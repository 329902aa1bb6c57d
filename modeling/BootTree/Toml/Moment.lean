/-
  Dates and times of TOML text.
-/
import BootTree.Json.Token

namespace BootTree.Toml

/-- A day of the calendar. -/
structure Date where
  year : Nat
  month : Nat
  day : Nat
  deriving DecidableEq, Repr

/-- A time of day; a leap second is second 60. -/
structure Time where
  hour : Nat
  minute : Nat
  second : Nat
  nanosecond : Nat
  deriving DecidableEq, Repr

/-- The distance from universal time. -/
inductive Offset where
  | universal
  | minutes (west : Bool) (count : Nat)
  deriving DecidableEq, Repr

/-- A date, a time of day, or both, perhaps with an offset. -/
structure Moment where
  date : Option Date
  time : Option Time
  offset : Option Offset
  deriving DecidableEq, Repr

namespace Moment

/-- Reads exactly `n` digits as a number. -/
def digits (n : Nat) (cs : List Char) : Option (Nat × List Char) :=
  let part := cs.take n
  if part.length = n && part.all Char.isDigit then some (Decimal.digitsValue 0 part, cs.drop n)
  else none

/-- Reads two digits of a number between two bounds. -/
def pair (low high : Nat) (cs : List Char) : Option (Nat × List Char) := do
  let (n, rest) ← digits 2 cs
  if low ≤ n ∧ n ≤ high then some (n, rest) else none

/-- Takes a given character off the front. -/
def mark (c : Char) : List Char → Option (List Char)
  | x :: rest => if x = c then some rest else none
  | [] => none

def isLeap (year : Nat) : Bool := year % 4 = 0 && (year % 100 ≠ 0 || year % 400 = 0)

def daysIn (year month : Nat) : Nat :=
  if month = 2 then (if isLeap year then 29 else 28)
  else if [4, 6, 9, 11].contains month then 30 else 31

def readDate (cs : List Char) : Option (Date × List Char) := do
  let (year, cs) ← digits 4 cs
  let (month, cs) ← pair 1 12 (← mark '-' cs)
  let (day, cs) ← pair 1 31 (← mark '-' cs)
  if day ≤ daysIn year month then some (⟨year, month, day⟩, cs) else none

/-- The first nine digits after the point of a second. -/
def nanoseconds (ds : List Char) : Nat :=
  let kept := ds.take 9
  Decimal.digitsValue 0 kept * Nat.pow 10 (9 - kept.length)

def readTime (cs : List Char) : Option (Time × List Char) := do
  let (hour, cs) ← pair 0 23 cs
  let (minute, cs) ← pair 0 59 (← mark ':' cs)
  let (second, cs) ← pair 0 60 (← mark ':' cs)
  let (places, cs) ← Json.scanPlaces cs
  some (⟨hour, minute, second, nanoseconds (places.getD [])⟩, cs)

def readOffset (cs : List Char) : Option (Offset × List Char) :=
  match cs with
  | 'Z' :: rest | 'z' :: rest => some (.universal, rest)
  | c :: rest =>
    if c = '+' || c = '-' then do
      let (hour, rest) ← pair 0 23 rest
      let (minute, rest) ← pair 0 59 (← mark ':' rest)
      some (.minutes (c = '-') (60 * hour + minute), rest)
    else none
  | [] => none

/-- Reads a time with its offset, if it has one. -/
def readClock (cs : List Char) : Option (Time × Option Offset × List Char) := do
  let (time, rest) ← readTime cs
  match readOffset rest with
  | some (offset, rest) => some (time, some offset, rest)
  | none => some (time, none, rest)

/-- Reads a date, a time, or both. -/
def read (cs : List Char) : Option (Moment × List Char) :=
  match readDate cs with
  | some (date, rest) =>
    let dateOnly := some (⟨some date, none, none⟩, rest)
    match rest with
    | c :: after =>
      if c = 'T' || c = 't' || c = ' ' then
        match readClock after with
        | some (time, offset, rest) => some (⟨some date, some time, offset⟩, rest)
        | none => dateOnly
      else dateOnly
    | [] => dateOnly
  | none => (readTime cs).map fun (time, rest) => (⟨none, some time, none⟩, rest)

/-! ## Text -/

/-- A number with at least `n` digits. -/
def padded (n value : Nat) : List Char :=
  let ds := Nat.toDigits 10 value
  List.replicate (n - ds.length) '0' ++ ds

def dateText (d : Date) : List Char :=
  padded 4 d.year ++ '-' :: padded 2 d.month ++ '-' :: padded 2 d.day

def timeText (t : Time) : List Char :=
  let places := if t.nanosecond = 0 then []
    else '.' :: ((padded 9 t.nanosecond).reverse.dropWhile (· = '0')).reverse
  padded 2 t.hour ++ ':' :: padded 2 t.minute ++ ':' :: padded 2 t.second ++ places

def offsetText : Offset → List Char
  | .universal => ['Z']
  | .minutes west count =>
    (if west && count ≠ 0 then '-' else '+')
      :: padded 2 (count / 60) ++ ':' :: padded 2 (count % 60)

def text (m : Moment) : String :=
  let date := (m.date.map dateText).getD []
  let time := (m.time.map timeText).getD []
  let between := if m.date.isSome && m.time.isSome then ['T'] else []
  String.ofList (date ++ between ++ time ++ (m.offset.map offsetText).getD [])

end Moment

end BootTree.Toml

/-
  Points in time as text.
-/

namespace BootTree

/-- A point in time: seconds since the start of 1970, and nanoseconds. -/
structure Instant where
  seconds : Nat
  nanos : Nat
  deriving DecidableEq, Repr

namespace Instant

/-- `n` with at least `width` digits. -/
def padded (width n : Nat) : String :=
  let cs := Nat.toDigits 10 n
  String.ofList (List.replicate (width - cs.length) '0' ++ cs)

/-- Year, month and day of a day counted from the start of 1970. The count is taken in eras of 400
years, each of the same length, that start in March, so that a leap day is the last of its year. -/
def date (day : Nat) : Nat × Nat × Nat :=
  let shifted := day + 719468
  let era := shifted / 146097
  let dayOfEra := shifted % 146097
  let yearOfEra := (dayOfEra - dayOfEra / 1460 + dayOfEra / 36524 - dayOfEra / 146096) / 365
  let dayOfYear := dayOfEra - (365 * yearOfEra + yearOfEra / 4 - yearOfEra / 100)
  let fifth := (5 * dayOfYear + 2) / 153
  let month := if fifth < 10 then fifth + 3 else fifth - 9
  let year := yearOfEra + 400 * era + (if month ≤ 2 then 1 else 0)
  (year, month, dayOfYear - (153 * fifth + 2) / 5 + 1)

/-- The fraction of a second, to the first of no, three, six and nine places that loses nothing. -/
def fraction (nanos : Nat) : String :=
  if nanos = 0 then ""
  else if nanos % 1000000 = 0 then "." ++ padded 3 (nanos / 1000000)
  else if nanos % 1000 = 0 then "." ++ padded 6 (nanos / 1000)
  else "." ++ padded 9 nanos

/-- Date and time in universal time. -/
def text (i : Instant) : String :=
  let (year, month, day) := date (i.seconds / 86400)
  let second := i.seconds % 86400
  padded 4 year ++ "-" ++ padded 2 month ++ "-" ++ padded 2 day
    ++ "T" ++ padded 2 (second / 3600) ++ ":" ++ padded 2 (second / 60 % 60)
    ++ ":" ++ padded 2 (second % 60) ++ fraction i.nanos ++ "Z"

end Instant

end BootTree

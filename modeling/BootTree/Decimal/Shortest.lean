/-
  The shortest decimal that reads back as a given double, and of the shortest ones the nearest.

  A decimal reads back as a double when it lies in the interval of reals that round to it: halfway
  to either neighbour, the ends included iff the significand is even. On the grid of decimals with
  `n` digits only the two neighbours of the value itself can lie in the interval and be nearest, so
  the search looks at these two for `n = 1, 2, …, 17`.
-/
import BootTree.Decimal.Double

namespace BootTree.Decimal

/-- A positive decimal `digits * 10 ^ exponent`, the last digit not zero. -/
structure Digits where
  digits : Nat
  exponent : Int
  deriving DecidableEq, Repr

/-- The number of decimal digits of a natural number; zero has one. -/
def digitCount (n : Nat) : Nat := (Nat.toDigits 10 n).length

/-- `num / den * 10 ^ shift` as a ratio. -/
def scaleTen (num den : Nat) (shift : Int) : Nat × Nat :=
  if 0 ≤ shift then (num * Nat.pow 10 shift.toNat, den)
  else (num, den * Nat.pow 10 (-shift).toNat)

/-- The `k` with `10 ^ (k - 1) ≤ num / den < 10 ^ k`, for a positive ratio. -/
def decimalTop (num den : Nat) : Int :=
  if den ≤ num then digitCount (num / den) else 1 - (digitCount ((den - 1) / num) : Int)

/-- The open or closed interval of the ratios that round to one double, as numerators over a common
denominator. -/
structure Interval where
  low : Nat
  value : Nat
  high : Nat
  den : Nat
  closed : Bool

/-- The interval of a positive magnitude. Below a power of two the neighbour is half as far. -/
def Interval.around (m : Double.Magnitude) : Interval :=
  let low := if m.significand = Nat.pow 2 52 ∧ m.exponent > -1074 then 4 * m.significand - 1
    else 4 * m.significand - 2
  let (scale, den) := Double.scaleTwo 1 1 (m.exponent - 2)
  ⟨low * scale, 4 * m.significand * scale, (4 * m.significand + 2) * scale, den,
    m.significand % 2 = 0⟩

/-- Whether `c * 10 ^ e` lies in the interval. -/
def Interval.holds (i : Interval) (c : Nat) (e : Int) : Bool :=
  let (n, d) := scaleTen c 1 e
  let x := n * i.den
  let low := i.low * d
  let high := i.high * d
  if i.closed then low ≤ x && x ≤ high else low < x && x < high

/-- The nearer of the two grid neighbours `f` and `f + 1` of the value that lies in the interval, on
the grid of multiples of `10 ^ e`. -/
def Interval.pick (i : Interval) (e : Int) : Option Nat :=
  let (n, d) := scaleTen i.value i.den (-e)
  let f := n / d
  let r := n % d
  let nearer := if 2 * r < d || (2 * r = d && f % 2 = 0) then f else f + 1
  let other := if nearer = f then f + 1 else f
  if i.holds nearer e then some nearer else if i.holds other e then some other else none

/-- Moves zeros at the end of the digits into the exponent; the fuel bounds their number. -/
def stripZeros : Nat → Nat → Int → Digits
  | 0, n, e => ⟨n, e⟩
  | fuel + 1, n, e => if n % 10 = 0 ∧ n ≠ 0 then stripZeros fuel (n / 10) (e + 1) else ⟨n, e⟩

/-- Tries the grids with `n` digits and more, up to as many as the fuel says. -/
def searchFrom (i : Interval) (top : Int) : Nat → Nat → Option Digits
  | 0, _ => none
  | fuel + 1, n =>
    match i.pick (top - n) with
    | some c => some (stripZeros 18 c (top - n))
    | none => searchFrom i top fuel (n + 1)

/-- The shortest decimal of a finite double other than zero, without its sign. -/
def shortest? (d : Double) : Option Digits := do
  let m ← d.magnitude?
  if m.significand = 0 then none
  else
    let i := Interval.around m
    searchFrom i (decimalTop i.value i.den) 17 1

end BootTree.Decimal

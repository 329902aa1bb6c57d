/-
  Reading decimal numerals as doubles, by two rules.

  `nearest` is the double nearest to the number written. `scaled` reads as many digits as fit into
  64 bits, rounds them to a double, and multiplies or divides that by a power of ten rounded to a
  double; for short numerals the two agree.
-/
import BootTree.Decimal.Double

namespace BootTree.Decimal

/-- The number that a list of decimal digits denotes, in front of which stands `n`. -/
def digitsValue (n : Nat) (cs : List Char) : Nat :=
  cs.foldl (fun n c => 10 * n + (c.toNat - '0'.toNat)) n

/-- A numeral taken apart: sign, digits before and after the point, exponent of ten. The digits
after the point are none when there is no point. -/
structure Numeral where
  negative : Bool
  whole : List Char
  places : Option (List Char)
  exponent : Option Int
  deriving Repr, DecidableEq

/-- The significand with all digits, and the exponent of ten that goes with it. -/
def Numeral.significand (n : Numeral) : Nat × Int :=
  let places := n.places.getD []
  (digitsValue 0 (n.whole ++ places), n.exponent.getD 0 - places.length)

/-- The double nearest to the numeral; none where it is beyond the greatest double. Exponents far
outside the range are cut off before any power is taken. -/
def Numeral.nearest (n : Numeral) : Option Double :=
  let (m, e) := n.significand
  let size : Int := (n.whole.length + (n.places.getD []).length : Nat)
  if m = 0 then some (Double.zero n.negative)
  else if e > 400 then none
  else if e + size < -400 then some (Double.zero n.negative)
  else if 0 ≤ e then Double.ofRatio n.negative (m * Nat.pow 10 e.toNat) 1
  else Double.ofRatio n.negative m (Nat.pow 10 (-e).toNat)

/-- The greatest number of 64 bits without a sign. -/
def maxWord : Nat := Nat.pow 2 64 - 1

/-- Reads digits onto `m` as long as the result fits into 64 bits; gives the result and the digits
left over. -/
def takeWord (m : Nat) : List Char → Nat × List Char
  | [] => (m, [])
  | c :: cs =>
    let next := digitsValue m [c]
    if next ≤ maxWord then takeWord next cs else (m, c :: cs)

/-- The double nearest to `10 ^ k`, for `k` up to 308. -/
def powerOfTen (k : Nat) : Option Double := Double.ofNat (Nat.pow 10 k)

/-- Scales a double by a power of ten: at most two roundings, more where the exponent is below
`-308`. The fuel bounds the number of steps downward. -/
def scale : Nat → Double → Int → Option Double
  | 0, f, _ => some (Double.zero f.isNegative)
  | fuel + 1, f, e =>
    if e.natAbs ≤ 308 then do
      let p ← powerOfTen e.natAbs
      if 0 ≤ e then f.mul p else f.div p
    else if f = Double.zero false then some f
    else if 0 ≤ e then none
    else do
      let p ← powerOfTen 308
      scale fuel (← f.div p) (e + 308)

/-- Reads a numeral that has a point, an exponent, or more digits than fit into 64 bits. -/
def Numeral.scaled (n : Numeral) : Option Double :=
  let (m, rest) := takeWord 0 n.whole
  -- digits of the whole part that did not fit raise the exponent, those after the point are lost
  let (m, e) : Nat × Int := match n.places with
    | none => (m, rest.length)
    | some places =>
      let (m', left) := takeWord m places
      (m', (rest.length : Int) - (places.length - left.length : Nat))
  let limit : Int := Nat.pow 2 31 - 1
  let given := n.exponent.getD 0
  let magnitude :=
    if given.natAbs > limit then
      if m ≠ 0 ∧ given > 0 then none else some (Double.zero false)
    else do scale 6 (← Double.ofNat m) (e + given)
  magnitude.map fun d => if n.negative then d.negate else d

end BootTree.Decimal

/-
  Binary floating-point numbers of 64 bits, by their bits: sign, exponent, fraction.

  All arithmetic is on natural numbers. A ratio is rounded once, to the nearest number and from the
  middle to the one with an even significand; products and quotients are the exact ratio, rounded.
-/

namespace BootTree

/-- A double by its bit pattern. -/
structure Double where
  bits : UInt64
  deriving DecidableEq, Repr, Inhabited

namespace Double

/-- A finite magnitude `significand * 2 ^ exponent`. -/
structure Magnitude where
  significand : Nat
  exponent : Int
  deriving DecidableEq, Repr

def isNegative (d : Double) : Bool := d.bits.toNat ≥ Nat.pow 2 63

def biasedExponent (d : Double) : Nat := d.bits.toNat / Nat.pow 2 52 % Nat.pow 2 11

def fraction (d : Double) : Nat := d.bits.toNat % Nat.pow 2 52

/-- The magnitude, without the sign; infinities and not-a-number have none. -/
def magnitude? (d : Double) : Option Magnitude :=
  if d.biasedExponent = 2047 then none
  else if d.biasedExponent = 0 then some ⟨d.fraction, -1074⟩
  else some ⟨Nat.pow 2 52 + d.fraction, (d.biasedExponent : Int) - 1075⟩

/-- Assembles sign, biased exponent and fraction. -/
def assemble (negative : Bool) (biased fraction : Nat) : Double :=
  ⟨UInt64.ofNat ((if negative then Nat.pow 2 63 else 0) + biased * Nat.pow 2 52 + fraction)⟩

def zero (negative : Bool) : Double := assemble negative 0 0

def negate (d : Double) : Double :=
  assemble (!d.isNegative) d.biasedExponent d.fraction

/-- The quotient rounded to the nearest natural number, from the middle to the even one. -/
def roundEven (num den : Nat) : Nat :=
  let q := num / den
  let r := num % den
  if 2 * r < den then q else if den < 2 * r then q + 1 else q + q % 2

/-- `num / den * 2 ^ shift` as a ratio of natural numbers. -/
def scaleTwo (num den : Nat) (shift : Int) : Nat × Nat :=
  if 0 ≤ shift then (num * Nat.pow 2 shift.toNat, den)
  else (num, den * Nat.pow 2 (-shift).toNat)

/-- The double nearest to `num / den`, with the sign given; none where that would be infinite. -/
def ofRatio (negative : Bool) (num den : Nat) : Option Double :=
  if num = 0 then some (zero negative)
  else
    -- the ratio lies between `2 ^ (top - 1)` and `2 ^ (top + 1)`
    let top : Int := (num.log2 : Int) - den.log2
    let (n, d) := scaleTwo num den (-top)
    let top := if d ≤ n then top else top - 1
    let q := max (top - 52) (-1074)
    let (n, d) := scaleTwo num den (-q)
    let m := roundEven n d
    let (m, q) := if m = Nat.pow 2 53 then (Nat.pow 2 52, q + 1) else (m, q)
    if m < Nat.pow 2 52 then some (assemble negative 0 m)
    else if q + 1075 ≥ 2047 then none
    else some (assemble negative (q + 1075).toNat (m - Nat.pow 2 52))

/-- The double nearest to a natural number. -/
def ofNat (n : Nat) : Option Double := ofRatio false n 1

/-- The rounded product of two finite doubles. -/
def mul (a b : Double) : Option Double := do
  let x ← a.magnitude?
  let y ← b.magnitude?
  let (n, d) := scaleTwo (x.significand * y.significand) 1 (x.exponent + y.exponent)
  ofRatio (a.isNegative != b.isNegative) n d

/-- The rounded quotient of two finite doubles, the second not zero. -/
def div (a b : Double) : Option Double := do
  let x ← a.magnitude?
  let y ← b.magnitude?
  let (n, d) := scaleTwo x.significand y.significand (x.exponent - y.exponent)
  ofRatio (a.isNegative != b.isNegative) n d

end Double

end BootTree

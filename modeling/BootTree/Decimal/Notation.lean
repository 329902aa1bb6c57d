/-
  How a double is written down: the shortest digits that read back, in plain notation or with an
  exponent as the layout of the format says.
-/
import BootTree.Decimal.Shortest

namespace BootTree.Decimal

/-- What a format decides about the text of a number. -/
structure Layout where
  /-- Whether a number between `10 ^ (k - 1)` and `10 ^ k` is written without an exponent. -/
  plain : Int → Bool
  /-- What stands before the digits of an exponent that is not negative. -/
  exponentSign : List Char
  infinity : String
  notANumber : String

/-- `n` zeros. -/
def zeros (n : Nat) : List Char := List.replicate n '0'

/-- The text of a positive decimal without an exponent; there is always a digit on each side of the
point. -/
def plainText (d : Digits) : List Char :=
  let cs := Nat.toDigits 10 d.digits
  if 0 ≤ d.exponent then cs ++ zeros d.exponent.toNat ++ ['.', '0']
  else
    let places := (-d.exponent).toNat
    if places < cs.length then cs.take (cs.length - places) ++ '.' :: cs.drop (cs.length - places)
    else '0' :: '.' :: zeros (places - cs.length) ++ cs

/-- The text of a positive decimal with one digit before the point and an exponent. -/
def exponentText (sign : List Char) (d : Digits) : List Char :=
  let cs := Nat.toDigits 10 d.digits
  let e := d.exponent + cs.length - 1
  let significand := match cs with
    | [c] => [c]
    | c :: rest => c :: '.' :: rest
    | [] => []
  significand ++ 'e' :: (if e < 0 then '-' :: Nat.toDigits 10 (-e).toNat
    else sign ++ Nat.toDigits 10 e.toNat)

/-- The text of a double in a layout. -/
def Layout.text (layout : Layout) (d : Double) : String :=
  match d.magnitude? with
  | none =>
    if d.fraction ≠ 0 then layout.notANumber
    else if d.isNegative then "-" ++ layout.infinity else layout.infinity
  | some _ =>
    let body := match shortest? d with
      | none => ['0', '.', '0']
      | some digits =>
        let top := digits.exponent + digitCount digits.digits
        if layout.plain top then plainText digits else exponentText layout.exponentSign digits
    String.ofList (if d.isNegative then '-' :: body else body)

/-- Plain from `0.00001` up to below `10 ^ 16`. -/
def moderate (top : Int) : Bool := -5 < top && top ≤ 16

end BootTree.Decimal

import Breakpoints.Binary64
import Breakpoints.Decimal.Rounding

/-!
# Numbers as decimal texts

A finite number is printed with a given number of decimals, either in place or in
scientific form. Both forms round the exact value, halves to the even neighbour,
and show a set sign bit as a minus sign, also of zero.
-/

namespace Breakpoints

namespace Decimal

/-- The digits of a number, with zeros before them if they are fewer than `places`. -/
def paddedDigits (places n : Nat) : List Char :=
  let digits := Text.decimalDigits n
  List.replicate (places - digits.length) '0' ++ digits

/-- Digits with a point before the last `decimals` of them, or without a point if
that would be the end. -/
def pointed (decimals : Nat) (digits : List Char) : List Char :=
  if decimals = 0 then digits
  else
    let whole := digits.length - decimals
    digits.take whole ++ '.' :: digits.drop whole

end Decimal

namespace Binary64

open Decimal (Significant paddedDigits pointed roundQuotient significant)

def signed (x : Binary64) (text : List Char) : List Char :=
  if x.negative then '-' :: text else text

/-- The digits of the absolute value of a finite number. Those of zero are zeros,
and their exponent is zero. -/
def significant (places : Nat) (x : Binary64) : Significant :=
  let (num, den) := x.magnitude
  if num = 0 then ⟨0, 0⟩ else Decimal.significant places num den

/-- One digit before the point, and the exponent after an `e`. -/
def printScientific (decimals : Nat) (x : Binary64) : List Char :=
  let s := x.significant (decimals + 1)
  x.signed (pointed decimals (paddedDigits (decimals + 1) s.digits) ++
    'e' :: Text.decimalIntDigits s.exponent)

/-- The point at its place. -/
def printFixed (decimals : Nat) (x : Binary64) : List Char :=
  let (num, den) := x.magnitude
  let digits := roundQuotient (num * Nat.pow 10 decimals) den
  x.signed (pointed decimals (paddedDigits (decimals + 1) digits))

end Binary64

end Breakpoints

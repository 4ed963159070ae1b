import Breakpoints.Decimal.Printing
import Breakpoints.Value

/-!
# The text of a value

How a value is shown when the host has no words of its own for it. Floating-point
numbers are rounded to 14 significant digits and always show a point or an
exponent, which tells them from integers. They are printed twice: in scientific
form to find the exponent of the rounded number, and then, if the exponent is
neither too small nor too large, in place with as many decimals as that leaves.
-/

namespace Breakpoints

/-- How numbers are written: how many significant digits they are rounded to,
the least exponent that is written in place, and how many digits an exponent has
at least. Exponents from `places` on are not written in place either. -/
structure NumberFormat where
  places : Nat
  leastInPlace : Int
  exponentPlaces : Nat
  deriving DecidableEq, Repr

namespace NumberFormat

/-- The text without the characters at its end that are this one. -/
def dropTrailing (c : Char) (text : List Char) : List Char :=
  (text.reverse.dropWhile (· == c)).reverse

/-- A text with a point loses the zeros at its end, and then the point if it is
there. -/
def stripFractionZeros (text : List Char) : List Char :=
  if text.contains '.' then dropTrailing '.' (dropTrailing '0' text) else text

/-- What stands before the `e`, and the exponent after it, which is zero if it
cannot be read. -/
def splitExponent (text : List Char) : List Char × Int :=
  match text.dropWhile (· != 'e') with
  | [] => (text, 0)
  | _ :: exponent => (text.takeWhile (· != 'e'), (Text.readInt exponent).getD 0)

/-- The exponent with its sign, after an `e`. -/
def exponentText (f : NumberFormat) (exponent : Int) : List Char :=
  'e' :: (if exponent < 0 then '-' else '+')
    :: Decimal.paddedDigits f.exponentPlaces exponent.natAbs

/-- The text of a finite number, which may look like an integer. -/
def finiteText (f : NumberFormat) (x : Binary64) : List Char :=
  let (mantissa, exponent) := splitExponent (x.printScientific (f.places - 1))
  if exponent < f.leastInPlace || (f.places : Int) ≤ exponent then
    stripFractionZeros mantissa ++ f.exponentText exponent
  else stripFractionZeros (x.printFixed ((f.places : Int) - 1 - exponent).toNat)

/-- Appends a decimal to a text that looks like an integer. -/
def markIntegral (text : List Char) : List Char :=
  if text.all fun c => c.isDigit || c == '-' then text ++ ['.', '0'] else text

/-- A set sign bit is shown as a minus sign, also of zero and of a NaN. -/
def write (f : NumberFormat) (x : Binary64) : List Char :=
  if x.isNaN then x.signed ['n', 'a', 'n']
  else if x.isInfinite then x.signed ['i', 'n', 'f']
  else markIntegral (f.finiteText x)

end NumberFormat

/-- Values show 14 significant digits, exponents below -4 and from 14 on in
scientific form, and such an exponent with two digits or more. -/
def Value.numberFormat : NumberFormat := ⟨14, -4, 2⟩

/-- The text of a value. A reference shows its type and its address. -/
def Value.display : Value → String
  | .nil => "nil"
  | .boolean true => "true"
  | .boolean false => "false"
  | .integer n => Text.decimalInt n
  | .number x => String.ofList (numberFormat.write x)
  | .text s => s
  | .reference name address => name ++ ": " ++ Text.hexadecimal address

end Breakpoints

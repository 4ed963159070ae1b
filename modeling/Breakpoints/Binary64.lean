/-!
# Binary floating-point numbers of 64 bits

A number is its 64 bits: one for the sign, eleven for the exponent, 52 for the
fraction. `magnitude` gives the exact absolute value of a finite number as a
quotient of naturals. The bits are kept as they are, so that the sign of zero
and of a NaN is never lost.
-/

namespace Breakpoints

structure Binary64 where
  bits : UInt64
  deriving DecidableEq, Repr

namespace Binary64

def negative (x : Binary64) : Bool := x.bits.toNat.testBit 63

/-- The exponent field. -/
def exponentField (x : Binary64) : Nat := (x.bits.toNat >>> 52) % 0x800

/-- The fraction field. -/
def fractionField (x : Binary64) : Nat := x.bits.toNat % 0x10000000000000

def isNaN (x : Binary64) : Bool := x.exponentField == 2047 && x.fractionField != 0

def isInfinite (x : Binary64) : Bool := x.exponentField == 2047 && x.fractionField == 0

/-- Zero of either sign. -/
def isZero (x : Binary64) : Bool := x.exponentField == 0 && x.fractionField == 0

/-- The absolute value of a finite number as numerator and denominator. The
leading one is left out of the fraction field unless the exponent field is zero,
and a shift by `exponent - 1075` gives the last place its weight. -/
def magnitude (x : Binary64) : Nat × Nat :=
  let significand :=
    if x.exponentField = 0 then x.fractionField else x.fractionField + 0x10000000000000
  let exponent := max x.exponentField 1
  (significand <<< (exponent - 1075), 1 <<< (1075 - exponent))

/-- Equality of numbers: a NaN equals nothing, the two zeros equal each other. -/
def equal (x y : Binary64) : Bool :=
  !x.isNaN && !y.isNaN && (x == y || (x.isZero && y.isZero))

theorem shiftLeft_one_pos (k : Nat) : 0 < 1 <<< k := by
  rw [Nat.shiftLeft_eq, Nat.one_mul]
  exact Nat.two_pow_pos k

theorem magnitude_den_pos (x : Binary64) : 0 < x.magnitude.2 := shiftLeft_one_pos _

theorem equal_comm (x y : Binary64) : x.equal y = y.equal x := by
  have h : (x == y) = (y == x) := BEq.comm
  simp only [equal, h, Bool.and_comm x.isZero]
  cases x.isNaN <;> cases y.isNaN <;> rfl

@[simp] theorem equal_self (x : Binary64) : x.equal x = !x.isNaN := by
  simp [equal]

end Binary64

end Breakpoints

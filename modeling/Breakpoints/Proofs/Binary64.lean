import Breakpoints.Decimal.Printing
import Breakpoints.Proofs.Decimal.Rounding

/-!
# What the bits of a number stand for

The exact value of finite bits, as IEEE 754 gives it by their three fields, is up to the sign
the quotient that numbers are printed from (`abs_value`), so the printed digits are those of
the value rounded (`significant_roundsTo`). Flipping the sign bit leaves the other two fields as
they are (`magnitude_flipped` and its siblings).
-/

namespace Breakpoints.Binary64

open Decimal (RoundsTo roundQuotient)

/-! ## The value -/

/-- The value of finite bits. The exponent is biased by 1023; an exponent field of zero stands
for the least exponent, without a leading one. -/
def value (x : Binary64) : ℚ :=
  (if x.negative then -1 else 1) *
    if x.exponentField = 0 then (x.fractionField : ℚ) / 2 ^ 52 * 2 ^ (-1022 : ℤ)
    else (1 + (x.fractionField : ℚ) / 2 ^ 52) * 2 ^ ((x.exponentField : ℤ) - 1023)

theorem shifted_div (m e : ℕ) :
    ((m <<< (e - 1075) : ℕ) : ℚ) / ((1 <<< (1075 - e) : ℕ) : ℚ) = m * 2 ^ ((e : ℤ) - 1075) := by
  rw [Nat.shiftLeft_eq, Nat.shiftLeft_eq, Nat.one_mul, Nat.cast_mul, Nat.cast_pow, Nat.cast_pow,
    Nat.cast_ofNat]
  rcases Nat.le_total 1075 e with hle | hle
  · have hsub : ((e - 1075 : ℕ) : ℤ) = (e : ℤ) - 1075 := by omega
    rw [Nat.sub_eq_zero_of_le hle, pow_zero, div_one, ← zpow_natCast, hsub]
  · have hsub : ((1075 - e : ℕ) : ℤ) = -((e : ℤ) - 1075) := by omega
    rw [Nat.sub_eq_zero_of_le hle, pow_zero, mul_one, ← zpow_natCast, hsub,
      zpow_neg (2 : ℚ) ((e : ℤ) - 1075), div_inv_eq_mul]

/-- The fraction with the leading one, if there is one. -/
def significand (x : Binary64) : ℕ :=
  if x.exponentField = 0 then x.fractionField else x.fractionField + 0x10000000000000

theorem magnitude_div (x : Binary64) : (x.magnitude.1 : ℚ) / x.magnitude.2 =
    x.significand * 2 ^ (((max x.exponentField 1 : ℕ) : ℤ) - 1075) :=
  shifted_div _ _

theorem abs_value (x : Binary64) : |x.value| = (x.magnitude.1 : ℚ) / x.magnitude.2 := by
  have hsign : |if x.negative then (-1 : ℚ) else 1| = 1 := by split <;> norm_num
  have htwo (e f : ℤ) : (2 : ℚ) ^ (e + f) = 2 ^ e * 2 ^ f := zpow_add₀ (by norm_num) e f
  rw [value, abs_mul, hsign, one_mul, magnitude_div, significand]
  split
  · next hzero =>
    have hnonneg : (0 : ℚ) ≤ (x.fractionField : ℚ) / 2 ^ 52 * 2 ^ (-1022 : ℤ) := by positivity
    have hmax : ((max x.exponentField 1 : ℕ) : ℤ) - 1075 = -1022 + -52 := by rw [hzero]; rfl
    rw [abs_of_nonneg hnonneg, hmax, htwo]
    generalize (2 : ℚ) ^ (-1022 : ℤ) = least
    norm_num
    ring
  · next hnormal =>
    have hnonneg : (0 : ℚ) ≤ (1 + (x.fractionField : ℚ) / 2 ^ 52) *
        2 ^ ((x.exponentField : ℤ) - 1023) := by positivity
    have hmax : ((max x.exponentField 1 : ℕ) : ℤ) - 1075 =
        ((x.exponentField : ℤ) - 1023) + -52 := by
      rw [Nat.max_eq_left (Nat.pos_of_ne_zero hnormal)]
      ring
    rw [abs_of_nonneg hnonneg, hmax, htwo, Nat.cast_add]
    norm_num
    ring

/-! ## The digits -/

variable {places : ℕ}

theorem significant_roundsTo (hplaces : 0 < places) (x : Binary64) :
    RoundsTo places |x.value| (x.significant places) := by
  rw [abs_value, significant]
  dsimp only
  split
  · next hzero =>
    rw [hzero, Nat.cast_zero, zero_div]
    exact .zero
  · next hne =>
    exact Decimal.significant_roundsTo hplaces (Nat.pos_of_ne_zero hne) x.magnitude_den_pos

/-- The two ways to print a number round to the same digits, if it is printed in place with
the decimals that the exponent of the scientific form leaves. -/
theorem roundQuotient_eq_digits (hplaces : 0 < places) (x : Binary64) {decimals : ℕ}
    (hdecimals : (decimals : ℤ) = (places : ℤ) - 1 - (x.significant places).exponent) :
    roundQuotient (x.magnitude.1 * Nat.pow 10 decimals) x.magnitude.2 =
      (x.significant places).digits := by
  have hdigits := (significant_roundsTo hplaces x).nearestEven_decimals hplaces hdecimals
  have hquotient := Decimal.nearestEven_roundQuotient (x.magnitude.1 * Nat.pow 10 decimals)
    x.magnitude_den_pos
  have hvalue : ((x.magnitude.1 * Nat.pow 10 decimals : ℕ) : ℚ) / x.magnitude.2 =
      |x.value| * 10 ^ decimals := by
    rw [abs_value, Nat.pow_eq, Nat.cast_mul, Nat.cast_pow, Nat.cast_ofNat]
    ring
  rw [hvalue] at hquotient
  exact hquotient.unique hdigits

/-! ## The sign bit -/

/-- The number with its sign bit flipped. -/
def flipped (x : Binary64) : Binary64 := ⟨x.bits ^^^ 0x8000000000000000⟩

theorem toNat_bits_flipped (x : Binary64) : x.flipped.bits.toNat = x.bits.toNat ^^^ 2 ^ 63 :=
  UInt64.toNat_xor ..

@[simp] theorem negative_flipped (x : Binary64) : x.flipped.negative = !x.negative := by
  rw [negative, negative, toNat_bits_flipped, Nat.testBit_xor, Nat.testBit_two_pow_self,
    Bool.xor_true]

@[simp] theorem exponentField_flipped (x : Binary64) :
    x.flipped.exponentField = x.exponentField := by
  have hpow : 0x800 = 2 ^ 11 := rfl
  have hsign : (2 ^ 63 >>> 52) % 2 ^ 11 = 0 := rfl
  rw [exponentField, exponentField, toNat_bits_flipped, Nat.shiftRight_xor_distrib, hpow,
    Nat.xor_mod_two_pow, hsign, Nat.xor_zero]

@[simp] theorem fractionField_flipped (x : Binary64) :
    x.flipped.fractionField = x.fractionField := by
  have hpow : 0x10000000000000 = 2 ^ 52 := rfl
  have hsign : 2 ^ 63 % 2 ^ 52 = 0 := rfl
  rw [fractionField, fractionField, toNat_bits_flipped, hpow, Nat.xor_mod_two_pow, hsign,
    Nat.xor_zero]

theorem magnitude_congr {x y : Binary64} (hexponent : x.exponentField = y.exponentField)
    (hfraction : x.fractionField = y.fractionField) : x.magnitude = y.magnitude := by
  unfold magnitude
  rw [hexponent, hfraction]

@[simp] theorem magnitude_flipped (x : Binary64) : x.flipped.magnitude = x.magnitude :=
  magnitude_congr (exponentField_flipped x) (fractionField_flipped x)

@[simp] theorem isNaN_flipped (x : Binary64) : x.flipped.isNaN = x.isNaN := by
  simp only [isNaN, exponentField_flipped, fractionField_flipped]

@[simp] theorem isInfinite_flipped (x : Binary64) : x.flipped.isInfinite = x.isInfinite := by
  simp only [isInfinite, exponentField_flipped, fractionField_flipped]

@[simp] theorem significant_flipped (x : Binary64) (places : ℕ) :
    x.flipped.significant places = x.significant places := by
  simp only [significant, magnitude_flipped]

end Breakpoints.Binary64

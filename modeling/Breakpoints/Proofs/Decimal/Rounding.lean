import Breakpoints.Decimal.Rounding
import Mathlib.Algebra.Order.Field.Basic
import Mathlib.Algebra.Order.Field.Power
import Mathlib.Algebra.Order.Ring.Abs
import Mathlib.Data.Rat.Cast.Order
import Mathlib.Tactic.Linarith
import Mathlib.Tactic.NormNum
import Mathlib.Tactic.Ring

/-!
# Significant digits of a rational number

What rounding to significant digits means (`RoundsTo`): the number has a leading power of
ten, and its digits are those of the nearest multiple of a smaller power, the even one of two.
`significant` computes them (`significant_roundsTo`), also where rounding up reaches the next
power of ten. A number that is rounded once more, to as many decimals as the exponent of its
rounded value leaves, shows the same digits (`RoundsTo.nearestEven_decimals`).
-/

namespace Breakpoints.Decimal

/-! ## Rounding to a natural number -/

/-- The natural number is nearest to the rational one, and even if another is as near. -/
structure NearestEven (q : ℚ) (m : ℕ) : Prop where
  abs_le : |q - m| ≤ 1 / 2
  even : |q - m| = 1 / 2 → Even m

namespace NearestEven

variable {q : ℚ} {m k : ℕ}

theorem of_abs_lt (h : |q - m| < 1 / 2) : NearestEven q m :=
  ⟨le_of_lt h, fun heq => absurd heq (ne_of_lt h)⟩

theorem le_of_le (h : NearestEven q m) (hk : (k : ℚ) ≤ q) : k ≤ m := by
  have hm : q ≤ m + 1 / 2 := by linarith [le_abs_self (q - m), h.abs_le]
  have hlt : (k : ℚ) < m + 1 := by linarith
  exact Nat.lt_succ_iff.1 (by exact_mod_cast hlt)

theorem le_of_lt (h : NearestEven q m) (hk : q < k) : m ≤ k := by
  have hm : (m : ℚ) ≤ q + 1 / 2 := by linarith [neg_abs_le (q - m), h.abs_le]
  have hlt : (m : ℚ) < k + 1 := by linarith
  exact Nat.lt_succ_iff.1 (by exact_mod_cast hlt)

theorem unique {m' : ℕ} (h : NearestEven q m) (h' : NearestEven q m') : m = m' := by
  wlog hlt : m < m' generalizing m m'
  · rcases Nat.lt_trichotomy m m' with hm | hm | hm
    · exact absurd hm hlt
    · exact hm
    · exact (this h' h hm).symm
  exfalso
  -- Both are at a distance of one half, so both are even, and they are neighbours.
  have hle : (m : ℚ) + 1 ≤ m' := by exact_mod_cast hlt
  have hm : q - m ≤ 1 / 2 := (le_abs_self _).trans h.abs_le
  have hm' : -(1 / 2) ≤ q - m' := (neg_le_neg h'.abs_le).trans (neg_abs_le _)
  have heq : |q - m| = 1 / 2 := by
    rw [show q - m = 1 / 2 by linarith]
    norm_num
  have heq' : |q - m'| = 1 / 2 := by
    rw [show q - m' = -(1 / 2) by linarith]
    norm_num
  have hnext : m' = m + 1 := by
    have hcast : (m' : ℚ) = m + 1 := by linarith
    exact_mod_cast hcast
  obtain ⟨a, ha⟩ := h.even heq
  obtain ⟨b, hb⟩ := h'.even heq'
  omega

end NearestEven

theorem nearestEven_roundQuotient (num : ℕ) {den : ℕ} (h : 0 < den) :
    NearestEven ((num : ℚ) / den) (roundQuotient num den) := by
  have hden : (0 : ℚ) < den := by exact_mod_cast h
  obtain ⟨hlow, hhigh⟩ := roundQuotient_nearest num h
  have heven := roundQuotient_even num h
  generalize roundQuotient num den = m at *
  have herror : |(num : ℚ) / den - m| = |(num : ℚ) - m * den| / den := by
    rw [div_sub' (ne_of_gt hden), abs_div, abs_of_pos hden, mul_comm]
  constructor
  · have hlow' : (2 : ℚ) * num ≤ (2 * m + 1) * den := by exact_mod_cast hlow
    have hhigh' : (2 : ℚ) * m * den ≤ 2 * num + den := by exact_mod_cast hhigh
    rw [herror, div_le_iff₀ hden, abs_le]
    constructor <;> linarith
  · intro htie
    rw [herror, div_eq_iff (ne_of_gt hden)] at htie
    apply Nat.even_iff.2 (heven _)
    rcases abs_choice ((num : ℚ) - m * den) with habs | habs <;> rw [habs] at htie
    · left
      have heq : (2 : ℚ) * num = (2 * m + 1) * den := by linarith
      exact_mod_cast heq
    · right
      have heq : (2 : ℚ) * m * den = 2 * num + den := by linarith
      exact_mod_cast heq

/-! ## Powers of ten -/

theorem ten_zpow_pos (e : ℤ) : (0 : ℚ) < 10 ^ e := zpow_pos (by norm_num) e

theorem ten_zpow_ne_zero (e : ℤ) : (10 : ℚ) ^ e ≠ 0 := ne_of_gt (ten_zpow_pos e)

theorem ten_zpow_add (e f : ℤ) : (10 : ℚ) ^ (e + f) = 10 ^ e * 10 ^ f :=
  zpow_add₀ (by norm_num) e f

theorem ten_zpow_le_iff {e f : ℤ} : (10 : ℚ) ^ e ≤ 10 ^ f ↔ e ≤ f :=
  zpow_le_zpow_iff_right₀ (by norm_num)

theorem ten_zpow_lt_iff {e f : ℤ} : (10 : ℚ) ^ e < 10 ^ f ↔ e < f :=
  zpow_lt_zpow_iff_right₀ (by norm_num)

theorem scale_den_pos {den : ℕ} (h : 0 < den) (num : ℕ) (e : ℤ) : 0 < (scale num den e).2 := by
  cases e with
  | ofNat e => exact h
  | negSucc e => exact Nat.mul_pos h (Nat.pow_pos (by norm_num))

/-- Scaling multiplies the quotient by a power of ten. -/
theorem scale_div (num den : ℕ) (e : ℤ) :
    ((scale num den e).1 : ℚ) / (scale num den e).2 = num / den * 10 ^ e := by
  cases e with
  | ofNat e =>
    simp only [scale, Nat.pow_eq, Nat.cast_mul, Nat.cast_pow, Nat.cast_ofNat, Int.ofNat_eq_natCast,
      zpow_natCast]
    ring
  | negSucc e =>
    simp only [scale, Nat.pow_eq, Nat.cast_mul, Nat.cast_pow, Nat.cast_ofNat, zpow_negSucc]
    rw [div_mul_eq_div_div, div_eq_mul_inv (_ / _)]

/-- The number of digits gives the leading power of ten of a natural number. -/
theorem length_decimalDigits_spec {n : ℕ} (h : 0 < n) :
    (10 : ℚ) ^ (((Text.decimalDigits n).length : ℤ) - 1) ≤ n ∧
      (n : ℚ) < 10 ^ ((Text.decimalDigits n).length : ℤ) := by
  have hpos : 0 < (Text.decimalDigits n).length := Nat.length_toDigits_pos
  have hiff {k : ℕ} (hk : 0 < k) : (Text.decimalDigits n).length ≤ k ↔ n < 10 ^ k :=
    Nat.length_toDigits_le_iff (by norm_num) hk
  generalize (Text.decimalDigits n).length = k at *
  obtain ⟨k, rfl⟩ : ∃ k', k = k' + 1 := ⟨k - 1, by omega⟩
  have hlow : 10 ^ k ≤ n := by
    cases k with
    | zero => exact h
    | succ k => exact not_lt.1 fun hlt => absurd ((hiff (Nat.succ_pos k)).2 hlt) (by omega)
  constructor
  · rw [Nat.cast_succ, add_sub_cancel_right, zpow_natCast]
    exact_mod_cast hlow
  · rw [zpow_natCast]
    exact_mod_cast (hiff hpos).1 (Nat.le_refl _)

/-- The leading power of ten of a positive quotient. -/
theorem leadingExponent_spec {num den : ℕ} (hnum : 0 < num) (hden : 0 < den) :
    (10 : ℚ) ^ leadingExponent num den ≤ num / den ∧
      (num : ℚ) / den < 10 ^ (leadingExponent num den + 1) := by
  have hden' : (0 : ℚ) < den := by exact_mod_cast hden
  obtain ⟨hnumLow, hnumHigh⟩ := length_decimalDigits_spec hnum
  obtain ⟨hdenLow, hdenHigh⟩ := length_decimalDigits_spec hden
  unfold leadingExponent
  generalize ((Text.decimalDigits num).length : ℤ) = a at *
  generalize ((Text.decimalDigits den).length : ℤ) = b at *
  have hlow : (10 : ℚ) ^ (a - b - 1) ≤ num / den := by
    rw [le_div_iff₀ hden']
    calc (10 : ℚ) ^ (a - b - 1) * den
        ≤ 10 ^ (a - b - 1) * 10 ^ b := mul_le_mul_of_nonneg_left hdenHigh.le (ten_zpow_pos _).le
      _ = 10 ^ (a - 1) := by rw [← ten_zpow_add]; congr 1; ring
      _ ≤ num := hnumLow
  have hhigh : (num : ℚ) / den < 10 ^ (a - b + 1) := by
    rw [div_lt_iff₀ hden']
    calc (num : ℚ) < 10 ^ a := hnumHigh
      _ = 10 ^ (a - b + 1) * 10 ^ (b - 1) := by rw [← ten_zpow_add]; congr 1; ring
      _ ≤ 10 ^ (a - b + 1) * den := mul_le_mul_of_nonneg_left hdenLow (ten_zpow_pos _).le
  -- The quotient scaled down by the larger candidate tells the two apart.
  have hscaled := scale_div num den (-(a - b))
  have hpos : (0 : ℚ) < (scale num den (-(a - b))).2 := by
    exact_mod_cast scale_den_pos hden num (-(a - b))
  have hreach : (scale num den (-(a - b))).2 ≤ (scale num den (-(a - b))).1 ↔
      (10 : ℚ) ^ (a - b) ≤ num / den := by
    rw [← Nat.cast_le (α := ℚ), ← one_le_div hpos, hscaled, zpow_neg, ← div_eq_mul_inv,
      one_le_div (ten_zpow_pos _)]
  dsimp only
  split
  · next hle => exact ⟨hreach.1 hle, hhigh⟩
  · next hlt =>
    rw [sub_add_cancel]
    exact ⟨hlow, not_le.1 fun hle => hlt (hreach.2 hle)⟩

/-! ## Significant digits -/

/-- A number rounded to significant digits. Zero has the exponent zero. Any other number has a
leading power of ten, is rounded to a multiple of the power that is `places - 1` smaller, and
the digits, `places` of them, say the same with the exponent of the first of them. -/
inductive RoundsTo (places : ℕ) : ℚ → Significant → Prop
  | zero : RoundsTo places 0 ⟨0, 0⟩
  | positive {v : ℚ} {s : Significant} {k : ℤ} {m : ℕ} (low : 10 ^ k ≤ v) (high : v < 10 ^ (k + 1))
    (nearest : NearestEven (v * 10 ^ ((places : ℤ) - 1 - k)) m)
    (full : 10 ^ (places - 1) ≤ s.digits) (fits : s.digits < 10 ^ places)
    (value : (s.digits : ℚ) * 10 ^ (s.exponent - ((places : ℤ) - 1)) =
      m * 10 ^ (k - ((places : ℤ) - 1))) : RoundsTo places v s

section Significant

variable {places m : ℕ} {v : ℚ} {k : ℤ}

/-- Rounding to so many digits gives at least the smallest number with as many digits and at
most the smallest with one more. -/
theorem NearestEven.digits_bounds (hplaces : 0 < places) (low : 10 ^ k ≤ v)
    (high : v < 10 ^ (k + 1)) (h : NearestEven (v * 10 ^ ((places : ℤ) - 1 - k)) m) :
    10 ^ (places - 1) ≤ m ∧ m ≤ 10 ^ places := by
  have hscale := ten_zpow_pos ((places : ℤ) - 1 - k)
  constructor
  · apply h.le_of_le
    calc (((10 ^ (places - 1) : ℕ)) : ℚ) = 10 ^ k * 10 ^ ((places : ℤ) - 1 - k) := by
          rw [← ten_zpow_add, Nat.cast_pow, Nat.cast_ofNat, ← zpow_natCast]
          congr 1
          omega
      _ ≤ v * 10 ^ ((places : ℤ) - 1 - k) := mul_le_mul_of_nonneg_right low hscale.le
  · apply h.le_of_lt
    calc v * 10 ^ ((places : ℤ) - 1 - k)
        < 10 ^ (k + 1) * 10 ^ ((places : ℤ) - 1 - k) := mul_lt_mul_of_pos_right high hscale
      _ = ((10 ^ places : ℕ) : ℚ) := by
          rw [← ten_zpow_add, Nat.cast_pow, Nat.cast_ofNat, ← zpow_natCast]
          congr 1
          omega

/-- `significant` rounds to significant digits. -/
theorem significant_roundsTo (hplaces : 0 < places) {num den : ℕ} (hnum : 0 < num)
    (hden : 0 < den) : RoundsTo places ((num : ℚ) / den) (significant places num den) := by
  obtain ⟨hlow, hhigh⟩ := leadingExponent_spec hnum hden
  unfold significant
  generalize leadingExponent num den = k at *
  have hnearest := nearestEven_roundQuotient (scale num den ((places : ℤ) - 1 - k)).1
    (scale_den_pos hden num ((places : ℤ) - 1 - k))
  rw [scale_div] at hnearest
  obtain ⟨hfull, hnext⟩ := hnearest.digits_bounds hplaces hlow hhigh
  dsimp only
  split
  · next hlt => exact .positive hlow hhigh hnearest hfull hlt rfl
  · next hge =>
    have hcarry := Nat.le_antisymm hnext (not_lt.1 hge)
    refine .positive hlow hhigh hnearest (Nat.le_refl _)
      (Nat.pow_lt_pow_right (by norm_num) (by omega)) ?_
    rw [hcarry]
    simp only [Nat.pow_eq, Nat.cast_pow, Nat.cast_ofNat, ← zpow_natCast, ← ten_zpow_add]
    congr 1
    omega

/-- The digits are the nearest number, or that number was reached by rounding up past all
nines. -/
theorem digits_eq_or_carry {d : ℕ} {e : ℤ} (hplaces : 0 < places) (hfull : 10 ^ (places - 1) ≤ d)
    (hfits : d < 10 ^ places) (hm : 10 ^ (places - 1) ≤ m) (hm' : m ≤ 10 ^ places)
    (hvalue : (d : ℚ) * 10 ^ (e - ((places : ℤ) - 1)) = m * 10 ^ (k - ((places : ℤ) - 1))) :
    d = m ∧ e = k ∨ d = 10 ^ (places - 1) ∧ m = 10 ^ places ∧ e = k + 1 := by
  have hvalue' : (d : ℚ) * 10 ^ (e - k) = m := by
    have hne := ten_zpow_ne_zero (k - ((places : ℤ) - 1))
    rw [show e - ((places : ℤ) - 1) = (e - k) + (k - ((places : ℤ) - 1)) by ring, ten_zpow_add,
      ← mul_assoc] at hvalue
    exact mul_right_cancel₀ hne hvalue
  have hten : 10 ^ places = 10 * 10 ^ (places - 1) := by
    rw [← Nat.pow_succ', Nat.succ_eq_add_one, Nat.sub_add_cancel hplaces]
  rcases lt_trichotomy e k with hlt | rfl | hgt
  · -- The digits would be ten times the nearest number.
    exfalso
    have hle : (10 : ℚ) ^ (e - k) ≤ 10 ^ (-1 : ℤ) := ten_zpow_le_iff.2 (by omega)
    have hdm : (10 : ℚ) * m ≤ d := by
      have := mul_le_mul_of_nonneg_left hle (Nat.cast_nonneg (α := ℚ) d)
      rw [hvalue', zpow_neg_one] at this
      linarith
    have hdm' : 10 * m ≤ d := by exact_mod_cast hdm
    omega
  · left
    rw [sub_self, zpow_zero, mul_one] at hvalue'
    exact ⟨by exact_mod_cast hvalue', rfl⟩
  · right
    obtain ⟨j, hj⟩ : ∃ j : ℕ, e - k = j + 1 := ⟨(e - k - 1).toNat, by omega⟩
    have hnat : d * 10 ^ (j + 1) = m := by
      rw [hj] at hvalue'
      exact_mod_cast hvalue'
    have hj0 : j = 0 := by
      by_contra hne
      have hpow : 10 ^ 2 ≤ 10 ^ (j + 1) := Nat.pow_le_pow_right (by norm_num) (by omega)
      have hbig : d * 10 ^ 2 ≤ m := hnat ▸ Nat.mul_le_mul_left d hpow
      omega
    subst hj0
    simp only [zero_add, pow_one] at hnat
    exact ⟨by omega, by omega, by omega⟩

/-- **Rounding once more** to as many decimals as the exponent of the rounded number leaves
gives the same digits, also where that exponent is one more than the leading one. -/
theorem RoundsTo.nearestEven_decimals {s : Significant} (hplaces : 0 < places)
    (h : RoundsTo places v s) {decimals : ℕ}
    (hdecimals : (decimals : ℤ) = (places : ℤ) - 1 - s.exponent) :
    NearestEven (v * 10 ^ decimals) s.digits := by
  obtain _ | @⟨v, ⟨d, e⟩, k, m, hlow, hhigh, hnearest, hfull, hfits, hvalue⟩ := h
  · exact .of_abs_lt (by norm_num)
  rw [← zpow_natCast, hdecimals]
  obtain ⟨hm, hm'⟩ := hnearest.digits_bounds hplaces hlow hhigh
  rcases digits_eq_or_carry hplaces hfull hfits hm hm' hvalue with ⟨rfl, rfl⟩ | ⟨rfl, rfl, rfl⟩
  · exact hnearest
  · -- A tenth of a number that is within one half of the next power of ten.
    have htenth : v * 10 ^ ((places : ℤ) - 1 - (k + 1)) =
        v * 10 ^ ((places : ℤ) - 1 - k) / 10 := by
      rw [show (places : ℤ) - 1 - (k + 1) = ((places : ℤ) - 1 - k) + (-1) by ring, ten_zpow_add,
        zpow_neg_one]
      ring
    have hten : ((10 ^ (places - 1) : ℕ) : ℚ) = ((10 ^ places : ℕ) : ℚ) / 10 := by
      rw [eq_div_iff (by norm_num)]
      exact_mod_cast (Nat.pow_succ ..).symm.trans (by rw [Nat.succ_eq_add_one,
        Nat.sub_add_cancel hplaces])
    apply NearestEven.of_abs_lt
    rw [htenth, hten, ← sub_div, abs_div, abs_of_pos (by norm_num : (0 : ℚ) < 10)]
    have hle := hnearest.abs_le
    rw [div_lt_iff₀ (by norm_num)]
    linarith

/-- A number has only one rounding to significant digits. -/
theorem RoundsTo.unique {s s' : Significant} (hplaces : 0 < places) (h : RoundsTo places v s)
    (h' : RoundsTo places v s') : s = s' := by
  obtain _ | @⟨v, ⟨d, e⟩, k, m, hlow, hhigh, hnearest, hfull, hfits, hvalue⟩ := h
  · cases h' with
    | zero => rfl
    | positive hlow => exact absurd hlow (not_le.2 (ten_zpow_pos _))
  obtain _ | @⟨v, ⟨d', e'⟩, k', m', hlow', hhigh', hnearest', hfull', hfits', hvalue'⟩ := h'
  · exact absurd hlow (not_le.2 (ten_zpow_pos _))
  have hk : k = k' := by
    have hlt := ten_zpow_lt_iff.1 (hlow.trans_lt hhigh')
    have hlt' := ten_zpow_lt_iff.1 (hlow'.trans_lt hhigh)
    omega
  subst hk
  obtain rfl := hnearest.unique hnearest'
  obtain ⟨hm, hm'⟩ := hnearest.digits_bounds hplaces hlow hhigh
  dsimp only at hfull hfits hvalue hfull' hfits' hvalue'
  rw [Significant.mk.injEq]
  rcases digits_eq_or_carry hplaces hfull hfits hm hm' hvalue with h | h <;>
    rcases digits_eq_or_carry hplaces hfull' hfits' hm hm' hvalue' with h' | h' <;> omega

end Significant

end Breakpoints.Decimal

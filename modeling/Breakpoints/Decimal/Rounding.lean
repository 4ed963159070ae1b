import Breakpoints.Text.Numeral

/-!
# Rounding a quotient to decimal digits

A positive rational number is a pair of naturals, numerator and denominator.
`significant` gives its first `p` decimal digits as a number `d` and the
exponent `e` of the leading one, so that `d * 10 ^ (e - (p - 1))` is the number
rounded to `p` significant digits. Halves go to the even neighbour;
`roundQuotient_nearest` bounds the error by one half.
-/

namespace Breakpoints.Decimal

/-- The integer nearest to `num / den`; a half goes to the even neighbour. -/
def roundQuotient (num den : Nat) : Nat :=
  let q := num / den
  let twice := 2 * (num % den)
  if twice < den then q
  else if den < twice then q + 1
  else q + q % 2

/-- A remainder of less than one half is rounded down, of more than one half up. -/
theorem roundQuotient_cases (num : Nat) {den : Nat} (h : 0 < den) :
    ∃ q r, num = q * den + r ∧ r < den ∧
      (2 * r < den ∧ roundQuotient num den = q ∨
        den < 2 * r ∧ roundQuotient num den = q + 1 ∨
        2 * r = den ∧ roundQuotient num den = q + q % 2) := by
  refine ⟨num / den, num % den, (Nat.div_add_mod' num den).symm, Nat.mod_lt num h, ?_⟩
  unfold roundQuotient
  by_cases hless : 2 * (num % den) < den
  · exact .inl ⟨hless, if_pos hless⟩
  by_cases hmore : den < 2 * (num % den)
  · exact .inr (.inl ⟨hmore, (if_neg hless).trans (if_pos hmore)⟩)
  · exact .inr (.inr ⟨by omega, (if_neg hless).trans (if_neg hmore)⟩)

theorem roundQuotient_nearest (num : Nat) {den : Nat} (h : 0 < den) :
    2 * num ≤ (2 * roundQuotient num den + 1) * den ∧
      2 * roundQuotient num den * den ≤ 2 * num + den := by
  obtain ⟨q, r, hnum, hr, ⟨hless, hround⟩ | ⟨hmore, hround⟩ | ⟨hhalf, hround⟩⟩ :=
    roundQuotient_cases num h
  all_goals rw [hround, hnum]
  · simp only [Nat.mul_add, Nat.add_mul, Nat.mul_assoc]
    omega
  · simp only [Nat.mul_add, Nat.add_mul, Nat.mul_assoc]
    omega
  · rcases Nat.mod_two_eq_zero_or_one q with hq | hq <;> rw [hq] <;>
      simp only [Nat.mul_add, Nat.add_mul, Nat.mul_assoc] <;> omega

/-- Where the error is one half, on either side, the result is even. -/
theorem roundQuotient_even (num : Nat) {den : Nat} (h : 0 < den)
    (htie : 2 * num = (2 * roundQuotient num den + 1) * den ∨
      2 * roundQuotient num den * den = 2 * num + den) : roundQuotient num den % 2 = 0 := by
  obtain ⟨q, r, hnum, hr, ⟨hless, hround⟩ | ⟨hmore, hround⟩ | ⟨hhalf, hround⟩⟩ :=
    roundQuotient_cases num h
  · rw [hround, hnum] at htie
    simp only [Nat.mul_add, Nat.add_mul, Nat.mul_assoc] at htie
    omega
  · rw [hround, hnum] at htie
    simp only [Nat.mul_add, Nat.add_mul, Nat.mul_assoc] at htie
    omega
  · rw [hround]
    omega

/-- A quotient times a power of ten, again as numerator and denominator. -/
def scale (num den : Nat) : Int → Nat × Nat
  | .ofNat e => (num * Nat.pow 10 e, den)
  | .negSucc e => (num, den * Nat.pow 10 (e + 1))

/-- The exponent of the leading decimal digit of `num / den`. The numbers of
digits of the two leave only two candidates; the larger one is right exactly
if the quotient reaches that power of ten. -/
def leadingExponent (num den : Nat) : Int :=
  let e := ((Text.decimalDigits num).length : Int) - (Text.decimalDigits den).length
  let (n, d) := scale num den (-e)
  if d ≤ n then e else e - 1

/-- Digits of a positive quotient: `digits` is a number of exactly the wanted
digits, `exponent` the exponent of the leading one. -/
structure Significant where
  digits : Nat
  exponent : Int
  deriving DecidableEq, Repr

/-- `num / den` rounded to `places` significant digits. Rounding up past
`9...9` gives the next power of ten. -/
def significant (places num den : Nat) : Significant :=
  let e := leadingExponent num den
  let (n, d) := scale num den ((places : Int) - 1 - e)
  let digits := roundQuotient n d
  if digits < Nat.pow 10 places then ⟨digits, e⟩ else ⟨Nat.pow 10 (places - 1), e + 1⟩

end Breakpoints.Decimal

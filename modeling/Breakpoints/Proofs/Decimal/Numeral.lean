import Breakpoints.Proofs.Text.Word
import Mathlib.Algebra.Field.Rat
import Mathlib.Algebra.Order.Field.Basic
import Mathlib.Data.List.TakeWhile
import Mathlib.Data.Rat.Cast.Defs
import Mathlib.Tactic.Ring

/-!
# Decimal numerals

A decimal numeral is a sign, digits, perhaps a point with more digits, and perhaps an exponent
of ten. A text is that of one numeral at most (`DecimalNumeral.text_injective`), so it makes
sense to speak of the number that it denotes. Zeros at the end of the digits after the point
make no difference to the number (`decimalValue_append_zeros`).
-/

namespace Breakpoints

open Text (Digits)

/-! ## Digits before and after a point -/

/-- The number that digits denote which have a point between them. -/
def decimalValue (whole fraction : List Char) : ℚ :=
  (Nat.ofDigitChars 10 (whole ++ fraction) 0 : ℚ) / 10 ^ fraction.length

theorem decimalValue_append_zeros (whole fraction : List Char) (n : ℕ) :
    decimalValue whole (fraction ++ List.replicate n '0') = decimalValue whole fraction := by
  have hdigits : Nat.ofDigitChars 10 (whole ++ (fraction ++ List.replicate n '0')) 0 =
      10 ^ n * Nat.ofDigitChars 10 (whole ++ fraction) 0 := by
    rw [← List.append_assoc, Nat.ofDigitChars_append, Nat.ofDigitChars_replicate_zero]
  have hlength : (fraction ++ List.replicate n '0').length = n + fraction.length := by
    rw [List.length_append, List.length_replicate, Nat.add_comm]
  rw [decimalValue, decimalValue, hdigits, hlength, pow_add, Nat.cast_mul, Nat.cast_pow,
    Nat.cast_ofNat]
  exact mul_div_mul_left _ _ (pow_ne_zero _ (by norm_num))

theorem decimalValue_singleton_zero (whole : List Char) :
    decimalValue whole ['0'] = decimalValue whole [] :=
  decimalValue_append_zeros whole [] 1

/-- A point and the digits after it, or nothing if there are none. -/
def pointText : List Char → List Char
  | [] => []
  | fraction => '.' :: fraction

/-! ## Numerals -/

/-- A power of ten: an `e`, a sign and digits. -/
structure Exponent where
  negative : Bool
  digits : List Char
  isDigits : Digits digits

namespace Exponent

def text (e : Exponent) : List Char := 'e' :: (if e.negative then '-' else '+') :: e.digits

def value (e : Exponent) : ℤ :=
  (if e.negative then -1 else 1) * (Nat.ofDigitChars 10 e.digits 0 : ℤ)

theorem text_injective {e e' : Exponent} (h : e.text = e'.text) : e = e' := by
  obtain ⟨negative, digits, _⟩ := e
  obtain ⟨negative', digits', _⟩ := e'
  simp only [text, List.cons.injEq, true_and] at h
  obtain ⟨hsign, rfl⟩ := h
  have hnegative : negative = negative' := by
    cases negative <;> cases negative' <;> simp_all
  rw [Exponent.mk.injEq]
  exact ⟨hnegative, rfl⟩

end Exponent

/-- A numeral as it is written. If there are no digits after the point, there is no point. -/
structure DecimalNumeral where
  negative : Bool
  whole : List Char
  fraction : List Char
  exponent : Option Exponent
  whole_digits : Digits whole
  fraction_digits : ∀ c ∈ fraction, c.isDigit = true

namespace DecimalNumeral

/-- The text without the sign. -/
def magnitudeText (n : DecimalNumeral) : List Char :=
  n.whole ++ (pointText n.fraction ++ (n.exponent.map Exponent.text).getD [])

def text (n : DecimalNumeral) : List Char :=
  if n.negative then '-' :: n.magnitudeText else n.magnitudeText

def value (n : DecimalNumeral) : ℚ :=
  (if n.negative then -1 else 1) * decimalValue n.whole n.fraction *
    10 ^ ((n.exponent.map Exponent.value).getD 0)

end DecimalNumeral

/-! ## The numeral of a text -/

/-- Digits end where something else begins. -/
theorem digits_append_inj {ds ds' rest rest' : List Char} (h : ds ++ rest = ds' ++ rest')
    (hds : ∀ c ∈ ds, c.isDigit = true) (hds' : ∀ c ∈ ds', c.isDigit = true)
    (hrest : ∀ c ∈ rest.head?, c.isDigit = false)
    (hrest' : ∀ c ∈ rest'.head?, c.isDigit = false) : ds = ds' ∧ rest = rest' := by
  have hspan {ds rest : List Char} (hds : ∀ c ∈ ds, c.isDigit = true)
      (hrest : ∀ c ∈ rest.head?, c.isDigit = false) :
      (ds ++ rest).takeWhile Char.isDigit = ds := by
    rw [List.takeWhile_append_of_pos hds]
    cases rest with
    | nil => simp
    | cons c rest => simp [hrest c rfl]
  have heq : ds = ds' := by rw [← hspan hds hrest, h, hspan hds' hrest']
  subst heq
  exact ⟨rfl, List.append_cancel_left h⟩

namespace DecimalNumeral

theorem head_exponentText (exponent : Option Exponent) :
    ∀ c ∈ ((exponent.map Exponent.text).getD []).head?, c = 'e' := by
  cases exponent with
  | none => exact fun c hc => nomatch hc
  | some e =>
    intro c hc
    exact (Option.some.inj hc).symm

theorem exponentText_ne_point (exponent : Option Exponent) (rest : List Char) :
    (exponent.map Exponent.text).getD [] ≠ '.' :: rest := by
  intro h
  have hhead := head_exponentText exponent '.' (by rw [h]; rfl)
  exact absurd hhead (by decide)

theorem not_isDigit_head_exponentText (exponent : Option Exponent) :
    ∀ c ∈ ((exponent.map Exponent.text).getD []).head?, c.isDigit = false := by
  intro c hc
  rw [head_exponentText exponent c hc]
  decide

theorem exponentText_injective {exponent exponent' : Option Exponent}
    (h : (exponent.map Exponent.text).getD [] = (exponent'.map Exponent.text).getD []) :
    exponent = exponent' := by
  cases exponent <;> cases exponent'
  · rfl
  · cases h
  · cases h
  · rw [Exponent.text_injective h]

theorem magnitudeText_injective {n n' : DecimalNumeral}
    (h : n.magnitudeText = n'.magnitudeText) :
    n.whole = n'.whole ∧ n.fraction = n'.fraction ∧ n.exponent = n'.exponent := by
  have htail (n : DecimalNumeral) : ∀ c ∈ (pointText n.fraction ++
      (n.exponent.map Exponent.text).getD []).head?, c.isDigit = false := by
    cases hfraction : n.fraction with
    | nil => exact not_isDigit_head_exponentText n.exponent
    | cons d ds =>
      intro c hc
      rw [← Option.some.inj hc]
      decide
  obtain ⟨hwhole, hrest⟩ :=
    digits_append_inj h n.whole_digits.2 n'.whole_digits.2 (htail n) (htail n')
  refine ⟨hwhole, ?_⟩
  cases hf : n.fraction with
  | nil =>
    cases hf' : n'.fraction with
    | nil =>
      rw [hf, hf'] at hrest
      exact ⟨rfl, exponentText_injective hrest⟩
    | cons d ds =>
      rw [hf, hf'] at hrest
      exact absurd hrest (exponentText_ne_point n.exponent _)
  | cons d ds =>
    cases hf' : n'.fraction with
    | nil =>
      rw [hf, hf'] at hrest
      exact absurd hrest.symm (exponentText_ne_point n'.exponent _)
    | cons d' ds' =>
      rw [hf, hf'] at hrest
      obtain ⟨hfraction, hexponent⟩ := digits_append_inj (List.cons.inj hrest).2
        (hf ▸ n.fraction_digits) (hf' ▸ n'.fraction_digits)
        (not_isDigit_head_exponentText n.exponent) (not_isDigit_head_exponentText n'.exponent)
      exact ⟨hfraction, exponentText_injective hexponent⟩

/-- **A text is that of one numeral** at most. -/
theorem text_injective {n n' : DecimalNumeral} (h : n.text = n'.text) : n = n' := by
  have hhead (n : DecimalNumeral) (rest : List Char) : n.magnitudeText ≠ '-' :: rest := by
    obtain ⟨c, cs, hwhole⟩ := List.exists_cons_of_ne_nil n.whole_digits.1
    intro heq
    rw [magnitudeText, hwhole] at heq
    have hdigit := n.whole_digits.2 c (hwhole ▸ List.mem_cons_self)
    rw [(List.cons.inj heq).1] at hdigit
    exact absurd hdigit (by decide)
  obtain ⟨hnegative, hmagnitude⟩ :
      n.negative = n'.negative ∧ n.magnitudeText = n'.magnitudeText := by
    unfold text at h
    cases hn : n.negative <;> cases hn' : n'.negative <;> rw [hn, hn'] at h
    · exact ⟨rfl, h⟩
    · exact absurd h (hhead n _)
    · exact absurd h.symm (hhead n' _)
    · exact ⟨rfl, (List.cons.inj h).2⟩
  obtain ⟨hwhole, hfraction, hexponent⟩ := magnitudeText_injective hmagnitude
  cases n
  cases n'
  simp only at hnegative hwhole hfraction hexponent
  subst hnegative hwhole hfraction hexponent
  rfl

end DecimalNumeral

end Breakpoints

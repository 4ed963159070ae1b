import Breakpoints.Proofs.Binary64
import Breakpoints.Proofs.Decimal.Numeral
import Breakpoints.Proofs.Template.Pieces
import Breakpoints.Value.Display
import Mathlib.Data.List.Basic
import Mathlib.Data.List.Induction

/-!
# What displayed numbers denote

A finite number is displayed as a decimal numeral (`NumberFormat.numeral`), with the digits of
its value rounded to 14 significant ones. The text comes about in two printings, the second of
which rounds on its own; both show the same digits (`write_eq_text`). Neither the zeros that
are taken off nor the decimal that is appended change the number (`value_numeral`).
-/

namespace Breakpoints

open Decimal (RoundsTo Significant paddedDigits pointed roundQuotient)
open Text (Digits)

/-! ## Printed digits -/

namespace Decimal

variable (decimals n : ℕ)

theorem isDigit_of_mem_paddedDigits {places n : ℕ} {c : Char} (h : c ∈ paddedDigits places n) :
    c.isDigit = true := by
  rcases List.mem_append.1 h with h | h
  · rw [List.eq_of_mem_replicate h]
    decide
  · exact Text.isDigit_of_mem_decimalDigits h

theorem length_paddedDigits (places n : ℕ) :
    (paddedDigits places n).length = max places (Text.decimalDigits n).length := by
  simp only [paddedDigits, List.length_append, List.length_replicate]
  omega

theorem digits_paddedDigits (places n : ℕ) : Digits (paddedDigits places n) := by
  refine ⟨?_, fun _ => isDigit_of_mem_paddedDigits⟩
  simp [paddedDigits, Text.decimalDigits_ne_nil]

theorem ofDigitChars_paddedDigits (places n : ℕ) :
    Nat.ofDigitChars 10 (paddedDigits places n) 0 = n := by
  rw [paddedDigits, Nat.ofDigitChars_append, Nat.ofDigitChars_replicate_zero, Nat.mul_zero]
  exact Nat.ofDigitChars_ten_toDigits

/-- The digits before the point of a number with so many decimals. -/
def wholeDigits : List Char :=
  let digits := paddedDigits (decimals + 1) n
  digits.take (digits.length - decimals)

/-- The digits after the point. -/
def fractionDigits : List Char :=
  let digits := paddedDigits (decimals + 1) n
  digits.drop (digits.length - decimals)

theorem wholeDigits_append : wholeDigits decimals n ++ fractionDigits decimals n =
    paddedDigits (decimals + 1) n :=
  List.take_append_drop ..

theorem length_fractionDigits : (fractionDigits decimals n).length = decimals := by
  have hlength := length_paddedDigits (decimals + 1) n
  simp only [fractionDigits, List.length_drop]
  omega

theorem digits_wholeDigits : Digits (wholeDigits decimals n) := by
  have hlength := length_paddedDigits (decimals + 1) n
  refine ⟨fun hnil => ?_, fun c hc => isDigit_of_mem_paddedDigits (List.mem_of_mem_take hc)⟩
  have hzero := congrArg List.length hnil
  simp only [wholeDigits, List.length_take, List.length_nil] at hzero
  omega

variable {decimals n} in
theorem isDigit_of_mem_fractionDigits {c : Char} (h : c ∈ fractionDigits decimals n) :
    c.isDigit = true :=
  isDigit_of_mem_paddedDigits (List.mem_of_mem_drop h)

theorem decimalValue_digits :
    decimalValue (wholeDigits decimals n) (fractionDigits decimals n) = n / 10 ^ decimals := by
  rw [decimalValue, wholeDigits_append, ofDigitChars_paddedDigits, length_fractionDigits]

theorem eq_point_or_mem_of_mem_pointText {fraction : List Char} {c : Char}
    (h : c ∈ pointText fraction) : c = '.' ∨ c ∈ fraction := by
  cases fraction with
  | nil => cases h
  | cons d ds => exact List.mem_cons.1 h

/-- Nothing but digits and a point is printed. -/
theorem notMem_digits {c : Char} (hdigit : c.isDigit = false) (hpoint : c ≠ '.') :
    c ∉ wholeDigits decimals n ++ pointText (fractionDigits decimals n) := by
  intro h
  rcases List.mem_append.1 h with h | h
  · exact Bool.false_ne_true (hdigit.symm.trans ((digits_wholeDigits decimals n).2 c h))
  · rcases eq_point_or_mem_of_mem_pointText h with h | h
    · exact hpoint h
    · exact Bool.false_ne_true (hdigit.symm.trans (isDigit_of_mem_fractionDigits h))

theorem pointed_paddedDigits : pointed decimals (paddedDigits (decimals + 1) n) =
    wholeDigits decimals n ++ pointText (fractionDigits decimals n) := by
  unfold pointed
  split
  · next hzero =>
    have hfraction : fractionDigits decimals n = [] :=
      List.length_eq_zero_iff.1 ((length_fractionDigits decimals n).trans hzero)
    rw [← wholeDigits_append, hfraction]
    rfl
  · next hne =>
    have hfraction : fractionDigits decimals n ≠ [] := fun hnil =>
      hne ((length_fractionDigits decimals n).symm.trans (congrArg List.length hnil))
    obtain ⟨c, cs, hcons⟩ := List.exists_cons_of_ne_nil hfraction
    show wholeDigits decimals n ++ '.' :: fractionDigits decimals n = _
    rw [hcons]
    rfl

end Decimal

/-! ## Taking characters off the end -/

namespace NumberFormat

variable {c d : Char}

@[simp] theorem dropTrailing_nil (c : Char) : dropTrailing c [] = [] := rfl

theorem dropTrailing_concat_self (c : Char) (text : List Char) :
    dropTrailing c (text ++ [c]) = dropTrailing c text := by
  simp [dropTrailing]

theorem dropTrailing_concat_of_ne (h : d ≠ c) (text : List Char) :
    dropTrailing c (text ++ [d]) = text ++ [d] := by
  simp [dropTrailing, h]

theorem exists_dropTrailing (c : Char) (text : List Char) :
    ∃ n, text = dropTrailing c text ++ List.replicate n c := by
  induction text using List.reverseRecOn with
  | nil => exact ⟨0, rfl⟩
  | append_singleton text d ih =>
    by_cases h : d = c
    · obtain ⟨n, hn⟩ := ih
      refine ⟨n + 1, ?_⟩
      rw [h, dropTrailing_concat_self, List.replicate_succ', ← List.append_assoc, ← hn]
    · exact ⟨0, by rw [dropTrailing_concat_of_ne h, List.replicate_zero, List.append_nil]⟩

theorem mem_of_mem_dropTrailing {text : List Char} (h : d ∈ dropTrailing c text) : d ∈ text := by
  obtain ⟨n, hn⟩ := exists_dropTrailing c text
  rw [hn]
  exact List.mem_append_left _ h

theorem getLast?_dropTrailing (c : Char) (text : List Char) :
    (dropTrailing c text).getLast? ≠ some c := by
  induction text using List.reverseRecOn with
  | nil => exact fun h => nomatch h
  | append_singleton text d ih =>
    by_cases h : d = c
    · rwa [h, dropTrailing_concat_self]
    · rw [dropTrailing_concat_of_ne h, List.getLast?_concat]
      exact fun heq => h (Option.some.inj heq)

theorem dropTrailing_of_getLast? {text : List Char} (h : text.getLast? ≠ some c) :
    dropTrailing c text = text := by
  rcases List.eq_nil_or_concat text with rfl | ⟨text, d, rfl⟩
  · rfl
  · rw [List.concat_eq_append, List.getLast?_concat] at h
    rw [List.concat_eq_append]
    exact dropTrailing_concat_of_ne (fun heq => h (congrArg some heq)) text

/-- What is left of a text up to a character that is not dropped stays. -/
theorem dropTrailing_append_cons (h : d ≠ c) (before after : List Char) :
    dropTrailing c (before ++ d :: after) = before ++ d :: dropTrailing c after := by
  induction after using List.reverseRecOn with
  | nil => exact dropTrailing_concat_of_ne h before
  | append_singleton after e ih =>
    rw [← List.cons_append, ← List.append_assoc]
    by_cases he : e = c
    · rw [he, dropTrailing_concat_self, dropTrailing_concat_self, ih]
    · rw [dropTrailing_concat_of_ne he, dropTrailing_concat_of_ne he, List.append_assoc]
      rfl

/-- Only the digits after the point lose zeros, and the point goes if none are left. -/
theorem stripFractionZeros_pointText {whole fraction : List Char} (hwhole : '.' ∉ whole)
    (hfraction : ∀ c ∈ fraction, c.isDigit = true) :
    stripFractionZeros (whole ++ pointText fraction) =
      whole ++ pointText (dropTrailing '0' fraction) := by
  cases hcons : fraction with
  | nil =>
    have hcontains : (whole ++ pointText []).contains '.' = false := by
      simpa [pointText] using hwhole
    rw [stripFractionZeros, hcontains]
    rfl
  | cons d ds =>
    rw [← hcons]
    have hpoint : pointText fraction = '.' :: fraction := by rw [hcons]; rfl
    have hcontains : (whole ++ '.' :: fraction).contains '.' = true := by simp
    rw [hpoint, stripFractionZeros, hcontains, if_pos rfl,
      dropTrailing_append_cons (by decide) whole fraction]
    have hdigit : ∀ c ∈ dropTrailing '0' fraction, c.isDigit = true := fun c hc =>
      hfraction c (mem_of_mem_dropTrailing hc)
    generalize dropTrailing '0' fraction = left at *
    cases left with
    | nil =>
      rw [dropTrailing_concat_self]
      have hlast : whole.getLast? ≠ some '.' := fun h => hwhole (List.mem_of_getLast? h)
      rw [dropTrailing_of_getLast? hlast]
      exact (List.append_nil whole).symm
    | cons e es =>
      apply dropTrailing_of_getLast?
      intro hlast
      rw [List.getLast?_append_cons, List.getLast?_cons_cons] at hlast
      exact absurd (hdigit '.' (List.mem_of_getLast? hlast)) (by decide)

theorem markIntegral_of_mem {text : List Char} (h : c ∈ text) (hdigit : c.isDigit = false)
    (hminus : c ≠ '-') : markIntegral text = text := by
  have hall : (text.all fun c => c.isDigit || c == '-') = false := by
    refine List.all_eq_false.2 ⟨c, h, ?_⟩
    simp [hdigit, hminus]
  rw [markIntegral, hall]
  rfl

theorem markIntegral_of_digits {text : List Char}
    (h : ∀ c ∈ text, c.isDigit = true ∨ c = '-') : markIntegral text = text ++ ['.', '0'] := by
  have hall : (text.all fun c => c.isDigit || c == '-') = true := by
    simpa using h
  rw [markIntegral, hall]
  rfl

/-- A text is cut at its first `e`. -/
theorem splitExponent_append {mantissa : List Char} (h : 'e' ∉ mantissa) (exponent : ℤ) :
    splitExponent (mantissa ++ 'e' :: Text.decimalIntDigits exponent) = (mantissa, exponent) := by
  rw [splitExponent, Template.dropWhile_ne_append h, Template.takeWhile_ne_append h]
  simp

end NumberFormat

/-! ## The numeral of a finite number -/

namespace Binary64

variable (x : Binary64)

theorem signed_append (text rest : List Char) :
    x.signed (text ++ rest) = x.signed text ++ rest := by
  unfold signed
  split <;> rfl

variable {x} in
theorem mem_signed {text : List Char} {c : Char} (h : c ∈ x.signed text) : c = '-' ∨ c ∈ text := by
  unfold signed at h
  split at h
  · exact List.mem_cons.1 h
  · exact .inr h

theorem mem_signed_of_mem {text : List Char} {c : Char} (h : c ∈ text) : c ∈ x.signed text := by
  unfold signed
  split
  · exact List.mem_cons_of_mem _ h
  · exact h

theorem notMem_signed {text : List Char} {c : Char} (hminus : c ≠ '-') (h : c ∉ text) :
    c ∉ x.signed text := fun hc =>
  (mem_signed hc).elim hminus h

theorem printScientific_eq {places : ℕ} (hplaces : 0 < places) :
    x.printScientific (places - 1) =
      x.signed (Decimal.wholeDigits (places - 1) (x.significant places).digits ++
        pointText (Decimal.fractionDigits (places - 1) (x.significant places).digits)) ++
          'e' :: Text.decimalIntDigits (x.significant places).exponent := by
  rw [printScientific, Decimal.pointed_paddedDigits, Nat.sub_add_cancel hplaces, signed_append]

theorem printFixed_eq {places : ℕ} (hplaces : 0 < places) {decimals : ℕ}
    (hdecimals : (decimals : ℤ) = (places : ℤ) - 1 - (x.significant places).exponent) :
    x.printFixed decimals =
      x.signed (Decimal.wholeDigits decimals (x.significant places).digits ++
        pointText (Decimal.fractionDigits decimals (x.significant places).digits)) := by
  rw [← Decimal.pointed_paddedDigits, ← x.roundQuotient_eq_digits hplaces hdecimals]
  rfl

end Binary64

namespace NumberFormat

variable (f : NumberFormat) (x : Binary64)

/-- Whether a number with this exponent is written in scientific form. -/
def Scientific (exponent : ℤ) : Prop := exponent < f.leastInPlace ∨ (f.places : ℤ) ≤ exponent

instance (exponent : ℤ) : Decidable (f.Scientific exponent) :=
  inferInstanceAs (Decidable (_ ∨ _))

/-- The numeral of digits in scientific form. -/
def scientificNumeral (s : Significant) : DecimalNumeral where
  negative := x.negative
  whole := Decimal.wholeDigits (f.places - 1) s.digits
  fraction := dropTrailing '0' (Decimal.fractionDigits (f.places - 1) s.digits)
  exponent := some ⟨decide (s.exponent < 0), paddedDigits f.exponentPlaces s.exponent.natAbs,
    Decimal.digits_paddedDigits ..⟩
  whole_digits := Decimal.digits_wholeDigits ..
  fraction_digits _ h := Decimal.isDigit_of_mem_fractionDigits (mem_of_mem_dropTrailing h)

/-- The numeral of digits in place. An integer is shown with one decimal. -/
def positionalNumeral (s : Significant) : DecimalNumeral :=
  let decimals := ((f.places : ℤ) - 1 - s.exponent).toNat
  let fraction := dropTrailing '0' (Decimal.fractionDigits decimals s.digits)
  { negative := x.negative
    whole := Decimal.wholeDigits decimals s.digits
    fraction := if fraction = [] then ['0'] else fraction
    exponent := none
    whole_digits := Decimal.digits_wholeDigits ..
    fraction_digits := by
      intro c hc
      split at hc
      · rw [List.mem_singleton.1 hc]
        decide
      · exact Decimal.isDigit_of_mem_fractionDigits (mem_of_mem_dropTrailing hc) }

/-- The numeral of a finite number. -/
def numeral : DecimalNumeral :=
  let s := x.significant f.places
  if f.Scientific s.exponent then f.scientificNumeral x s else f.positionalNumeral x s

theorem text_eq_signed (n : DecimalNumeral) (h : n.negative = x.negative) :
    n.text = x.signed n.magnitudeText := by
  rw [DecimalNumeral.text, h, Binary64.signed]

variable {f x}

/-- The digits of a number with so many decimals, less the zeros at the end of these. -/
def strippedDigits (decimals n : ℕ) : List Char :=
  Decimal.wholeDigits decimals n ++
    pointText (dropTrailing '0' (Decimal.fractionDigits decimals n))

theorem stripFractionZeros_printed (x : Binary64) (decimals n : ℕ) :
    stripFractionZeros (x.signed (Decimal.wholeDigits decimals n ++
      pointText (Decimal.fractionDigits decimals n))) = x.signed (strippedDigits decimals n) := by
  have hpoint : '.' ∉ Decimal.wholeDigits decimals n := fun h =>
    absurd ((Decimal.digits_wholeDigits decimals n).2 '.' h) (by decide)
  rw [strippedDigits, Binary64.signed_append, Binary64.signed_append]
  exact stripFractionZeros_pointText (x.notMem_signed (by decide) hpoint)
    fun _ => Decimal.isDigit_of_mem_fractionDigits

theorem finiteText_eq (hplaces : 0 < f.places) :
    let s := x.significant f.places
    f.finiteText x =
      if f.Scientific s.exponent then
        x.signed (strippedDigits (f.places - 1) s.digits) ++ f.exponentText s.exponent
      else x.signed (strippedDigits ((f.places : ℤ) - 1 - s.exponent).toNat s.digits) := by
  intro s
  have he : 'e' ∉ x.signed (Decimal.wholeDigits (f.places - 1) s.digits ++
      pointText (Decimal.fractionDigits (f.places - 1) s.digits)) :=
    x.notMem_signed (by decide) (Decimal.notMem_digits _ _ (by decide) (by decide))
  have hscientific : (decide (s.exponent < f.leastInPlace) ||
      decide ((f.places : ℤ) ≤ s.exponent)) = true ↔ f.Scientific s.exponent := by
    simp [Scientific]
  rw [finiteText, x.printScientific_eq hplaces, splitExponent_append he]
  dsimp only
  rw [if_congr hscientific rfl rfl]
  split
  · rw [stripFractionZeros_printed]
  · next hpositional =>
    have hdecimals : ((((f.places : ℤ) - 1 - s.exponent).toNat : ℕ) : ℤ) =
        (f.places : ℤ) - 1 - s.exponent := by
      simp only [Scientific, not_or] at hpositional
      omega
    rw [x.printFixed_eq hplaces hdecimals, stripFractionZeros_printed]

theorem markIntegral_scientific (s : Significant) :
    markIntegral (x.signed (strippedDigits (f.places - 1) s.digits) ++ f.exponentText s.exponent) =
      (f.scientificNumeral x s).text := by
  have he : 'e' ∈ f.exponentText s.exponent := List.mem_cons_self
  have hexponent : f.exponentText s.exponent =
      (((f.scientificNumeral x s).exponent.map Exponent.text).getD []) := by
    simp [exponentText, scientificNumeral, Exponent.text]
  rw [markIntegral_of_mem (List.mem_append_right _ he) (by decide) (by decide), hexponent,
    text_eq_signed x (f.scientificNumeral x s) rfl, DecimalNumeral.magnitudeText,
    ← Binary64.signed_append, strippedDigits, List.append_assoc]
  rfl

theorem markIntegral_positional (s : Significant) :
    markIntegral (x.signed (strippedDigits ((f.places : ℤ) - 1 - s.exponent).toNat s.digits)) =
      (f.positionalNumeral x s).text := by
  let decimals := ((f.places : ℤ) - 1 - s.exponent).toNat
  let fraction := dropTrailing '0' (Decimal.fractionDigits decimals s.digits)
  have htext : (f.positionalNumeral x s).text = x.signed
      (Decimal.wholeDigits decimals s.digits ++
        pointText (if fraction = [] then ['0'] else fraction)) := by
    rw [text_eq_signed x (f.positionalNumeral x s) rfl, DecimalNumeral.magnitudeText]
    exact congrArg x.signed (congrArg (_ ++ ·) (List.append_nil _))
  show markIntegral (x.signed (Decimal.wholeDigits decimals s.digits ++ pointText fraction)) = _
  rw [htext]
  cases fraction with
  | nil =>
    have hdigits : ∀ c ∈ x.signed (Decimal.wholeDigits decimals s.digits),
        c.isDigit = true ∨ c = '-' := fun c hc =>
      (Binary64.mem_signed hc).symm.imp_left ((Decimal.digits_wholeDigits decimals s.digits).2 c)
    rw [if_pos rfl, pointText, List.append_nil, x.signed_append]
    exact markIntegral_of_digits hdigits
  | cons d ds =>
    have hpoint : '.' ∈ pointText (d :: ds) := List.mem_cons_self
    rw [if_neg (List.cons_ne_nil d ds)]
    exact markIntegral_of_mem (x.mem_signed_of_mem (List.mem_append_right _ hpoint)) (by decide)
      (by decide)

/-- **The text of a finite number** is that of its numeral. -/
theorem write_eq_text (hplaces : 0 < f.places) (hfinite : x.exponentField ≠ 2047) :
    f.write x = (f.numeral x).text := by
  have hnan : x.isNaN = false := by simp [Binary64.isNaN, hfinite]
  have hinfinite : x.isInfinite = false := by simp [Binary64.isInfinite, hfinite]
  have hwrite : f.write x = markIntegral (f.finiteText x) := by
    simp only [write, hnan, hinfinite, Bool.false_eq_true, if_false]
  rw [hwrite, finiteText_eq hplaces, numeral]
  by_cases h : f.Scientific (x.significant f.places).exponent
  · rw [if_pos h, if_pos h]
    exact markIntegral_scientific _
  · rw [if_neg h, if_neg h]
    exact markIntegral_positional _

/-! ## The number that the numeral denotes -/

theorem decimalValue_dropTrailing (whole fraction : List Char) :
    decimalValue whole (dropTrailing '0' fraction) = decimalValue whole fraction := by
  obtain ⟨n, hn⟩ := exists_dropTrailing '0' fraction
  conv_rhs => rw [hn]
  exact (decimalValue_append_zeros whole _ n).symm

theorem value_scientificExponent (e : ℤ) (places : ℕ) :
    Exponent.value ⟨decide (e < 0), paddedDigits places e.natAbs, Decimal.digits_paddedDigits ..⟩ =
      e := by
  simp only [Exponent.value, Decimal.ofDigitChars_paddedDigits, decide_eq_true_eq]
  split <;> omega

theorem value_scientificNumeral (hplaces : 0 < f.places) (s : Significant) :
    (f.scientificNumeral x s).value =
      (if x.negative then -1 else 1) *
        (s.digits * 10 ^ (s.exponent - ((f.places : ℤ) - 1))) := by
  have hplaces' : ((f.places - 1 : ℕ) : ℤ) = (f.places : ℤ) - 1 := by omega
  have hvalue : (f.scientificNumeral x s).value = (if x.negative then -1 else 1) *
      decimalValue (Decimal.wholeDigits (f.places - 1) s.digits)
        (dropTrailing '0' (Decimal.fractionDigits (f.places - 1) s.digits)) *
          10 ^ Exponent.value ⟨decide (s.exponent < 0),
            paddedDigits f.exponentPlaces s.exponent.natAbs, Decimal.digits_paddedDigits ..⟩ := rfl
  rw [hvalue, value_scientificExponent, decimalValue_dropTrailing, Decimal.decimalValue_digits,
    zpow_sub₀ (by norm_num), ← hplaces', zpow_natCast]
  ring

theorem value_positionalNumeral {s : Significant} (h : ¬f.Scientific s.exponent) :
    (f.positionalNumeral x s).value =
      (if x.negative then -1 else 1) *
        (s.digits * 10 ^ (s.exponent - ((f.places : ℤ) - 1))) := by
  obtain ⟨decimals, hdecimals⟩ : ∃ decimals, ((f.places : ℤ) - 1 - s.exponent).toNat = decimals :=
    ⟨_, rfl⟩
  have hexponent : s.exponent - ((f.places : ℤ) - 1) = -(decimals : ℤ) := by
    simp only [Scientific, not_or] at h
    omega
  have hfraction : decimalValue (Decimal.wholeDigits decimals s.digits)
      (f.positionalNumeral x s).fraction = s.digits / 10 ^ decimals := by
    rw [← Decimal.decimalValue_digits,
      ← decimalValue_dropTrailing _ (Decimal.fractionDigits decimals s.digits)]
    simp only [positionalNumeral, hdecimals]
    split
    · next hnil => rw [hnil, decimalValue_singleton_zero]
    · rfl
  have hvalue : (f.positionalNumeral x s).value = (if x.negative then -1 else 1) *
      decimalValue (Decimal.wholeDigits decimals s.digits) (f.positionalNumeral x s).fraction *
        10 ^ (0 : ℤ) := by
    rw [← hdecimals]
    rfl
  rw [hvalue, hfraction, hexponent, zpow_neg, zpow_natCast, zpow_zero]
  ring

/-- The digits with their exponent, and the sign of the number. -/
theorem value_numeral (hplaces : 0 < f.places) :
    let s := x.significant f.places
    (f.numeral x).value =
      (if x.negative then -1 else 1) *
        (s.digits * 10 ^ (s.exponent - ((f.places : ℤ) - 1))) := by
  intro s
  rw [numeral]
  split
  · exact value_scientificNumeral hplaces s
  · next h => exact value_positionalNumeral h

/-! ## How the numeral is written -/

theorem negative_numeral : (f.numeral x).negative = x.negative := by
  rw [numeral]
  split <;> rfl

theorem isSome_exponent_numeral :
    (f.numeral x).exponent.isSome = true ↔ f.Scientific (x.significant f.places).exponent := by
  rw [numeral]
  split
  · next h => exact iff_of_true rfl h
  · next h => exact iff_of_false Bool.false_ne_true h

theorem length_exponent_numeral {e : Exponent} (h : (f.numeral x).exponent = some e) :
    f.exponentPlaces ≤ e.digits.length := by
  rw [numeral] at h
  split at h
  · rw [← Option.some.inj h, Decimal.length_paddedDigits]
    exact Nat.le_max_left ..
  · cases h

/-- The fraction ends in zero only where one decimal was appended to an integer. -/
theorem fraction_numeral (h : (f.numeral x).fraction.getLast? = some '0') :
    (f.numeral x).fraction = ['0'] ∧ (f.numeral x).exponent = none := by
  rw [numeral] at h ⊢
  split at h
  · exact absurd h (getLast?_dropTrailing _ _)
  · next hpositional =>
    rw [if_neg hpositional]
    simp only [positionalNumeral] at h ⊢
    split at h
    · next hnil => exact ⟨if_pos hnil, trivial⟩
    · exact absurd h (getLast?_dropTrailing _ _)

theorem point_or_exponent_mem_text : '.' ∈ (f.numeral x).text ∨ 'e' ∈ (f.numeral x).text := by
  rw [text_eq_signed x _ negative_numeral, numeral]
  split
  · right
    apply x.mem_signed_of_mem
    refine List.mem_append_right _ (List.mem_append_right _ ?_)
    exact List.mem_cons_self
  · left
    apply x.mem_signed_of_mem
    refine List.mem_append_right _ (List.mem_append_left _ ?_)
    have hne (s : Significant) : (f.positionalNumeral x s).fraction ≠ [] := by
      simp only [positionalNumeral]
      split
      · exact List.cons_ne_nil _ _
      · assumption
    obtain ⟨c, cs, hcons⟩ := List.exists_cons_of_ne_nil (hne (x.significant f.places))
    rw [hcons]
    exact List.mem_cons_self

theorem magnitudeText_numeral_flipped :
    (f.numeral x.flipped).magnitudeText = (f.numeral x).magnitudeText := by
  rw [numeral, numeral, Binary64.significant_flipped]
  split <;> rfl

/-- **A flipped sign bit** shows as a minus sign, and changes nothing else. -/
theorem write_flipped (hplaces : 0 < f.places) (h : x.negative = false) :
    f.write x.flipped = '-' :: f.write x := by
  have hsigned (text : List Char) : x.flipped.signed text = '-' :: x.signed text := by
    simp [Binary64.signed, h]
  by_cases hfinite : x.exponentField = 2047
  · have hspecial : x.isNaN = true ∨ x.isInfinite = true := by
      by_cases hfraction : x.fractionField = 0 <;>
        simp [Binary64.isNaN, Binary64.isInfinite, hfinite, hfraction]
    simp only [write, Binary64.isNaN_flipped, Binary64.isInfinite_flipped, hsigned]
    rcases hspecial with hnan | hinfinite
    · simp only [hnan, if_true]
    · simp only [hinfinite, if_true]
      split <;> rfl
  · have hfinite' : x.flipped.exponentField ≠ 2047 := by rwa [Binary64.exponentField_flipped]
    rw [write_eq_text hplaces hfinite, write_eq_text hplaces hfinite',
      text_eq_signed x _ negative_numeral, text_eq_signed x.flipped _ negative_numeral, hsigned,
      magnitudeText_numeral_flipped]

end NumberFormat

namespace Value

/-- The display of an integer has neither a point nor an exponent. -/
theorem display_ne_integer {text : List Char} (h : '.' ∈ text ∨ 'e' ∈ text) (m : ℤ) :
    String.ofList text ≠ (Value.integer m).display := by
  intro heq
  have htext : text = Text.decimalIntDigits m := String.ofList_injective heq
  have hnot {c : Char} (hdigit : c.isDigit = false) (hminus : c ≠ '-') : c ∉ text := by
    rw [htext]
    intro hc
    cases m with
    | ofNat m => exact Bool.false_ne_true (hdigit.symm.trans (Text.isDigit_of_mem_decimalDigits hc))
    | negSucc m =>
      rcases List.mem_cons.1 hc with hc | hc
      · exact hminus hc
      · exact Bool.false_ne_true (hdigit.symm.trans (Text.isDigit_of_mem_decimalDigits hc))
  rcases h with h | h
  · exact hnot (by decide) (by decide) h
  · exact hnot (by decide) (by decide) h

/-- **What a displayed number denotes.** The text of a finite number is a decimal numeral that
denotes its value, rounded to 14 significant digits, halves to even, with the sign of the
number, also of zero. It has an exponent, with a sign and two digits or more, exactly if the
rounded number's is less than -4 or at least 14. Its fraction does not end in a zero unless it
is the one zero that makes an integer look different from the display of one. Flipping the sign
bit of any number that has it clear puts a minus sign before its text. -/
theorem display_number :
    (∀ x : Binary64, x.exponentField ≠ 2047 → ∃ (s : Significant) (n : DecimalNumeral),
      RoundsTo 14 |x.value| s ∧ (Value.number x).display = String.ofList n.text ∧
        n.value = (if x.negative then -1 else 1) * (s.digits * 10 ^ (s.exponent - 13)) ∧
        n.negative = x.negative ∧
        (n.exponent.isSome = true ↔ s.exponent < -4 ∨ 14 ≤ s.exponent) ∧
        (∀ e, n.exponent = some e → 2 ≤ e.digits.length) ∧
        (n.fraction.getLast? = some '0' → n.fraction = ['0'] ∧ n.exponent = none) ∧
        ('.' ∈ n.text ∨ 'e' ∈ n.text) ∧
        ∀ m, (Value.number x).display ≠ (Value.integer m).display) ∧
    ∀ x : Binary64, x.negative = false →
      (Value.number x.flipped).display = "-" ++ (Value.number x).display := by
  have hplaces : 0 < numberFormat.places := by decide
  constructor
  · intro x hfinite
    have htext : (Value.number x).display = String.ofList (numberFormat.numeral x).text :=
      congrArg String.ofList (NumberFormat.write_eq_text hplaces hfinite)
    have hmem : '.' ∈ (numberFormat.numeral x).text ∨ 'e' ∈ (numberFormat.numeral x).text :=
      NumberFormat.point_or_exponent_mem_text
    refine ⟨x.significant 14, numberFormat.numeral x, x.significant_roundsTo hplaces, htext,
      NumberFormat.value_numeral hplaces, NumberFormat.negative_numeral,
      NumberFormat.isSome_exponent_numeral, fun _ => NumberFormat.length_exponent_numeral,
      NumberFormat.fraction_numeral, hmem, fun m => ?_⟩
    rw [htext]
    exact display_ne_integer hmem m
  · intro x hx
    show String.ofList (numberFormat.write x.flipped) = "-" ++ String.ofList (numberFormat.write x)
    rw [NumberFormat.write_flipped hplaces hx, ← List.singleton_append, String.ofList_append]

/-- The number one half below 10 ^ 14 and the greatest below 10 ^ -4. Both are rounded up to the
power of ten, where the first one gets an exponent and the other loses its. -/
theorem display_number_next_power :
    let x : Binary64 := ⟨0x42d6bcc41e8fffe0⟩
    let y : Binary64 := ⟨0x3f1a36e2eb1c432c⟩
    (Value.number x).display = "1e+14" ∧
      (∀ m, (Value.number x).display ≠ (Value.integer m).display) ∧
      (Value.number y).display = "0.0001" ∧ (Value.number y.flipped).display = "-0.0001" := by
  intro x y
  have hx : (Value.number x).display = "1e+14" := by decide +kernel
  have hy : (Value.number y).display = "0.0001" := by decide +kernel
  obtain ⟨_, _, -, -, -, -, -, -, -, -, hinteger⟩ := display_number.1 x (by decide)
  have hflipped := display_number.2 y (by decide)
  rw [hy] at hflipped
  exact ⟨hx, hinteger, hy, hflipped⟩

end Value

end Breakpoints

import Breakpoints.Text.Alphanumeric
import Breakpoints.Text.Blank
import Breakpoints.Text.Numeral

/-!
# Words, numerals and the blanks around them

`readInt` reads the texts that `Numeral` describes, and no others
(`readInt_eq_some_iff`). Trimming takes away blanks at both ends and nothing else
(`exists_trim`), and all of them (`trim_append`). A word character is never a blank, so
the blanks around a word or a numeral never belong to it.
-/

namespace Breakpoints.Text

/-! ## Numerals -/

/-- A nonempty run of ASCII digits. -/
def Digits (cs : List Char) : Prop := cs ≠ [] ∧ ∀ c ∈ cs, c.isDigit = true

/-- A text is a decimal numeral of an integer: digits, with or without a sign. -/
inductive Numeral : List Char → Int → Prop
  | unsigned {ds : List Char} (h : Digits ds) : Numeral ds (Nat.ofDigitChars 10 ds 0)
  | positive {ds : List Char} (h : Digits ds) : Numeral ('+' :: ds) (Nat.ofDigitChars 10 ds 0)
  | negative {ds : List Char} (h : Digits ds) : Numeral ('-' :: ds) (-(Nat.ofDigitChars 10 ds 0))

theorem readNat_eq_some_iff {cs : List Char} {n : Nat} :
    readNat cs = some n ↔ Digits cs ∧ Nat.ofDigitChars 10 cs 0 = n := by
  simp [readNat, Digits]

/-- Digits bear no sign of their own. -/
theorem readInt_of_digits {ds : List Char} (h : Digits ds) :
    readInt ds = some (Nat.ofDigitChars 10 ds 0) := by
  obtain ⟨c, cs, rfl⟩ := List.exists_cons_of_ne_nil h.1
  rw [readInt_of_isDigit (h.2 c List.mem_cons_self), readNat_eq_some_iff.2 ⟨h, rfl⟩]
  rfl

theorem readInt_minus (cs : List Char) :
    readInt ('-' :: cs) = (readNat cs).map fun n : Nat => -(n : Int) := by
  cases h : readNat cs <;> simp [readInt, h]

theorem readInt_eq_some_iff {cs : List Char} {n : Int} : readInt cs = some n ↔ Numeral cs n := by
  constructor
  · intro h
    by_cases hminus : ∃ ds, cs = '-' :: ds
    · obtain ⟨ds, rfl⟩ := hminus
      rw [readInt_minus] at h
      obtain ⟨m, hm, rfl⟩ := Option.map_eq_some_iff.1 h
      obtain ⟨hdigits, rfl⟩ := readNat_eq_some_iff.1 hm
      exact .negative hdigits
    · unfold readInt at h
      split at h
      · exact absurd ⟨_, rfl⟩ hminus
      all_goals
        obtain ⟨m, hm, rfl⟩ := Option.map_eq_some_iff.1 h
        obtain ⟨hdigits, rfl⟩ := readNat_eq_some_iff.1 hm
      · exact .positive hdigits
      · exact .unsigned hdigits
  · rintro (hdigits | hdigits | hdigits)
    · exact readInt_of_digits hdigits
    · simp [readInt, readNat_eq_some_iff.2 ⟨hdigits, rfl⟩]
    · simp [readInt_minus, readNat_eq_some_iff.2 ⟨hdigits, rfl⟩]

theorem numeral_decimalIntDigits (n : Int) : Numeral (decimalIntDigits n) n :=
  readInt_eq_some_iff.1 (readInt_decimalIntDigits n)

/-! ## The characters of words -/

theorem isWordChar_of_isDigit {c : Char} (h : c.isDigit = true) : isWordChar c = true := by
  have hlt : c.toNat < 0x80 := by
    simp only [Char.isDigit, Bool.and_eq_true, decide_eq_true_eq, UInt32.le_iff_toNat_le] at h
    have hle : c.toNat ≤ 57 := h.2
    omega
  simp [isWordChar, isAlphanumeric_ascii hlt, Char.isAlphanum, h]

theorem isWord_iff {cs : List Char} :
    isWord cs = true ↔ cs ≠ [] ∧ ∀ c ∈ cs, isWordChar c = true := by
  simp [isWord]

/-- The intervals of blanks meet none of alphanumeric characters. -/
theorem blankRanges_disjoint :
    ∀ r ∈ blankRanges, ∀ s ∈ alphanumericRanges, r.2 < s.1 ∨ s.2 < r.1 := by
  decide +kernel

theorem isBlank_of_isWordChar {c : Char} (h : isWordChar c = true) : isBlank c = false := by
  refine Bool.eq_false_iff.2 fun hblank => ?_
  obtain ⟨r, hr, hrc⟩ := Ranges.mem_iff.1 hblank
  have hunderscore : c ≠ '_' := by
    rintro rfl
    exact absurd hblank (by decide)
  have halpha : isAlphanumeric c = true := by simpa [isWordChar, hunderscore] using h
  by_cases hascii : c.toNat < 0x80
  · -- Among the ASCII characters only 9 to 13 and the space are blank.
    have hcontrol : c.toNat ∈ [9, 10, 11, 12, 13, 32] := by
      simp only [blankRanges, List.mem_cons, List.not_mem_nil, or_false] at hr ⊢
      rcases hr with rfl | rfl | rfl | rfl | rfl | rfl | rfl | rfl | rfl | rfl <;>
        simp only at hrc <;> omega
    have hnone : ∀ n ∈ [9, 10, 11, 12, 13, 32], (Char.ofNat n).isAlphanum = false := by decide
    have hno := hnone c.toNat hcontrol
    rw [Char.ofNat_toNat, ← isAlphanumeric_ascii hascii, halpha] at hno
    cases hno
  · rw [isAlphanumeric, if_neg hascii] at halpha
    obtain ⟨s, hs, hsc⟩ := Ranges.mem_iff.1 halpha
    have hapart := blankRanges_disjoint r hr s hs
    omega

/-! ## Trimming -/

theorem allBlank_iff {cs : List Char} : allBlank cs = true ↔ ∀ c ∈ cs, isBlank c = true :=
  List.all_eq_true

theorem trimStart_append {before : List Char} (h : allBlank before = true) (cs : List Char) :
    trimStart (before ++ cs) = trimStart cs :=
  List.dropWhile_append_of_pos (allBlank_iff.1 h)

theorem trimEnd_append {after : List Char} (h : allBlank after = true) (cs : List Char) :
    trimEnd (cs ++ after) = trimEnd cs := by
  have hall : ∀ c ∈ after.reverse, isBlank c = true := fun c hc =>
    allBlank_iff.1 h c (List.mem_reverse.1 hc)
  rw [trimEnd, List.reverse_append, List.dropWhile_append_of_pos hall, trimEnd]

/-- Neither end of the text is a blank. -/
structure Trimmed (cs : List Char) : Prop where
  head : ∀ c ∈ cs.head?, isBlank c = false
  last : ∀ c ∈ cs.getLast?, isBlank c = false

theorem trimStart_of_head {cs : List Char} (h : ∀ c ∈ cs.head?, isBlank c = false) :
    trimStart cs = cs := by
  cases cs with
  | nil => rfl
  | cons c cs => simp [trimStart, h c rfl]

theorem trimEnd_of_last {cs : List Char} (h : ∀ c ∈ cs.getLast?, isBlank c = false) :
    trimEnd cs = cs := by
  have hlast : trimStart cs.reverse = cs.reverse :=
    trimStart_of_head fun c hc => h c (by simpa using hc)
  exact (congrArg List.reverse hlast).trans (List.reverse_reverse cs)

/-- Blanks around a text that has none at its ends are all that trimming takes away. -/
theorem trim_append {before cs after : List Char} (hbefore : allBlank before = true)
    (hafter : allBlank after = true) (h : Trimmed cs) : trim (before ++ (cs ++ after)) = cs := by
  rw [trim, trimStart_append hbefore]
  cases cs with
  | nil =>
    rw [List.nil_append, trimStart_eq_nil_iff.2 hafter]
    rfl
  | cons c cs =>
    have hstart : trimStart (c :: cs ++ after) = c :: cs ++ after :=
      trimStart_of_head fun d hd => h.head d (by simpa using hd)
    rw [hstart, trimEnd_append hafter, trimEnd_of_last h.last]

/-- A text is its trimmed form between blanks. -/
theorem exists_trim (cs : List Char) : ∃ before after, allBlank before = true ∧
    allBlank after = true ∧ cs = before ++ (trim cs ++ after) := by
  refine ⟨cs.takeWhile isBlank, ((trimStart cs).reverse.takeWhile isBlank).reverse,
    List.all_takeWhile, by simp [allBlank, List.all_takeWhile], ?_⟩
  rw [trim, trimEnd, ← List.reverse_append, List.takeWhile_append_dropWhile, List.reverse_reverse,
    trimStart, List.takeWhile_append_dropWhile]

/-- A text without blanks is trimmed. -/
theorem trimmed_of_forall {cs : List Char} (h : ∀ c ∈ cs, isBlank c = false) : Trimmed cs :=
  ⟨fun c hc => h c (List.mem_of_mem_head? hc), fun c hc => h c (List.mem_of_getLast? hc)⟩

end Breakpoints.Text

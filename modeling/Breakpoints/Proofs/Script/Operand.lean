import Breakpoints.Proofs.Text.Word
import Breakpoints.Script.Operand

/-!
# What operands denote

`Denotes` lists the forms of an operand with their values; an operand is one of these
forms between blanks (`IsOperand`). Evaluation gives a value to operands only, and theirs
(`operand_eq_ok_iff`); at any other text it raises an error that names the text
(`operand_of_not_isOperand`). The forms other than texts in quotes are made of `Plain`
characters, and none of those occurs in a comparison operator.
-/

namespace Breakpoints.Script

open Text (Numeral isWord isWordChar isBlank allBlank trim)

/-- A word that is a value of its own. -/
inductive Keyword : List Char → Value → Prop
  | nil : Keyword ['n', 'i', 'l'] .nil
  | true : Keyword ['t', 'r', 'u', 'e'] (.boolean true)
  | false : Keyword ['f', 'a', 'l', 's', 'e'] (.boolean false)

/-- The form of an operand, and its value. A word that is a numeral of 64 bits or a keyword
is not a name. -/
inductive Denotes (locals : Locals) : List Char → Value → Prop
  | integer {cs : List Char} {n : Int} (h : Numeral cs n) (hrange : isInt64 n = true) :
    Denotes locals cs (.integer n)
  | keyword {cs : List Char} {value : Value} (h : Keyword cs value) : Denotes locals cs value
  | text (inside : List Char) :
    Denotes locals ('"' :: (inside ++ ['"'])) (.text (String.ofList inside))
  | name {cs : List Char} (h : isWord cs = true)
    (hinteger : ∀ n, Numeral cs n → isInt64 n = false) (hkeyword : ∀ value, ¬Keyword cs value) :
    Denotes locals cs (localValue locals (String.ofList cs))

/-- A form of an operand between blanks. -/
def IsOperand (locals : Locals) (cs : List Char) (value : Value) : Prop :=
  ∃ before form after, allBlank before = true ∧ allBlank after = true ∧
    cs = before ++ (form ++ after) ∧ Denotes locals form value

/-! ## The parts of an operand's reading -/

section Readings

variable {cs : List Char}

theorem integer?_eq_some_iff {n : Int} :
    integer? cs = some n ↔ Numeral cs n ∧ isInt64 n = true := by
  rw [integer?, Option.filter_eq_some_iff, Text.readInt_eq_some_iff]

theorem integer?_eq_none_iff : integer? cs = none ↔ ∀ n, Numeral cs n → isInt64 n = false := by
  simp only [integer?, Option.filter_eq_none_iff, Text.readInt_eq_some_iff,
    Bool.not_eq_true]

theorem keyword?_eq_some_iff {value : Value} : keyword? cs = some value ↔ Keyword cs value := by
  constructor
  · intro h
    unfold keyword? at h
    split at h
    · next hcs => cases h; exact hcs ▸ .nil
    split at h
    · next hcs => cases h; exact hcs ▸ .true
    split at h
    · next hcs => cases h; exact hcs ▸ .false
    · cases h
  · rintro (_ | _ | _) <;> rfl

theorem keyword?_eq_none_iff : keyword? cs = none ↔ ∀ value, ¬Keyword cs value := by
  simp only [Option.eq_none_iff_forall_ne_some, ne_eq, keyword?_eq_some_iff]

theorem quoted?_eq_some_iff {inside : List Char} :
    quoted? cs = some inside ↔ cs = '"' :: (inside ++ ['"']) := by
  constructor
  · intro h
    unfold quoted? at h
    split at h
    · next rest =>
      split at h
      · next hlast =>
        obtain ⟨init, rfl⟩ := List.getLast?_eq_some_iff.1 hlast
        rw [List.dropLast_concat, Option.some_inj] at h
        rw [h]
      · cases h
    · cases h
  · rintro rfl
    exact quoted?_quote inside

end Readings

/-! ## Plain characters -/

/-- The characters of numerals, keywords and names. -/
def Plain (c : Char) : Prop := isWordChar c = true ∨ c = '+' ∨ c = '-'

theorem Plain.isBlank {c : Char} (h : Plain c) : isBlank c = false := by
  rcases h with h | rfl | rfl
  · exact Text.isBlank_of_isWordChar h
  · decide
  · decide

theorem plain_of_numeral {cs : List Char} {n : Int} (h : Numeral cs n) : ∀ c ∈ cs, Plain c := by
  have hdigits {ds : List Char} (hds : Text.Digits ds) : ∀ c ∈ ds, Plain c := fun c hc =>
    .inl (Text.isWordChar_of_isDigit (hds.2 c hc))
  rcases h with hds | hds | hds
  · exact hdigits hds
  · exact List.forall_mem_cons.2 ⟨.inr (.inl rfl), hdigits hds⟩
  · exact List.forall_mem_cons.2 ⟨.inr (.inr rfl), hdigits hds⟩

theorem plain_of_keyword {cs : List Char} {value : Value} (h : Keyword cs value) :
    ∀ c ∈ cs, Plain c := by
  have hword : cs.all isWordChar = true := by cases h <;> rfl
  exact fun c hc => .inl (List.all_eq_true.1 hword c hc)

namespace Denotes

variable {locals : Locals} {cs : List Char} {value : Value}

theorem ne_nil (h : Denotes locals cs value) : cs ≠ [] := by
  rcases h with ⟨h, -⟩ | h | _ | ⟨h, -, -⟩
  · rcases h with h | h | h
    · exact h.1
    · exact List.cons_ne_nil _ _
    · exact List.cons_ne_nil _ _
  · cases h <;> exact List.cons_ne_nil _ _
  · exact List.cons_ne_nil _ _
  · exact (Text.isWord_iff.1 h).1

/-- An operand is a text in quotes, or all its characters are plain. -/
theorem quoted_or_plain (h : Denotes locals cs value) :
    (∃ inside, cs = '"' :: (inside ++ ['"'])) ∨ ∀ c ∈ cs, Plain c := by
  rcases h with ⟨h, -⟩ | h | inside | ⟨h, -, -⟩
  · exact .inr (plain_of_numeral h)
  · exact .inr (plain_of_keyword h)
  · exact .inl ⟨inside, rfl⟩
  · exact .inr fun c hc => .inl ((Text.isWord_iff.1 h).2 c hc)

theorem trimmed (h : Denotes locals cs value) : Text.Trimmed cs := by
  rcases h.quoted_or_plain with ⟨inside, rfl⟩ | hplain
  · have hlast : ('"' :: (inside ++ ['"'])).getLast? = some '"' := by
      rw [← List.cons_append, List.getLast?_concat]
    refine ⟨fun c hc => ?_, fun c hc => ?_⟩
    · obtain rfl : '"' = c := by simpa using hc
      decide
    · obtain rfl : '"' = c := Option.some.inj (hlast.symm.trans hc)
      decide
  · exact Text.trimmed_of_forall fun c hc => (hplain c hc).isBlank

/-- An operand that does not start with a quote is not a text in quotes. -/
theorem plain (h : Denotes locals cs value) (hquote : cs.head? ≠ some '"') :
    ∀ c ∈ cs, Plain c := by
  rcases h.quoted_or_plain with ⟨inside, rfl⟩ | hplain
  · exact absurd rfl hquote
  · exact hplain

end Denotes

/-! ## Evaluation -/

variable {locals : Locals} {cs : List Char} {value : Value}

theorem trimmedOperand_eq_ok_iff :
    trimmedOperand locals cs = .ok value ↔ Denotes locals cs value := by
  constructor
  · intro h
    unfold trimmedOperand at h
    split at h
    · next hinteger =>
      cases h
      obtain ⟨hnumeral, hrange⟩ := integer?_eq_some_iff.1 hinteger
      exact .integer hnumeral hrange
    · next hinteger =>
      split at h
      · next hkeyword =>
        cases h
        exact .keyword (keyword?_eq_some_iff.1 hkeyword)
      · next hkeyword =>
        split at h
        · next hquoted =>
          cases h
          rw [quoted?_eq_some_iff.1 hquoted]
          exact .text _
        · split at h
          · next hword =>
            cases h
            exact .name hword (integer?_eq_none_iff.1 hinteger) (keyword?_eq_none_iff.1 hkeyword)
          · cases h
  · rintro (⟨hnumeral, hrange⟩ | hkeyword | inside | ⟨hword, hinteger, hkeyword⟩)
    · rw [trimmedOperand, integer?_eq_some_iff.2 ⟨hnumeral, hrange⟩]
    · have hinteger : integer? cs = none := by cases hkeyword <;> decide
      rw [trimmedOperand, hinteger, keyword?_eq_some_iff.2 hkeyword]
    · have hinteger : integer? ('"' :: (inside ++ ['"'])) = none := rfl
      have hkeyword : keyword? ('"' :: (inside ++ ['"'])) = none := by simp [keyword?]
      rw [trimmedOperand, hinteger, hkeyword, quoted?_quote]
    · have hquoted : quoted? cs = none := by
        refine Option.eq_none_iff_forall_ne_some.2 fun inside hinside => ?_
        rw [quoted?_eq_some_iff.1 hinside] at hword
        exact absurd ((Text.isWord_iff.1 hword).2 '"' List.mem_cons_self) (by decide)
      rw [trimmedOperand, integer?_eq_none_iff.2 hinteger, keyword?_eq_none_iff.2 hkeyword,
        hquoted]
      exact if_pos hword

/-- What evaluation raises at a text that is no operand. -/
def unexpected (cs : List Char) : Fault :=
  .raised ("unexpected symbol near '" ++ String.ofList (trim cs) ++ "'")

theorem operand_eq_ok_or_unexpected (locals : Locals) (cs : List Char) :
    (∃ value, operand locals cs = .ok value) ∨ operand locals cs = .error (unexpected cs) := by
  unfold operand trimmedOperand
  repeat' split
  all_goals first | exact .inl ⟨_, rfl⟩ | exact .inr rfl

theorem operand_append {before after : List Char} (hbefore : allBlank before = true)
    (hafter : allBlank after = true) (h : Denotes locals cs value) :
    operand locals (before ++ (cs ++ after)) = .ok value := by
  rw [operand, Text.trim_append hbefore hafter h.trimmed]
  exact trimmedOperand_eq_ok_iff.2 h

/-- **Evaluation gives a value to operands only**, and the value that they denote. -/
theorem operand_eq_ok_iff : operand locals cs = .ok value ↔ IsOperand locals cs value := by
  constructor
  · intro h
    obtain ⟨before, after, hbefore, hafter, hcs⟩ := Text.exists_trim cs
    exact ⟨before, trim cs, after, hbefore, hafter, hcs, trimmedOperand_eq_ok_iff.1 h⟩
  · rintro ⟨before, form, after, hbefore, hafter, rfl, hform⟩
    exact operand_append hbefore hafter hform

theorem operand_of_not_isOperand (h : ∀ value, ¬IsOperand locals cs value) :
    operand locals cs = .error (unexpected cs) :=
  (operand_eq_ok_or_unexpected locals cs).resolve_left fun ⟨value, hvalue⟩ =>
    h value (operand_eq_ok_iff.1 hvalue)

/-- After its blanks the text starts with a quote. -/
def Quoted (cs : List Char) : Prop := (Text.trimStart cs).head? = some '"'

instance (cs : List Char) : Decidable (Quoted cs) :=
  inferInstanceAs (Decidable ((Text.trimStart cs).head? = some '"'))

theorem quoted_append_iff {before form : List Char} (hbefore : allBlank before = true)
    (hform : Denotes locals form value) (rest : List Char) :
    Quoted (before ++ (form ++ rest)) ↔ form.head? = some '"' := by
  obtain ⟨c, cs, rfl⟩ := List.exists_cons_of_ne_nil hform.ne_nil
  have hstart : Text.trimStart (c :: cs ++ rest) = c :: cs ++ rest :=
    Text.trimStart_of_head fun d hd => hform.trimmed.head d (by simpa using hd)
  rw [Quoted, Text.trimStart_append hbefore, hstart]
  rfl

namespace IsOperand

/-- What follows an operand does not matter for whether it starts with a quote. -/
theorem quoted_append (h : IsOperand locals cs value) (rest : List Char) :
    Quoted (cs ++ rest) ↔ Quoted cs := by
  obtain ⟨before, form, after, hbefore, -, rfl, hform⟩ := h
  rw [List.append_assoc, List.append_assoc, quoted_append_iff hbefore hform,
    quoted_append_iff hbefore hform]

/-- An operand that does not start with a quote consists of blanks and plain characters. -/
theorem plain (h : IsOperand locals cs value) (hquote : ¬Quoted cs) :
    ∀ c ∈ cs, isBlank c = true ∨ Plain c := by
  obtain ⟨before, form, after, hbefore, hafter, rfl, hform⟩ := h
  rw [quoted_append_iff hbefore hform] at hquote
  intro c hc
  rcases List.mem_append.1 hc with hc | hc
  · exact .inl (Text.allBlank_iff.1 hbefore c hc)
  rcases List.mem_append.1 hc with hc | hc
  · exact .inr (hform.plain hquote c hc)
  · exact .inl (Text.allBlank_iff.1 hafter c hc)

end IsOperand

end Breakpoints.Script

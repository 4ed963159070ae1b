import Breakpoints.Proofs.Script.Comparison

/-!
# What texts in quotes mean

The scan for the leftmost operator does not know of quotes. A text in quotes that holds no
operator means its contents, alone and in a comparison with another one
(`evaluate_literal`, `evaluate_literals`), whatever the other one holds. A text in quotes that
does hold an operator is cut there. What stands left of the cut is a quote that is never
closed, so the script that starts with it fails, however it goes on
(`evaluate_literal_append`).
-/

namespace Breakpoints.Script

open Text (utf8)

/-! ## Operators in a longer text -/

section Longer

variable {cs rest left right : List Char} {op : Operator}

/-- An operator that starts in a text ends in it, unless it could go on in what follows. -/
theorem length_le_or_symbol_within (hrest : ∀ c ∈ rest.head?, c ∉ operatorChars)
    (h : cs ++ rest = left ++ (op.symbol ++ right)) :
    cs.length ≤ left.length ∨ ∃ after, cs = left ++ (op.symbol ++ after) := by
  rcases List.append_eq_append_iff.1 h with ⟨w, rfl, -⟩ | ⟨w, rfl, hw⟩
  · exact .inl (by simp)
  rcases List.append_eq_append_iff.1 hw with ⟨after, rfl, -⟩ | ⟨v, hsymbol, rfl⟩
  · exact .inr ⟨after, rfl⟩
  cases v with
  | nil => exact .inr ⟨[], by rw [hsymbol, List.append_nil, List.append_nil]⟩
  | cons c v =>
    -- The operator would go on with the first character of `rest`.
    have hc : c ∈ op.symbol := by simp [hsymbol]
    exact absurd (Operator.mem_operatorChars hc) (hrest c rfl)

theorem Clear.append (hcs : Clear cs) (hclear : Clear rest)
    (hrest : ∀ c ∈ rest.head?, c ∉ operatorChars) : Clear (cs ++ rest) := by
  rintro op ⟨left, right, h⟩
  rw [List.append_assoc] at h
  rcases length_le_or_symbol_within hrest h.symm with hle | ⟨after, hafter⟩
  · obtain ⟨w, rfl⟩ : cs <+: left := List.prefix_of_prefix_length_le
      (h ▸ List.prefix_append cs rest) (List.prefix_append left _) hle
    rw [List.append_assoc] at h
    exact hclear op ⟨w, right, by rw [List.append_assoc, List.append_cancel_left h]⟩
  · exact hcs op ⟨left, after, by rw [hafter, List.append_assoc]⟩

/-- What follows a text does not move its leftmost operator. -/
theorem Leftmost.append (h : Leftmost cs left op right)
    (hrest : ∀ c ∈ rest.head?, c ∉ operatorChars) :
    Leftmost (cs ++ rest) left op (right ++ rest) where
  cut := by rw [h.cut, List.append_assoc, List.append_assoc]
  first left' op' right' h' := by
    rcases length_le_or_symbol_within hrest h' with hle | ⟨after, hafter⟩
    · have hlength : left.length ≤ cs.length := by simp [h.cut]
      exact Nat.le_trans hlength hle
    · exact h.first left' op' after hafter
  longest op' right' h' := by
    rcases length_le_or_symbol_within hrest h' with hle | ⟨after, hafter⟩
    · -- There is no room for `op` between `left` and the end of the text.
      have hpos : 0 < op.symbol.length := List.length_pos_iff.2 op.symbol_ne_nil
      simp only [h.cut, List.length_append] at hle
      omega
    · exact h.longest op' after hafter

end Longer

/-! ## Texts in quotes -/

/-- A text between double quotes. -/
def literal (s : String) : String := "\"" ++ s ++ "\""

theorem toList_literal (s : String) : (literal s).toList = '"' :: (s.toList ++ ['"']) := by
  rw [literal, String.toList_append, String.toList_append]
  rfl

theorem denotes_literal (locals : Locals) (s : String) :
    Denotes locals (literal s).toList (.text s) := by
  have h : Denotes locals ('"' :: (s.toList ++ ['"'])) _ := .text s.toList
  rwa [String.ofList_toList, ← toList_literal] at h

theorem not_plain_quote : ¬Plain '"' := by
  unfold Plain
  decide

section Literals

variable {locals : Locals} {cs left right : List Char} {op : Operator} {s t : String}

theorem Clear.literal (h : Clear s.toList) : Clear (literal s).toList := by
  rw [toList_literal]
  have hquote : Clear ['"'] := clear_of_forall (by simp [operatorChars])
  exact (h.append hquote (by simp [operatorChars])).cons (Operator.append_ne_of_strip?_eq_none rfl)

/-- The leftmost operator of a text is that of every script that starts with the text in
quotes. -/
theorem Leftmost.literal_append (h : Leftmost s.toList left op right) (rest : List Char) :
    Leftmost ((literal s).toList ++ rest) ('"' :: left) op (right ++ '"' :: rest) := by
  have happend : (literal s).toList ++ rest = '"' :: (s.toList ++ '"' :: rest) := by
    rw [toList_literal, List.cons_append, List.append_assoc]
    rfl
  rw [happend]
  have hquote : ∀ c ∈ ('"' :: rest).head?, c ∉ operatorChars := by simp [operatorChars]
  exact (h.append hquote).cons (Operator.append_ne_of_strip?_eq_none rfl)

/-- A quote that is never closed starts no operand. -/
theorem not_isOperand_of_unclosed (h : '"' ∉ cs) (value : Value) :
    ¬IsOperand locals ('"' :: cs) value := by
  rintro ⟨before, form, after, hbefore, -, hcs, hform⟩
  cases before with
  | cons c before =>
    obtain rfl : '"' = c := (List.cons.inj hcs).1
    exact absurd (Text.allBlank_iff.1 hbefore '"' List.mem_cons_self) (by decide)
  | nil =>
    rcases hform.quoted_or_plain with ⟨inside, rfl⟩ | hplain
    · -- The closing quote would be one of `cs`.
      have hinside : cs = inside ++ ['"'] ++ after := (List.cons.inj hcs).2
      exact h (by simp [hinside])
    · obtain ⟨c, form, rfl⟩ := List.exists_cons_of_ne_nil hform.ne_nil
      obtain rfl : '"' = c := (List.cons.inj hcs).1
      exact not_plain_quote (hplain '"' List.mem_cons_self)

/-! ## Evaluation -/

theorem expression_of_clear {value : Value} (hclear : Clear cs) (h : IsOperand locals cs value) :
    expression locals cs = .ok value := by
  rw [expression, cut?_eq_none_iff.2 hclear]
  exact operand_eq_ok_iff.2 h

theorem evaluate_literal (locals : Locals) (hclear : Clear t.toList) :
    evaluate locals ("return " ++ literal t) = .ok [.text t] := by
  have hscript : "return " ++ literal t = "return " ++ String.ofList (literal t).toList := by
    rw [String.ofList_toList]
  have hoperand : IsOperand locals (literal t).toList (.text t) :=
    ⟨[], (literal t).toList, [], rfl, rfl, by simp, denotes_literal locals t⟩
  rw [hscript, evaluate_return, expression_of_clear hclear.literal hoperand]
  rfl

/-- Texts in quotes are compared by their contents, if the left one holds no operator. -/
theorem evaluate_literals (locals : Locals) (op : Operator) (hclear : Clear t.toList)
    (u : String) :
    evaluate locals ("return " ++ literal t ++ String.ofList (' ' :: (op.symbol ++ [' '])) ++
      literal u) = .ok [.boolean (decide (op.Holds (utf8 t) (utf8 u)))] := by
  have hscript : "return " ++ literal t ++ String.ofList (' ' :: (op.symbol ++ [' '])) ++
      literal u = "return " ++ String.ofList
        ((literal t).toList ++ [' '] ++ (op.symbol ++ (' ' :: (literal u).toList))) := by
    rw [← String.toList_inj]
    simp
  have hleft : IsOperand locals ((literal t).toList ++ [' ']) (.text t) :=
    ⟨[], (literal t).toList, [' '], rfl, rfl, rfl, denotes_literal locals t⟩
  have hright : IsOperand locals (' ' :: (literal u).toList) (.text u) :=
    ⟨[' '], (literal u).toList, [], rfl, rfl, by simp, denotes_literal locals u⟩
  have hblank : Clear ((literal t).toList ++ [' ']) :=
    hclear.literal.append (clear_of_forall (by simp [operatorChars])) (by simp [operatorChars])
  rw [hscript, evaluate_of_operands op hleft hright fun _ => hblank, compareValues_text]
  rfl

/-- A script that starts with a text in quotes ends at the first operator in the text. -/
theorem evaluate_literal_append (locals : Locals) (ht : '"' ∉ t.toList)
    (h : Leftmost t.toList left op right) (rest : String) :
    evaluate locals ("return " ++ literal t ++ rest) = .error (unexpected ('"' :: left)) := by
  have hleft : '"' ∉ left := fun hquote => ht (by rw [h.cut]; exact List.mem_append_left _ hquote)
  have hscript : "return " ++ literal t ++ rest =
      "return " ++ String.ofList ((literal t).toList ++ rest.toList) := by
    rw [← String.toList_append, String.ofList_toList, String.append_assoc]
  rw [hscript, evaluate_return,
    expression_of_not_isOperand_left (h.literal_append _) (not_isOperand_of_unclosed hleft)]
  rfl

/-- **A text in quotes means its contents unless it holds an operator.** Take a text without
quotes in it. If no operator occurs in it, the text in quotes gives the text itself, and
`==` and `<` compare it with whatever the quotes on their right enclose, `<` by the order of
bytes. If an operator occurs in it, every script that starts with the text in quotes fails at
the quote and what stands before the leftmost one. -/
theorem literal_contents (locals : Locals) {t : String} (ht : '"' ∉ t.toList) :
    (Clear t.toList →
      evaluate locals ("return " ++ literal t) = .ok [.text t] ∧
      ∀ u : String,
        evaluate locals ("return " ++ literal t ++ " == " ++ literal u) =
          .ok [.boolean (decide (t = u))] ∧
        evaluate locals ("return " ++ literal t ++ " < " ++ literal u) =
          .ok [.boolean (decide (utf8 t < utf8 u))]) ∧
    (¬Clear t.toList → ∃ left op right, Leftmost t.toList left op right ∧
      ∀ rest : String, evaluate locals ("return " ++ literal t ++ rest) =
        .error (unexpected ('"' :: left))) := by
  refine ⟨fun hclear => ⟨evaluate_literal locals hclear, fun u => ⟨?_, ?_⟩⟩, fun hnot => ?_⟩
  · have hequal : decide (t = u) = decide (Operator.eq.Holds (utf8 t) (utf8 u)) :=
      decide_eq_decide.2 Text.utf8_inj.symm
    rw [hequal]
    exact evaluate_literals locals .eq hclear u
  · exact evaluate_literals locals .lt hclear u
  · obtain ⟨left, op, right, hleftmost⟩ := exists_leftmost hnot
    exact ⟨left, op, right, hleftmost, evaluate_literal_append locals ht hleftmost⟩

/-- An operator in the text on the right is part of the text, one in the text on the left is
taken for the comparison. -/
theorem literal_contents_either_side :
    evaluate [("a", .text "b")] "return \"a\" < \"a <\"" = .ok [.boolean true] ∧
    evaluate [("a", .text "b")] "return \"a <\" == \"a <\"" =
      .error (.raised "unexpected symbol near '\"a'") := by
  have hclear : Clear "a".toList := cut?_eq_none_iff.1 rfl
  have hoperator : ¬Clear "a <".toList := fun h => h .lt ⟨['a', ' '], [], rfl⟩
  obtain ⟨hvalues, -⟩ := literal_contents [("a", .text "b")] (t := "a") (by decide)
  obtain ⟨-, hfault⟩ := literal_contents [("a", .text "b")] (t := "a <") (by decide)
  obtain ⟨left, op, right, hleftmost, hfails⟩ := hfault hoperator
  obtain ⟨rfl, -, -⟩ := hleftmost.unique (cut?_eq_some_iff.1 rfl)
  exact ⟨((hvalues hclear).2 "a <").2, hfails " == \"a <\""⟩

/-- **Texts in quotes that hold an operator have no value**: `==` in quotes is neither itself,
nor equal to itself, nor before a letter. On the right of a comparison it is a text. -/
theorem operator_in_quotes :
    '"' ∉ "==".toList ∧
    evaluate [] "return \"==\"" = .error (.raised "unexpected symbol near '\"'") ∧
    evaluate [] "return \"==\" == \"==\"" = .error (.raised "unexpected symbol near '\"'") ∧
    evaluate [] "return \"==\" < \"a\"" = .error (.raised "unexpected symbol near '\"'") ∧
    evaluate [] "return \"a\" == \"==\"" = .ok [.boolean false] := by
  exact ⟨by decide, rfl, rfl, rfl, rfl⟩

end Literals

end Breakpoints.Script

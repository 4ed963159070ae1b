import Breakpoints.Proofs.Script.Operand
import Breakpoints.Proofs.Text.Encoding
import Breakpoints.Script.Comparison

/-!
# Which comparison a script makes

A script is cut at its leftmost operator, the longer one where two start together
(`cut?_eq_some_iff`). No operator straddles the end of an operand, since neither end of an
operand is a character of an operator (`IsOperand.walled`); so two operands with an
operator between them are cut at that operator unless the left one is a text that holds
one itself (`leftmost_append`). The outcome is that of comparing the two values
(`comparison_grammar`).
-/

namespace Breakpoints.Script

open Text (allBlank isBlank utf8)

/-! ## Operators in a text -/

/-- The characters that operators are made of. -/
def operatorChars : List Char := ['=', '~', '<', '>']

namespace Operator

theorem mem_operatorChars {op : Operator} {c : Char} (h : c ∈ op.symbol) : c ∈ operatorChars := by
  have hall : op.symbol.all (operatorChars.contains ·) = true := by cases op <;> rfl
  exact List.contains_iff_mem.1 (List.all_eq_true.1 hall c h)

theorem symbol_ne_nil (op : Operator) : op.symbol ≠ [] := by
  cases op <;> exact List.cons_ne_nil _ _

theorem symbol_injective {op op' : Operator} (h : op.symbol = op'.symbol) : op = op' := by
  revert h
  cases op <;> cases op' <;> decide

end Operator

/-- No operator occurs in the text. -/
def Clear (cs : List Char) : Prop := ∀ op : Operator, ¬op.symbol <:+: cs

/-- Neither end of the text is a character of an operator. -/
structure Walled (cs : List Char) : Prop where
  head : ∀ c ∈ cs.head?, c ∉ operatorChars
  last : ∀ c ∈ cs.getLast?, c ∉ operatorChars

theorem clear_of_forall {cs : List Char} (h : ∀ c ∈ cs, c ∉ operatorChars) : Clear cs := by
  intro op hop
  obtain ⟨c, rest, hsymbol⟩ := List.exists_cons_of_ne_nil op.symbol_ne_nil
  have hc : c ∈ op.symbol := hsymbol ▸ List.mem_cons_self
  exact h c (hop.subset hc) (Operator.mem_operatorChars hc)

theorem Clear.cons {c : Char} {cs : List Char}
    (hnone : ∀ op right, Operator.symbol op ++ right ≠ c :: cs) (h : Clear cs) :
    Clear (c :: cs) := by
  intro op hop
  rcases List.infix_cons_iff.1 hop with ⟨right, hprefix⟩ | hinfix
  · exact hnone op right hprefix
  · exact h op hinfix

theorem walled_of_forall {cs : List Char} (h : ∀ c ∈ cs, c ∉ operatorChars) : Walled cs :=
  ⟨fun c hc => h c (List.mem_of_mem_head? hc), fun c hc => h c (List.mem_of_getLast? hc)⟩

theorem Walled.append {u v : List Char} (hu : Walled u) (hv : Walled v) : Walled (u ++ v) := by
  constructor
  · intro c hc
    rw [List.head?_append, Option.mem_def, Option.or_eq_some_iff] at hc
    rcases hc with hc | ⟨-, hc⟩
    · exact hu.head c hc
    · exact hv.head c hc
  · intro c hc
    rw [List.getLast?_append, Option.mem_def, Option.or_eq_some_iff] at hc
    rcases hc with hc | ⟨-, hc⟩
    · exact hv.last c hc
    · exact hu.last c hc

/-- An operator that ends after `left` does not start in it, if no operator occurs in `left`. -/
theorem left_length_le {left right left' right' : List Char} {op' : Operator} (hclear : Clear left)
    (hwall : Walled left) (h : left ++ right = left' ++ (op'.symbol ++ right')) :
    left.length ≤ left'.length := by
  rcases List.append_eq_append_iff.1 h with ⟨w, rfl, -⟩ | ⟨w, hleft, hw⟩
  · simp
  rcases List.append_eq_append_iff.1 hw.symm with ⟨w', hsymbol, -⟩ | ⟨w', rfl, -⟩
  · rcases List.eq_nil_or_concat w with rfl | ⟨w, c, rfl⟩
    · simp [hleft]
    · -- The last character of `left` would be one of the operator.
      have hlast : left.getLast? = some c := by simp [hleft]
      have hc : c ∈ op'.symbol := by simp [hsymbol]
      exact absurd (Operator.mem_operatorChars hc) (hwall.last c hlast)
  · -- The operator would lie in `left`.
    exact absurd ⟨left', w', by rw [hleft, List.append_assoc]⟩ (hclear op')

/-! ## The leftmost operator -/

/-- The text is cut at its leftmost operator, and at the longest one there. -/
structure Leftmost (cs left : List Char) (op : Operator) (right : List Char) : Prop where
  cut : cs = left ++ (op.symbol ++ right)
  first : ∀ left' op' right', cs = left' ++ (Operator.symbol op' ++ right') →
    left.length ≤ left'.length
  longest : ∀ op' right', cs = left ++ (Operator.symbol op' ++ right') →
    op'.symbol.length ≤ op.symbol.length

/-- A character at which no operator starts moves the leftmost one by a place. -/
theorem Leftmost.cons {c : Char} {cs left right : List Char} {op : Operator}
    (hnone : ∀ op' right', Operator.symbol op' ++ right' ≠ c :: cs)
    (h : Leftmost cs left op right) : Leftmost (c :: cs) (c :: left) op right where
  cut := congrArg (c :: ·) h.cut
  first left' op' right' h' := by
    cases left' with
    | nil => exact absurd h'.symm (hnone op' right')
    | cons d left' => exact Nat.succ_le_succ (h.first left' op' right' (List.cons.inj h').2)
  longest op' right' h' := h.longest op' right' (List.cons.inj h').2

theorem Leftmost.unique {cs left right left' right' : List Char} {op op' : Operator}
    (h : Leftmost cs left op right) (h' : Leftmost cs left' op' right') :
    left = left' ∧ op = op' ∧ right = right' := by
  have hlength : left.length = left'.length :=
    Nat.le_antisymm (h.first _ _ _ h'.cut) (h'.first _ _ _ h.cut)
  obtain ⟨rfl, hrest⟩ := List.append_inj (h.cut.symm.trans h'.cut) hlength
  have hsymbol : op.symbol.length = op'.symbol.length :=
    Nat.le_antisymm (h'.longest _ _ h.cut) (h.longest _ _ h'.cut)
  obtain ⟨hop, rfl⟩ := List.append_inj hrest hsymbol
  exact ⟨rfl, Operator.symbol_injective hop, rfl⟩

namespace Operator

theorem strip?_longest {cs rest rest' : List Char} {op op' : Operator}
    (h : strip? cs = some (op, rest)) (h' : cs = op'.symbol ++ rest') :
    op'.symbol.length ≤ op.symbol.length := by
  subst h'
  have hone : 1 ≤ op.symbol.length := List.length_pos_iff.2 op.symbol_ne_nil
  cases op' with
  | gt | lt => exact hone
  | eq | ne | ge | le =>
    cases h
    exact Nat.le_refl _

theorem append_ne_of_strip?_eq_none {cs : List Char} (h : strip? cs = none) (op : Operator)
    (right : List Char) : op.symbol ++ right ≠ cs := by
  rintro rfl
  revert h
  unfold strip?
  cases op <;> split <;> simp_all [symbol]

end Operator

theorem leftmost_of_cut? {cs left right : List Char} {op : Operator}
    (h : cut? cs = some (left, op, right)) : Leftmost cs left op right := by
  induction cs generalizing left with
  | nil => cases h
  | cons c cs ih =>
    simp only [cut?] at h
    split at h
    · next hstrip =>
      cases h
      exact ⟨Operator.strip?_eq_some hstrip, fun _ _ _ _ => Nat.zero_le _,
        fun _ _ h' => Operator.strip?_longest hstrip h'⟩
    · next hstrip =>
      obtain ⟨⟨left, op, right⟩, hcut, heq⟩ := Option.map_eq_some_iff.1 h
      cases heq
      exact (ih hcut).cons fun op' right' => Operator.append_ne_of_strip?_eq_none hstrip op' right'

theorem clear_of_cut?_eq_none {cs : List Char} (h : cut? cs = none) : Clear cs := by
  induction cs with
  | nil => exact clear_of_forall fun _ h => nomatch h
  | cons c cs ih =>
    simp only [cut?] at h
    split at h
    · cases h
    · next hstrip =>
      exact (ih (Option.map_eq_none_iff.1 h)).cons (Operator.append_ne_of_strip?_eq_none hstrip)

theorem cut?_eq_none_iff {cs : List Char} : cut? cs = none ↔ Clear cs := by
  refine ⟨clear_of_cut?_eq_none, fun h => Option.eq_none_iff_forall_ne_some.2 ?_⟩
  rintro ⟨left, op, right⟩ hcut
  exact h op ⟨left, right, by rw [(leftmost_of_cut? hcut).cut, List.append_assoc]⟩

/-- **A text is cut at its leftmost operator**, the longest one there. -/
theorem cut?_eq_some_iff {cs left right : List Char} {op : Operator} :
    cut? cs = some (left, op, right) ↔ Leftmost cs left op right := by
  refine ⟨leftmost_of_cut?, fun h => ?_⟩
  cases hcut : cut? cs with
  | none =>
    exact absurd ⟨left, right, by rw [h.cut, List.append_assoc]⟩ (clear_of_cut?_eq_none hcut op)
  | some found =>
    obtain ⟨left', op', right'⟩ := found
    obtain ⟨rfl, rfl, rfl⟩ := (leftmost_of_cut? hcut).unique h
    rfl

theorem exists_leftmost {cs : List Char} (h : ¬Clear cs) :
    ∃ left op right, Leftmost cs left op right := by
  obtain ⟨⟨left, op, right⟩, hcut⟩ := Option.ne_none_iff_exists'.1 fun hnone =>
    h (cut?_eq_none_iff.1 hnone)
  exact ⟨left, op, right, leftmost_of_cut? hcut⟩

/-- An operator after a text without operators is the leftmost one. -/
theorem leftmost_append {left right : List Char} (op : Operator) (hclear : Clear left)
    (hwall : Walled left) (hright : ∀ c ∈ right.head?, c ∉ operatorChars) :
    Leftmost (left ++ (op.symbol ++ right)) left op right where
  cut := rfl
  first _ _ _ h := left_length_le hclear hwall h
  longest op' right' h := by
    -- Only `>` and `<` could be the start of a longer operator, and then `=` would follow.
    have hequals : right.head? ≠ some '=' := fun h => hright '=' h (by decide)
    have hrest := List.append_cancel_left h
    cases op <;> cases op' <;> simp_all [Operator.symbol]

/-! ## Operators and operands -/

theorem not_operatorChar_of_isBlank {c : Char} (h : isBlank c = true) : c ∉ operatorChars := by
  have hnone : operatorChars.any isBlank = false := rfl
  exact fun hc => List.any_eq_false.1 hnone c hc h

theorem Plain.not_operatorChar {c : Char} (h : Plain c) : c ∉ operatorChars := by
  have hnone : operatorChars.any Text.isWordChar = false := rfl
  rcases h with h | rfl | rfl
  · exact fun hc => List.any_eq_false.1 hnone c hc h
  · decide
  · decide

theorem walled_of_allBlank {cs : List Char} (h : allBlank cs = true) : Walled cs :=
  walled_of_forall fun c hc => not_operatorChar_of_isBlank (Text.allBlank_iff.1 h c hc)

section Operands

variable {locals : Locals} {cs : List Char} {value : Value}

theorem Denotes.walled (h : Denotes locals cs value) : Walled cs := by
  rcases h.quoted_or_plain with ⟨inside, rfl⟩ | hplain
  · have hquote : Walled ['"'] := walled_of_forall (List.forall_mem_singleton.2 (by decide))
    refine ⟨fun c hc => hquote.head c hc, fun c hc => hquote.last c ?_⟩
    rwa [← List.cons_append, List.getLast?_concat] at hc
  · exact walled_of_forall fun c hc => (hplain c hc).not_operatorChar

theorem IsOperand.walled (h : IsOperand locals cs value) : Walled cs := by
  obtain ⟨before, form, after, hbefore, hafter, rfl, hform⟩ := h
  exact (walled_of_allBlank hbefore).append (hform.walled.append (walled_of_allBlank hafter))

theorem IsOperand.ne_nil (h : IsOperand locals cs value) : cs ≠ [] := by
  obtain ⟨before, form, after, -, -, rfl, hform⟩ := h
  simp [hform.ne_nil]

theorem IsOperand.not_operatorChar (h : IsOperand locals cs value) (hquote : ¬Quoted cs) :
    ∀ c ∈ cs, c ∉ operatorChars := fun c hc =>
  (h.plain hquote c hc).elim not_operatorChar_of_isBlank Plain.not_operatorChar

/-- Only operands in quotes can hold an operator. -/
theorem IsOperand.clear (h : IsOperand locals cs value) (hclear : Quoted cs → Clear cs) :
    Clear cs := by
  by_cases hquote : Quoted cs
  · exact hclear hquote
  · exact clear_of_forall (h.not_operatorChar hquote)

/-- What starts with an operand does not start with a character of an operator. -/
theorem IsOperand.head_append (h : IsOperand locals cs value) (rest : List Char) :
    ∀ c ∈ (cs ++ rest).head?, c ∉ operatorChars := by
  obtain ⟨d, ds, rfl⟩ := List.exists_cons_of_ne_nil h.ne_nil
  exact h.walled.head

end Operands

/-! ## What a comparison answers -/

/-- Two things are in the relation that the operator stands for. -/
def Operator.Holds {α : Type} [LT α] [LE α] : Operator → α → α → Prop
  | eq, x, y => x = y
  | ne, x, y => x ≠ y
  | ge, x, y => y ≤ x
  | le, x, y => x ≤ y
  | gt, x, y => y < x
  | lt, x, y => x < y

instance {α : Type} [LT α] [LE α] [DecidableEq α] [DecidableLT α] [DecidableLE α]
    (op : Operator) (x y : α) : Decidable (op.Holds x y) :=
  match op with
  | .eq => inferInstanceAs (Decidable (x = y))
  | .ne => inferInstanceAs (Decidable (x ≠ y))
  | .ge => inferInstanceAs (Decidable (y ≤ x))
  | .le => inferInstanceAs (Decidable (x ≤ y))
  | .gt => inferInstanceAs (Decidable (y < x))
  | .lt => inferInstanceAs (Decidable (x < y))

/-- The answer to a comparison of two values. Values are equal if they are the same
(`Value.equal_iff_of_ne_number`), except for two floating-point numbers, where a NaN equals
nothing and the two zeros equal each other (`Binary64.equal`); an integer never equals a
floating-point number. Integers are ordered as integers, texts by their bytes in UTF-8, and no
other values have an order. -/
inductive Compared : Operator → Value → Value → Except Fault Bool → Prop
  /-- `a.equal b` is `a = b` unless both are floating-point numbers. -/
  | eq (a b : Value) : Compared .eq a b (.ok (a.equal b))
  /-- It is the opposite of `eq` for all values: a NaN differs from itself. -/
  | ne (a b : Value) : Compared .ne a b (.ok (!a.equal b))
  | integers {op : Operator} (hop : op ≠ .eq ∧ op ≠ .ne) (m n : Int) :
    Compared op (.integer m) (.integer n) (.ok (decide (op.Holds m n)))
  | texts {op : Operator} (hop : op ≠ .eq ∧ op ≠ .ne) (s t : String) :
    Compared op (.text s) (.text t) (.ok (decide (op.Holds (utf8 s) (utf8 t))))
  | unordered {op : Operator} (hop : op ≠ .eq ∧ op ≠ .ne) {a b : Value}
    (hintegers : ¬∃ m n, a = .integer m ∧ b = .integer n)
    (htexts : ¬∃ s t, a = .text s ∧ b = .text t) :
    Compared op a b
      (.error (.raised ("attempt to compare " ++ a.typeName ++ " with " ++ b.typeName)))

/-- How two things compare says whether an operator's relation holds, in a total order. -/
theorem Operator.accepts_compareOfLessAndEq {α : Type} [LT α] [LE α] [DecidableEq α]
    [DecidableLT α] [DecidableLE α] (hantisymm : ∀ {x y : α}, x ≤ y → y ≤ x → x = y)
    (hnot : ∀ {x y : α}, ¬x ≤ y ↔ y < x) (htotal : ∀ x y : α, x ≤ y ∨ y ≤ x) (op : Operator)
    (x y : α) : op.accepts (compareOfLessAndEq x y) = true ↔ op.Holds x y := by
  have hrefl (x : α) : x ≤ x := (htotal x x).elim id id
  cases op with
  | eq => exact Ordering.isEq_iff_eq_eq.trans (compareOfLessAndEq_eq_eq hrefl hnot)
  | ne => exact Ordering.isNe_iff_ne_eq.trans (not_congr (compareOfLessAndEq_eq_eq hrefl hnot))
  | ge => exact isGE_compareOfLessAndEq hantisymm hnot htotal
  | le => exact isLE_compareOfLessAndEq hantisymm hnot htotal
  | gt => exact Ordering.isGT_iff_eq_gt.trans (compareOfLessAndEq_eq_gt hantisymm htotal hnot x y)
  | lt => exact Ordering.isLT_iff_eq_lt.trans compareOfLessAndEq_eq_lt

theorem Operator.accepts_compare_int (op : Operator) (m n : Int) :
    op.accepts (compare m n) = decide (op.Holds m n) := by
  rw [Bool.eq_iff_iff, decide_eq_true_eq]
  exact op.accepts_compareOfLessAndEq Int.le_antisymm Int.not_le Int.le_total m n

/-- The order of texts is that of their bytes. -/
theorem Operator.holds_utf8_iff (op : Operator) (s t : String) :
    op.Holds (utf8 s) (utf8 t) ↔ op.Holds s t := by
  cases op with
  | eq => exact Text.utf8_inj
  | ne => exact not_congr Text.utf8_inj
  | ge | le => exact Text.utf8_le_iff
  | gt | lt => exact Text.utf8_lt_iff

theorem Operator.accepts_compare_text (op : Operator) (s t : String) :
    op.accepts (compare s t) = decide (op.Holds (utf8 s) (utf8 t)) := by
  rw [Bool.eq_iff_iff, decide_eq_true_eq, op.holds_utf8_iff]
  exact op.accepts_compareOfLessAndEq String.le_antisymm String.not_le String.le_total s t

/-- An order operator answers by the order of the two values, if there is one. -/
theorem compareValues_of_order {op : Operator} (hop : op ≠ .eq ∧ op ≠ .ne) (a b : Value) :
    compareValues op a b = match order? a b with
      | some o => .ok (op.accepts o)
      | none =>
        .error (.raised ("attempt to compare " ++ a.typeName ++ " with " ++ b.typeName)) := by
  cases op with
  | eq => exact absurd rfl hop.1
  | ne => exact absurd rfl hop.2
  | ge | le | gt | lt => rfl

theorem compared (op : Operator) (a b : Value) : Compared op a b (compareValues op a b) := by
  by_cases heq : op = .eq
  · exact heq ▸ .eq a b
  by_cases hne : op = .ne
  · exact hne ▸ .ne a b
  have hop := And.intro heq hne
  rw [compareValues_of_order hop]
  cases horder : order? a b with
  | none =>
    refine .unordered hop ?_ ?_
    · rintro ⟨m, n, rfl, rfl⟩
      cases horder
    · rintro ⟨s, t, rfl, rfl⟩
      cases horder
  | some o =>
    unfold order? at horder
    split at horder
    · next m n =>
      cases horder
      show Compared op _ _ (.ok (op.accepts (compare m n)))
      rw [op.accepts_compare_int]
      exact .integers hop m n
    · next s t =>
      cases horder
      show Compared op _ _ (.ok (op.accepts (compare s t)))
      rw [op.accepts_compare_text]
      exact .texts hop s t
    · cases horder

/-- Where two values are equal exactly if neither comes before the other, all six operators
answer by their order. -/
theorem compareValues_of_agree (op : Operator) {a b : Value} {o : Ordering}
    (horder : order? a b = some o) (hequal : a.equal b = Operator.eq.accepts o) :
    compareValues op a b = .ok (op.accepts o) := by
  cases op with
  | eq => exact congrArg Except.ok hequal
  | ne =>
    show Except.ok (!a.equal b) = .ok o.isNe
    rw [hequal]
    cases o <;> rfl
  | ge | le | gt | lt => rw [compareValues_of_order (by decide), horder]

/-- All six operators answer two integers by the relation they stand for. -/
theorem compareValues_integer (op : Operator) (m n : Int) :
    compareValues op (.integer m) (.integer n) = .ok (decide (op.Holds m n)) := by
  have hequal : (Value.integer m).equal (.integer n) = Operator.eq.accepts (compare m n) := by
    rw [Operator.accepts_compare_int, Bool.eq_iff_iff,
      Value.equal_iff_of_ne_number fun _ => Value.noConfusion, decide_eq_true_eq,
      Value.integer.injEq]
    exact Iff.rfl
  rw [compareValues_of_agree op rfl hequal, op.accepts_compare_int]

/-- All six operators answer two texts by the relation of their bytes. -/
theorem compareValues_text (op : Operator) (s t : String) :
    compareValues op (.text s) (.text t) = .ok (decide (op.Holds (utf8 s) (utf8 t))) := by
  have hequal : (Value.text s).equal (.text t) = Operator.eq.accepts (compare s t) := by
    rw [Operator.accepts_compare_text, Bool.eq_iff_iff,
      Value.equal_iff_of_ne_number fun _ => Value.noConfusion, decide_eq_true_eq,
      Operator.holds_utf8_iff, Value.text.injEq]
    exact Iff.rfl
  rw [compareValues_of_agree op rfl hequal, op.accepts_compare_text]

/-! ## Scripts -/

theorem evaluate_return (locals : Locals) (cs : List Char) :
    evaluate locals ("return " ++ String.ofList cs) =
      (expression locals cs).map fun value => [value] := by
  have hreturned : returned? ("return " ++ String.ofList cs).toList = some cs := by
    rw [String.toList_append, String.toList_ofList]
    simp [returned?]
  rw [evaluate, hreturned]

section Expressions

variable {locals : Locals} {cs left right : List Char} {op : Operator}

theorem expression_of_leftmost (h : Leftmost cs left op right) {a b : Value}
    (ha : IsOperand locals left a) (hb : IsOperand locals right b) :
    expression locals cs = (compareValues op a b).map .boolean := by
  rw [expression, cut?_eq_some_iff.2 h]
  dsimp only
  rw [operand_eq_ok_iff.2 ha, operand_eq_ok_iff.2 hb]
  cases h : compareValues op a b <;> simp [h, bind, Except.bind, Except.map, pure, Except.pure]

theorem evaluate_of_operands {a b : Value} (op : Operator) (ha : IsOperand locals left a)
    (hb : IsOperand locals right b) (hclear : Quoted left → Clear left) :
    evaluate locals ("return " ++ String.ofList (left ++ (op.symbol ++ right))) =
      (compareValues op a b).map fun verdict => [.boolean verdict] := by
  have hleftmost := leftmost_append op (ha.clear hclear) ha.walled hb.walled.head
  rw [evaluate_return, expression_of_leftmost hleftmost ha hb]
  cases compareValues op a b <;> rfl

/-- The left operand goes first, so its fault is the one that is raised. -/
theorem expression_of_not_isOperand_left (h : Leftmost cs left op right)
    (hnot : ∀ value, ¬IsOperand locals left value) :
    expression locals cs = .error (unexpected left) := by
  rw [expression, cut?_eq_some_iff.2 h]
  dsimp only
  rw [operand_of_not_isOperand hnot]
  rfl

/-- Without a value on the left, or else on the right, there is none of the comparison. -/
theorem expression_of_not_isOperand (h : Leftmost cs left op right)
    (hnot : (∀ value, ¬IsOperand locals left value) ∨ ∀ value, ¬IsOperand locals right value) :
    expression locals cs = .error (unexpected left) ∨
      expression locals cs = .error (unexpected right) := by
  by_cases hleft : ∀ value, ¬IsOperand locals left value
  · exact .inl (expression_of_not_isOperand_left h hleft)
  · obtain ⟨a, ha⟩ := Classical.not_forall_not.1 hleft
    rw [expression, cut?_eq_some_iff.2 h]
    dsimp only
    rw [operand_eq_ok_iff.2 ha, operand_of_not_isOperand (hnot.resolve_left hleft)]
    exact .inr rfl

end Expressions

/-- Where a second operator follows, what stands right of the first is no operand. -/
theorem not_isOperand_of_operator {locals : Locals} {mid right : List Char} {b : Value}
    (hmid : IsOperand locals mid b) (hquote : ¬Quoted mid) (op : Operator) (value : Value) :
    ¬IsOperand locals (mid ++ (op.symbol ++ right)) value := by
  intro h
  have hplain := h.not_operatorChar fun h => hquote ((hmid.quoted_append _).1 h)
  obtain ⟨c, cs, hsymbol⟩ := List.exists_cons_of_ne_nil op.symbol_ne_nil
  have hc : c ∈ op.symbol := hsymbol ▸ List.mem_cons_self
  exact hplain c (by simp [hc]) (Operator.mem_operatorChars hc)

/-- **The grammar of comparisons.** Two operands around an operator are compared by their
values, unless the left one is a text in quotes that holds an operator itself. A script
with an operator has no value if what stands left or right of the leftmost one is not an
operand; so two operators between three operands not in quotes never have one. -/
theorem comparison_grammar (locals : Locals) :
    (∀ (op : Operator) (left right : List Char) (a b : Value),
      IsOperand locals left a → IsOperand locals right b → (Quoted left → Clear left) →
        ∃ answer, Compared op a b answer ∧
          evaluate locals ("return " ++ String.ofList (left ++ (op.symbol ++ right))) =
            answer.map fun verdict => [.boolean verdict]) ∧
    (∀ cs, ¬Clear cs → ∃ left op right, Leftmost cs left op right ∧
      ((∀ value, ¬IsOperand locals left value) ∨ (∀ value, ¬IsOperand locals right value) →
        ∃ message, evaluate locals ("return " ++ String.ofList cs) = .error (.raised message))) ∧
    (∀ (op op' : Operator) (left mid right : List Char) (a b c : Value),
      IsOperand locals left a → IsOperand locals mid b → IsOperand locals right c →
      ¬Quoted left → ¬Quoted mid → ¬Quoted right →
        ∃ message, evaluate locals ("return " ++
          String.ofList (left ++ (op.symbol ++ (mid ++ (op'.symbol ++ right))))) =
            .error (.raised message)) := by
  have hraised {op : Operator} {cs left right : List Char} (h : Leftmost cs left op right)
      (hnot : (∀ value, ¬IsOperand locals left value) ∨ ∀ value, ¬IsOperand locals right value) :
      ∃ message, evaluate locals ("return " ++ String.ofList cs) = .error (.raised message) := by
    rw [evaluate_return]
    rcases expression_of_not_isOperand h hnot with herror | herror <;> rw [herror] <;>
      exact ⟨_, rfl⟩
  refine ⟨fun op left right a b ha hb hclear => ?_, fun cs hcs => ?_, ?_⟩
  · exact ⟨compareValues op a b, compared op a b, evaluate_of_operands op ha hb hclear⟩
  · obtain ⟨left, op, right, hleftmost⟩ := exists_leftmost hcs
    exact ⟨left, op, right, hleftmost, hraised hleftmost⟩
  · intro op op' left mid right a b c ha hb _ hleft hmid _
    have hclear := ha.clear fun hquote => absurd hquote hleft
    have hleftmost := leftmost_append op hclear ha.walled (hb.head_append (op'.symbol ++ right))
    exact hraised hleftmost (.inr (not_isOperand_of_operator hb hmid op'))

/-- A local against a text that holds operators, something before an operator that is no
operand, and two operators in a row. -/
theorem comparison_grammar_small :
    (∃ answer, Compared .lt (.text "1") (.text "1 < 2") answer ∧
      evaluate [("x", .text "1")] "return x <\"1 < 2\" " =
        answer.map fun verdict => [.boolean verdict]) ∧
    (∃ message, evaluate [("x", .text "1")] "return 1 2 <x" = .error (.raised message)) ∧
    ∃ message, evaluate [("x", .text "1")] "return 1 < x>=-2" = .error (.raised message) := by
  have h := comparison_grammar [("x", .text "1")]
  have htext : "return x <\"1 < 2\" " =
      "return " ++ String.ofList (['x', ' '] ++ (Operator.lt.symbol ++ "\"1 < 2\" ".toList)) := by
    decide
  have htwo : "return 1 < x>=-2" = "return " ++ String.ofList (['1', ' '] ++
      (Operator.lt.symbol ++ ([' ', 'x'] ++ (Operator.ge.symbol ++ ['-', '2'])))) := by
    decide
  have hx : ¬Quoted ['x', ' '] := by decide
  have hoperator : ¬Clear ['1', ' ', '2', ' ', '<', 'x'] := fun hclear =>
    hclear .lt ⟨['1', ' ', '2', ' '], ['x'], rfl⟩
  obtain ⟨left, op, right, hleftmost, hraised⟩ := h.2.1 _ hoperator
  obtain ⟨rfl, -, -⟩ := hleftmost.unique (cut?_eq_some_iff.1 rfl)
  have hfault : operand [("x", .text "1")] ['1', ' ', '2', ' '] =
      .error (unexpected ['1', ' ', '2', ' ']) := rfl
  have hnot : ∀ value, ¬IsOperand [("x", .text "1")] ['1', ' ', '2', ' '] value := by
    intro value hvalue
    rw [operand_eq_ok_iff.2 hvalue] at hfault
    cases hfault
  rw [htext, htwo]
  exact ⟨h.1 .lt _ _ _ _ (operand_eq_ok_iff.1 rfl) (operand_eq_ok_iff.1 rfl)
      fun hquote => absurd hquote hx,
    hraised (.inl hnot),
    h.2.2 .lt .ge _ _ _ (.integer 1) (.text "1") (.integer (-2)) (operand_eq_ok_iff.1 rfl)
      (operand_eq_ok_iff.1 rfl) (operand_eq_ok_iff.1 rfl) (by decide) (by decide)
      (by decide)⟩

end Breakpoints.Script

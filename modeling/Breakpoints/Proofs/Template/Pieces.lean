import Breakpoints.Template
import Mathlib.Data.List.TakeWhile
import Mathlib.Logic.Function.Iterate

/-!
# Reading a template piece by piece

A text is cut at its first pair of braces exactly as `braced?_eq_some_iff` and
`braced?_eq_none_iff` say. So there are four ways in which a cursor goes on, told apart
by what the cut leaves before, inside and after the braces (`next?_of_unbraced` and its
siblings). A cursor that is asked again and again gives its pieces in order and then
nothing any more (`item?_eq`).
-/

namespace Breakpoints.Template

open Text (allBlank)

/-! ## The first pair of braces -/

theorem dropWhile_ne_append {c : Char} {cs : List Char} (h : c ∉ cs) (rest : List Char) :
    (cs ++ c :: rest).dropWhile (· != c) = c :: rest := by
  have hall : ∀ d ∈ cs, (d != c) = true := fun d hd => bne_iff_ne.2 fun he => h (he ▸ hd)
  simp [List.dropWhile_append_of_pos hall]

theorem takeWhile_ne_append {c : Char} {cs : List Char} (h : c ∉ cs) (rest : List Char) :
    (cs ++ c :: rest).takeWhile (· != c) = cs := by
  have hall : ∀ d ∈ cs, (d != c) = true := fun d hd => bne_iff_ne.2 fun he => h (he ▸ hd)
  simp [List.takeWhile_append_of_pos hall]

theorem dropWhile_ne_eq_nil_iff {c : Char} {cs : List Char} :
    cs.dropWhile (· != c) = [] ↔ c ∉ cs := by
  simp only [List.dropWhile_eq_nil_iff, bne_iff_ne]
  exact ⟨fun h hc => h c hc rfl, fun h d hd he => h (he ▸ hd)⟩

theorem notMem_takeWhile_ne (c : Char) (cs : List Char) : c ∉ cs.takeWhile (· != c) := by
  intro h
  simpa using List.mem_takeWhile_imp h

/-- Where the braces are: the first opening one, and the first closing one after it. -/
theorem braced?_eq_some_iff {cs : List Char} {b : Braced} :
    braced? cs = some b ↔ b.text = cs ∧ '{' ∉ b.before ∧ '}' ∉ b.inside := by
  constructor
  · intro h
    refine ⟨braced?_text h, ?_⟩
    unfold braced? at h
    split at h
    · cases h
    · split at h
      · cases h
      · cases h
        exact ⟨notMem_takeWhile_ne '{' cs, notMem_takeWhile_ne '}' _⟩
  · obtain ⟨before, inside, after⟩ := b
    rintro ⟨rfl, hbefore, hinside⟩
    simp only [braced?, Braced.text, dropWhile_ne_append hbefore, takeWhile_ne_append hbefore,
      dropWhile_ne_append hinside, takeWhile_ne_append hinside]

theorem braced?_eq_none_iff {cs : List Char} :
    braced? cs = none ↔ '}' ∉ cs.dropWhile (· != '{') := by
  unfold braced?
  cases hopen : cs.dropWhile (· != '{') with
  | nil => simp
  | cons d inner =>
    obtain ⟨rfl, -⟩ := dropWhile_ne_eq_cons hopen
    have hinner : '}' ∉ '{' :: inner ↔ '}' ∉ inner := by simp
    rw [hinner, ← dropWhile_ne_eq_nil_iff]
    dsimp only
    split
    · next hnil => simp [hnil]
    · next hcons => simp [hcons]

/-! ## The ways in which a cursor goes on -/

namespace Cursor

variable {cs : List Char} {b : Braced}

@[simp] theorem next?_nil (offset : Nat) : (⟨[], offset⟩ : Cursor).next? = none := rfl

theorem next?_of_unbraced (h : braced? cs = none) (hne : cs ≠ []) (offset : Nat) :
    (⟨cs, offset⟩ : Cursor).next? =
      some (.literal (String.ofList cs), ⟨[], offset + byteLength cs⟩) := by
  simp only [next?, if_neg hne, h]

theorem ne_nil_of_braced? (h : braced? cs = some b) : cs ≠ [] := by
  rintro rfl
  cases h

theorem next?_of_blank (h : braced? cs = some b) (hblank : allBlank b.inside = true)
    (offset : Nat) :
    (⟨cs, offset⟩ : Cursor).next? =
      some (.blank (offset + byteLength b.before), ⟨[], offset + byteLength cs⟩) := by
  simp only [next?, if_neg (ne_nil_of_braced? h), h, hblank, if_true]

theorem next?_of_expression (h : braced? cs = some b) (hblank : allBlank b.inside = false)
    (hbefore : b.before = []) (offset : Nat) :
    (⟨cs, offset⟩ : Cursor).next? =
      some (.expression (String.ofList b.inside) offset,
        ⟨b.after, offset + byteLength b.inside + 2⟩) := by
  simp only [next?, if_neg (ne_nil_of_braced? h), h, hblank, hbefore, if_true, byteLength_nil,
    Nat.add_zero, Bool.false_eq_true, if_false]

theorem next?_of_literal (h : braced? cs = some b) (hblank : allBlank b.inside = false)
    (hbefore : b.before ≠ []) (offset : Nat) :
    (⟨cs, offset⟩ : Cursor).next? =
      some (.literal (String.ofList b.before),
        ⟨'{' :: (b.inside ++ '}' :: b.after), offset + byteLength b.before⟩) := by
  simp only [next?, if_neg (ne_nil_of_braced? h), h, hblank, if_neg hbefore, Bool.false_eq_true,
    if_false]

theorem pieces_of_next?_eq_none {c : Cursor} (h : c.next? = none) : c.pieces = [] := by
  unfold pieces
  split
  · rfl
  · next hsome =>
    rw [h] at hsome
    cases hsome

theorem pieces_of_next? {c c' : Cursor} {p : Piece} (h : c.next? = some (p, c')) :
    c.pieces = p :: c'.pieces := by
  rw [pieces]
  split
  · next hnone =>
    rw [h] at hnone
    cases hnone
  · next hsome =>
    rw [h] at hsome
    cases hsome
    rfl

@[simp] theorem pieces_nil (offset : Nat) : (⟨[], offset⟩ : Cursor).pieces = [] :=
  pieces_of_next?_eq_none (next?_nil offset)

theorem pieces_of_unbraced (h : braced? cs = none) (hne : cs ≠ []) (offset : Nat) :
    (⟨cs, offset⟩ : Cursor).pieces = [.literal (String.ofList cs)] := by
  rw [pieces_of_next? (next?_of_unbraced h hne offset), pieces_nil]

/-- A blank expression is the last piece, and the text before it is none. -/
theorem pieces_of_blank (h : braced? cs = some b) (hblank : allBlank b.inside = true)
    (offset : Nat) :
    (⟨cs, offset⟩ : Cursor).pieces = [.blank (offset + byteLength b.before)] := by
  rw [pieces_of_next? (next?_of_blank h hblank offset), pieces_nil]

theorem pieces_of_expression (h : braced? cs = some b) (hblank : allBlank b.inside = false)
    (hbefore : b.before = []) (offset : Nat) :
    (⟨cs, offset⟩ : Cursor).pieces =
      .expression (String.ofList b.inside) offset ::
        (⟨b.after, offset + byteLength b.inside + 2⟩ : Cursor).pieces :=
  pieces_of_next? (next?_of_expression h hblank hbefore offset)

/-- The text before an expression is a piece of its own. -/
theorem pieces_of_literal (h : braced? cs = some b) (hblank : allBlank b.inside = false)
    (hbefore : b.before ≠ []) (offset : Nat) :
    (⟨cs, offset⟩ : Cursor).pieces =
      .literal (String.ofList b.before) ::
        .expression (String.ofList b.inside) (offset + byteLength b.before) ::
          (⟨b.after, offset + byteLength b.before + byteLength b.inside + 2⟩ : Cursor).pieces := by
  have hinside : '}' ∉ b.inside := (braced?_eq_some_iff.1 h).2.2
  have hagain : braced? ('{' :: (b.inside ++ '}' :: b.after)) = some ⟨[], b.inside, b.after⟩ :=
    braced?_eq_some_iff.2 ⟨rfl, List.not_mem_nil, hinside⟩
  rw [pieces_of_next? (next?_of_literal h hblank hbefore offset),
    pieces_of_expression hagain hblank rfl]

/-! ## Asking again and again -/

/-- The cursor after it was asked once more. At the end it stays where it is. -/
def advance (c : Cursor) : Cursor := (c.next?.map (·.2)).getD c

/-- What the cursor gives when it is asked for the `n`-th time, counted from zero. -/
def item? (n : Nat) (c : Cursor) : Option Piece := (advance^[n] c).next?.map (·.1)

/-- A cursor gives its pieces in order, and then nothing any more. -/
theorem item?_eq (n : Nat) (c : Cursor) : c.item? n = c.pieces[n]? := by
  induction n generalizing c with
  | zero =>
    cases h : c.next? with
    | none => simp [item?, h, pieces_of_next?_eq_none h]
    | some next => simp [item?, h, pieces_of_next? (show c.next? = some (next.1, next.2) from h)]
  | succ n ih =>
    have hstep : c.item? (n + 1) = c.advance.item? n := by
      rw [item?, Function.iterate_succ_apply, item?]
    rw [hstep, ih]
    cases h : c.next? with
    | none =>
      have hstays : c.advance = c := by simp [advance, h]
      rw [hstays, pieces_of_next?_eq_none h]
      rfl
    | some next =>
      have hnext : c.advance = next.2 := by simp [advance, h]
      rw [hnext, pieces_of_next? (show c.next? = some (next.1, next.2) from h),
        List.getElem?_cons_succ]

end Cursor

end Breakpoints.Template

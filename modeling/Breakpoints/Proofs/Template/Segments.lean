import Breakpoints.Proofs.Template.Pieces
import Mathlib.Data.List.DropRight

/-!
# Templates as segments

A template is written from segments: literal text as it is, an expression in braces.
Segments are in normal form if nothing else is written the same way (`Normal`). Reading
a template takes it apart into segments in normal form, up to a blank expression if
there is one (`pieces_sound`), and whatever is written from segments in normal form is
read as these segments again (`pieces_written`). So the expressions of a template are
the matches of `{`, characters other than `}`, `}` from left to right
(`Matches.filter_pieces`).
-/

namespace Breakpoints.Template

open Text (allBlank)

inductive Segment where
  | literal (text : List Char)
  | expression (source : List Char)
  deriving DecidableEq, Repr

namespace Segment

/-- What is written of a segment. -/
def text : Segment → List Char
  | literal text => text
  | expression source => '{' :: (source ++ ['}'])

/-- The piece that a segment at an offset is read as. -/
def piece (offset : Nat) : Segment → Piece
  | literal text => .literal (String.ofList text)
  | expression source => .expression (String.ofList source) offset

def isLiteral : Segment → Bool
  | literal _ => true
  | expression _ => false

end Segment

/-- The text written from segments. -/
def written (segments : List Segment) : List Char := segments.flatMap Segment.text

/-- The pieces that segments are read as if the first one is at an offset. -/
def placed (offset : Nat) : List Segment → List Piece
  | [] => []
  | segment :: rest => segment.piece offset :: placed (offset + byteLength segment.text) rest

/-- Literals are not empty and stand apart. One before an expression has no opening
brace, and one at the end has no closing brace after its first opening one. An
expression has no closing brace and is not blank. -/
def Normal : List Segment → Prop
  | [] => True
  | [.literal text] => text ≠ [] ∧ '}' ∉ text.dropWhile (· != '{')
  | .literal text :: .expression source :: rest =>
    text ≠ [] ∧ '{' ∉ text ∧ Normal (.expression source :: rest)
  | .literal _ :: .literal _ :: _ => False
  | .expression source :: rest => '}' ∉ source ∧ allBlank source = false ∧ Normal rest

instance Normal.instDecidable : (segments : List Segment) → Decidable (Normal segments)
  | [] => inferInstanceAs (Decidable True)
  | [.literal text] =>
    inferInstanceAs (Decidable (text ≠ [] ∧ '}' ∉ text.dropWhile (· != '{')))
  | .literal text :: .expression source :: rest =>
    have := Normal.instDecidable (.expression source :: rest)
    inferInstanceAs
      (Decidable (text ≠ [] ∧ '{' ∉ text ∧ Normal (.expression source :: rest)))
  | .literal _ :: .literal _ :: _ => inferInstanceAs (Decidable False)
  | .expression source :: rest =>
    have := Normal.instDecidable rest
    inferInstanceAs (Decidable ('}' ∉ source ∧ allBlank source = false ∧ Normal rest))

/-- The segments are none, or the last one is an expression. -/
def Complete (segments : List Segment) : Prop := ∀ text, segments.getLast? ≠ some (.literal text)

/-! ## Writing -/

@[simp] theorem written_nil : written [] = [] := rfl

@[simp] theorem written_cons (segment : Segment) (rest : List Segment) :
    written (segment :: rest) = segment.text ++ written rest := rfl

@[simp] theorem written_append (front back : List Segment) :
    written (front ++ back) = written front ++ written back := List.flatMap_append

@[simp] theorem placed_nil (offset : Nat) : placed offset [] = [] := rfl

theorem placed_append (offset : Nat) (front back : List Segment) :
    placed offset (front ++ back) =
      placed offset front ++ placed (offset + byteLength (written front)) back := by
  induction front generalizing offset with
  | nil => simp
  | cons segment rest ih => simp [placed, ih, Nat.add_assoc]

theorem byteLength_text_expression (source : List Char) :
    byteLength (Segment.expression source).text = byteLength source + 2 := by
  have hopen : Char.utf8Size '{' = 1 := rfl
  have hclose : Char.utf8Size '}' = 1 := rfl
  simp only [Segment.text, byteLength_cons, byteLength_append, byteLength_nil, hopen, hclose]
  omega

/-! ## Segments in normal form -/

theorem notMem_of_allBlank {cs : List Char} (h : allBlank cs = true) {c : Char}
    (hc : Text.isBlank c = false) : c ∉ cs := by
  intro hmem
  rw [List.all_eq_true.1 h c hmem] at hc
  cases hc

section Normal

variable {segments rest front : List Segment} {text source : List Char}

theorem complete_nil : Complete [] := fun _ h => by cases h

theorem complete_concat_expression (front : List Segment) (source : List Char) :
    Complete (front ++ [.expression source]) := by
  intro text h
  rw [List.getLast?_concat] at h
  cases h

theorem Complete.of_expression_cons (h : Complete (.expression source :: rest)) :
    Complete rest := by
  intro text hlast
  apply h text
  rw [List.getLast?_cons, hlast]
  rfl

theorem Complete.of_literal_cons (h : Complete (.literal text :: .expression source :: rest)) :
    Complete (.expression source :: rest) := by
  intro last hlast
  apply h last
  rw [List.getLast?_cons, hlast]
  rfl

/-- Segments are complete, or all but a literal at their end are. -/
theorem complete_or_concat (segments : List Segment) :
    Complete segments ∨ ∃ front text, segments = front ++ [.literal text] := by
  rcases List.eq_nil_or_concat segments with rfl | ⟨front, last, rfl⟩
  · exact .inl complete_nil
  · rw [List.concat_eq_append]
    cases last with
    | literal text => exact .inr ⟨front, text, rfl⟩
    | expression source => exact .inl (complete_concat_expression front source)

theorem Normal.of_concat_literal (h : Normal (front ++ [.literal text])) :
    Normal front ∧ Complete front ∧ text ≠ [] ∧ '}' ∉ text.dropWhile (· != '{') := by
  induction front using Normal.induct with
  | case1 => exact ⟨trivial, complete_nil, h⟩
  | case2 | case4 => exact h.elim
  | case3 literal source rest ih =>
    obtain ⟨hne, hopen, hrest⟩ := h
    obtain ⟨hnormal, hcomplete, htext⟩ := ih hrest
    refine ⟨⟨hne, hopen, hnormal⟩, fun last hlast => hcomplete last ?_, htext⟩
    rwa [List.getLast?_cons_cons] at hlast
  | case5 source rest ih =>
    obtain ⟨hclose, hblank, hrest⟩ := h
    obtain ⟨hnormal, hcomplete, htext⟩ := ih hrest
    refine ⟨⟨hclose, hblank, hnormal⟩, fun last hlast => ?_, htext⟩
    cases rest with
    | nil => cases hlast
    | cons segment rest => exact hcomplete last (by rwa [List.getLast?_cons_cons] at hlast)

theorem Complete.rdropWhile_isLiteral (h : Complete segments) :
    segments.rdropWhile Segment.isLiteral = segments := by
  rcases List.eq_nil_or_concat segments with rfl | ⟨front, last, rfl⟩
  · rfl
  · rw [List.concat_eq_append] at h ⊢
    cases last with
    | literal text => exact absurd List.getLast?_concat (h text)
    | expression source => exact List.rdropWhile_concat_neg _ _ _ Bool.false_ne_true

end Normal

/-! ## What is written is read -/

section Reading

variable {segments : List Segment}

/-- Complete segments are read, whatever comes after them. -/
theorem Normal.pieces_append (h : Normal segments) (hcomplete : Complete segments)
    (tail : List Char) (offset : Nat) :
    (⟨written segments ++ tail, offset⟩ : Cursor).pieces =
      placed offset segments ++
        (⟨tail, offset + byteLength (written segments)⟩ : Cursor).pieces := by
  induction segments using Normal.induct generalizing offset with
  | case1 => simp
  | case2 text => exact absurd rfl (hcomplete text)
  | case4 => exact h.elim
  | case3 text source rest ih =>
    obtain ⟨hne, hopen, hrest⟩ := h
    have hclose : '}' ∉ source := hrest.1
    have hcut : braced? (written (.literal text :: .expression source :: rest) ++ tail) =
        some ⟨text, source, written rest ++ tail⟩ :=
      braced?_eq_some_iff.2 ⟨by simp [Braced.text, Segment.text], hopen, hclose⟩
    have hafter : '{' :: (source ++ '}' :: (written rest ++ tail)) =
        written (.expression source :: rest) ++ tail := by simp [Segment.text]
    rw [Cursor.pieces_of_next? (Cursor.next?_of_literal hcut hrest.2.1 hne offset), hafter,
      ih hrest hcomplete.of_literal_cons]
    simp [placed, Segment.piece, Segment.text, Nat.add_assoc]
  | case5 source rest ih =>
    obtain ⟨hclose, hblank, hrest⟩ := h
    have hcut : braced? (written (.expression source :: rest) ++ tail) =
        some ⟨[], source, written rest ++ tail⟩ :=
      braced?_eq_some_iff.2 ⟨by simp [Braced.text, Segment.text], List.not_mem_nil, hclose⟩
    rw [Cursor.pieces_of_expression hcut hblank rfl, ih hrest hcomplete.of_expression_cons]
    simp only [placed, Segment.piece, written_cons, byteLength_append,
      byteLength_text_expression, Nat.add_assoc, List.cons_append]

/-- The segments are read again. -/
theorem Normal.pieces_eq (h : Normal segments) (offset : Nat) :
    (⟨written segments, offset⟩ : Cursor).pieces = placed offset segments := by
  rcases complete_or_concat segments with hcomplete | ⟨front, text, rfl⟩
  · simpa using h.pieces_append hcomplete [] offset
  · obtain ⟨hfront, hcomplete, hne, hclose⟩ := h.of_concat_literal
    rw [written_append, hfront.pieces_append hcomplete, placed_append]
    have hunbraced : braced? text = none := braced?_eq_none_iff.2 hclose
    simp [Segment.text, Cursor.pieces_of_unbraced hunbraced hne, placed, Segment.piece]

/-- A blank expression after the segments is an error, and a literal before it is not
read. -/
theorem Normal.pieces_blank (h : Normal segments)
    (hopen : ∀ text, segments.getLast? = some (.literal text) → '{' ∉ text)
    {blanks : List Char} (hblank : allBlank blanks = true) (after : List Char) (offset : Nat) :
    (⟨written segments ++ '{' :: (blanks ++ '}' :: after), offset⟩ : Cursor).pieces =
      placed offset (segments.rdropWhile Segment.isLiteral) ++
        [.blank (offset + byteLength (written segments))] := by
  have hclose : '}' ∉ blanks := notMem_of_allBlank hblank rfl
  rcases complete_or_concat segments with hcomplete | ⟨front, text, rfl⟩
  · have hcut : braced? ('{' :: (blanks ++ '}' :: after)) = some ⟨[], blanks, after⟩ :=
      braced?_eq_some_iff.2 ⟨rfl, List.not_mem_nil, hclose⟩
    rw [h.pieces_append hcomplete, Cursor.pieces_of_blank hcut hblank,
      hcomplete.rdropWhile_isLiteral]
    simp
  · obtain ⟨hfront, hcomplete, -, -⟩ := h.of_concat_literal
    have hcut : braced? (text ++ '{' :: (blanks ++ '}' :: after)) = some ⟨text, blanks, after⟩ :=
      braced?_eq_some_iff.2 ⟨rfl, hopen text List.getLast?_concat, hclose⟩
    have hwritten : written (front ++ [.literal text]) = written front ++ text := by
      simp [Segment.text]
    rw [hwritten, List.append_assoc, hfront.pieces_append hcomplete,
      Cursor.pieces_of_blank hcut hblank, List.rdropWhile_concat_pos _ _ _ rfl,
      hcomplete.rdropWhile_isLiteral, byteLength_append, Nat.add_assoc]

end Reading

/-! ## What is read was written -/

/-- The text before an expression as a segment, if there is any. -/
def leading (before : List Char) : List Segment := if before = [] then [] else [.literal before]

@[simp] theorem written_leading (before : List Char) : written (leading before) = before := by
  unfold leading
  split
  · next h => rw [h, written_nil]
  · simp [Segment.text]

theorem Normal.leading_append {before inside : List Char} {rest : List Segment}
    (h : Normal rest) (hopen : '{' ∉ before) (hclose : '}' ∉ inside)
    (hblank : allBlank inside = false) :
    Normal (leading before ++ .expression inside :: rest) := by
  unfold leading
  split
  · exact ⟨hclose, hblank, h⟩
  · next hne => exact ⟨hne, hopen, hclose, hblank, h⟩

theorem Complete.append {rest : List Segment} (h : Complete rest) {front : List Segment}
    (hfront : Complete front) : Complete (front ++ rest) := by
  intro text hlast
  rw [List.getLast?_append] at hlast
  cases hrest : rest.getLast? with
  | none => exact hfront text (by simpa [hrest] using hlast)
  | some last => exact h text (by simpa [hrest] using hlast)

/-- What a cursor reads is these segments. Either they are all of its text, or they are
complete, and a blank expression comes next after them and text without an opening brace. -/
def Cursor.ReadsAs (c : Cursor) (segments : List Segment) : Prop :=
  c.pieces = placed c.offset segments ∧ written segments = c.rest ∨
    Complete segments ∧ ∃ before blanks after,
      c.rest = written segments ++ before ++ '{' :: (blanks ++ '}' :: after) ∧
      '{' ∉ before ∧ allBlank blanks = true ∧
      c.pieces =
        placed c.offset segments ++ [.blank (c.offset + byteLength (written segments ++ before))]

/-- Complete segments come before what is read of the text after them. -/
theorem Cursor.ReadsAs.append {first segments : List Segment} {rest : List Char} {offset : Nat}
    (h : Cursor.ReadsAs ⟨rest, offset + byteLength (written first)⟩ segments)
    (hfirst : Normal first) (hcomplete : Complete first) :
    Cursor.ReadsAs ⟨written first ++ rest, offset⟩ (first ++ segments) := by
  have hpieces := hfirst.pieces_append hcomplete rest offset
  rcases h with ⟨hplaced, hwritten⟩ |
    ⟨hall, before, blanks, after, hafter, hbefore, hblanks, hplaced⟩
  · refine .inl ⟨?_, ?_⟩
    · rw [hpieces, hplaced, placed_append]
    · rw [written_append, hwritten]
  · refine .inr ⟨hall.append hcomplete, before, blanks, after, ?_, hbefore, hblanks, ?_⟩
    · have hrest : rest = written segments ++ before ++ '{' :: (blanks ++ '}' :: after) := hafter
      simp [hrest]
    · rw [hpieces, hplaced, placed_append, written_append]
      simp [Nat.add_assoc]

/-- Every text is read as segments in normal form. -/
theorem Cursor.exists_readsAs (cs : List Char) (offset : Nat) :
    ∃ segments, Normal segments ∧ Cursor.ReadsAs ⟨cs, offset⟩ segments := by
  induction hn : cs.length using Nat.strong_induction_on generalizing cs offset with
  | _ n ih =>
  cases hcut : braced? cs with
  | none =>
    by_cases hne : cs = []
    · subst hne
      exact ⟨[], trivial, .inl ⟨Cursor.pieces_nil offset, rfl⟩⟩
    · refine ⟨[.literal cs], ⟨hne, braced?_eq_none_iff.1 hcut⟩, .inl ⟨?_, by simp [Segment.text]⟩⟩
      rw [pieces_of_unbraced hcut hne]
      rfl
  | some b =>
    obtain ⟨htext, hopen, hclose⟩ := braced?_eq_some_iff.1 hcut
    cases hblank : allBlank b.inside with
    | true =>
      refine ⟨[], trivial, .inr ⟨complete_nil, b.before, b.inside, b.after, htext.symm, hopen,
        hblank, ?_⟩⟩
      rw [pieces_of_blank hcut hblank]
      rfl
    | false =>
      -- The first segments are read as such, and the rest of the text is shorter.
      obtain ⟨first, hdef⟩ : ∃ first, first = leading b.before ++ [.expression b.inside] := ⟨_, rfl⟩
      have hfirst {rest : List Segment} (h : Normal rest) : Normal (first ++ rest) := by
        rw [hdef, List.append_assoc]
        exact h.leading_append hopen hclose hblank
      have hcomplete : Complete first := by
        rw [hdef]
        exact complete_concat_expression _ _
      have hcs : cs = written first ++ b.after := by
        rw [← htext, hdef]
        simp [Braced.text, Segment.text]
      have hshorter : b.after.length < n := by
        rw [← hn, hcs, hdef]
        simp only [written_append, written_leading, written_cons, Segment.text,
          List.length_append, List.length_cons]
        omega
      obtain ⟨rest, hrest, hread⟩ :=
        ih b.after.length hshorter b.after (offset + byteLength (written first)) rfl
      have halone : Normal first := by
        rw [← List.append_nil first]
        exact hfirst trivial
      refine ⟨first ++ rest, hfirst hrest, ?_⟩
      rw [hcs]
      exact hread.append halone hcomplete

/-- **Reading is sound.** A template gives finitely many pieces and then nothing any
more. They are the pieces of segments in normal form, at their offsets. Either the
template is what is written from these segments; or they are complete, after them and
some text without an opening brace there is an expression of blanks, and the last piece
is the error at the opening brace of that expression. -/
theorem pieces_sound (template : String) :
    (∀ n, (Cursor.start template).item? n = (pieces template)[n]?) ∧
      ∃ segments, Normal segments ∧
        (pieces template = placed 0 segments ∧ written segments = template.toList ∨
          Complete segments ∧ ∃ before blanks after,
            template.toList = written segments ++ before ++ '{' :: (blanks ++ '}' :: after) ∧
            '{' ∉ before ∧ allBlank blanks = true ∧
            pieces template =
              placed 0 segments ++ [.blank (byteLength (written segments ++ before))]) := by
  refine ⟨fun n => Cursor.item?_eq n _, ?_⟩
  obtain ⟨segments, hnormal, hread⟩ := Cursor.exists_readsAs template.toList 0
  simp only [Cursor.ReadsAs, Nat.zero_add] at hread
  exact ⟨segments, hnormal, hread⟩

example : pieces "ä{ö}ü" = placed 0 [.literal ['ä'], .expression ['ö'], .literal ['ü']] := by
  decide +kernel

/-! ## Matches -/

/-- The text has a match there: an opening brace, characters that are no closing braces,
and a closing brace. -/
def Braced.IsMatch (b : Braced) (cs : List Char) : Prop := b.text = cs ∧ '}' ∉ b.inside

/-- The matches in a text from left to right: the leftmost one, and those of the text
after it. Each is given by its offset and by what is between its braces. -/
inductive Matches : Nat → List Char → List (Nat × List Char) → Prop where
  | nil {offset : Nat} {cs : List Char} (h : ∀ b : Braced, ¬ b.IsMatch cs) : Matches offset cs []
  | cons {offset : Nat} {cs : List Char} {b : Braced} {found : List (Nat × List Char)}
      (h : b.IsMatch cs)
      (leftmost : ∀ b' : Braced, b'.IsMatch cs → b.before.length ≤ b'.before.length)
      (rest : Matches (offset + byteLength b.before + byteLength b.inside + 2) b.after found) :
      Matches offset cs ((offset + byteLength b.before, b.inside) :: found)

namespace Piece

def isLiteral : Piece → Bool
  | literal _ => true
  | _ => false

@[simp] theorem isLiteral_literal (text : String) : (literal text).isLiteral = true := rfl

@[simp] theorem isLiteral_expression (source : String) (offset : Nat) :
    (expression source offset).isLiteral = false := rfl

@[simp] theorem isLiteral_blank (offset : Nat) : (blank offset).isLiteral = false := rfl

end Piece

/-- Matches as expressions, up to the first blank one. -/
def marked : List (Nat × List Char) → List Piece
  | [] => []
  | (offset, inside) :: rest =>
    if allBlank inside then [.blank offset]
    else .expression (String.ofList inside) offset :: marked rest

theorem isMatch_of_braced? {cs : List Char} {b : Braced} (h : braced? cs = some b) :
    b.IsMatch cs :=
  ⟨(braced?_eq_some_iff.1 h).1, (braced?_eq_some_iff.1 h).2.2⟩

/-- The cut at the first pair of braces is the leftmost match. -/
theorem length_before_le_of_braced? {cs : List Char} {b b' : Braced} (h : braced? cs = some b)
    (h' : b'.IsMatch cs) : b.before.length ≤ b'.before.length := by
  obtain ⟨htext, hopen, -⟩ := braced?_eq_some_iff.1 h
  by_contra hless
  have hbrace : cs[b'.before.length]? = some '{' := by
    rw [← h'.1, Braced.text, List.getElem?_append_right (Nat.le_refl _), Nat.sub_self]
    rfl
  rw [← htext, Braced.text, List.getElem?_append_left (Nat.lt_of_not_le hless)] at hbrace
  exact hopen (List.mem_of_getElem? hbrace)

theorem braced?_eq_none_iff_isMatch {cs : List Char} :
    braced? cs = none ↔ ∀ b : Braced, ¬ b.IsMatch cs := by
  constructor
  · intro h b hb
    -- Behind the first opening brace there is at least the closing one of `b`.
    have hclose := braced?_eq_none_iff.1 h
    have hopen : '{' ∈ b.before ++ '{' :: b.inside := by simp
    have hsplit : cs = (b.before ++ '{' :: b.inside) ++ '}' :: b.after := by
      rw [← hb.1]
      simp [Braced.text]
    rw [hsplit, List.dropWhile_append, if_neg] at hclose
    · simp at hclose
    · rw [List.isEmpty_iff, dropWhile_ne_eq_nil_iff, not_not]
      exact hopen
  · intro h
    cases hcut : braced? cs with
    | none => rfl
    | some b => exact absurd (isMatch_of_braced? hcut) (h b)

/-- There is but one leftmost match. -/
theorem braced?_of_leftmost {cs : List Char} {b : Braced} (h : b.IsMatch cs)
    (leftmost : ∀ b' : Braced, b'.IsMatch cs → b.before.length ≤ b'.before.length) :
    braced? cs = some b := by
  cases hcut : braced? cs with
  | none => exact absurd h (braced?_eq_none_iff_isMatch.1 hcut b)
  | some b' =>
    have hlength : b.before.length = b'.before.length :=
      Nat.le_antisymm (leftmost b' (isMatch_of_braced? hcut)) (length_before_le_of_braced? hcut h)
    have htext : b.before ++ '{' :: (b.inside ++ '}' :: b.after) =
        b'.before ++ '{' :: (b'.inside ++ '}' :: b'.after) :=
      h.1.trans (isMatch_of_braced? hcut).1.symm
    obtain ⟨hbefore, hrest⟩ := List.append_inj htext hlength
    have hopen : '{' ∉ b.before := hbefore ▸ (braced?_eq_some_iff.1 hcut).2.1
    rw [← hcut]
    exact braced?_eq_some_iff.2 ⟨h.1, hopen, h.2⟩

theorem exists_matches (cs : List Char) (offset : Nat) : ∃ found, Matches offset cs found := by
  induction hn : cs.length using Nat.strong_induction_on generalizing cs offset with
  | _ n ih =>
  cases hcut : braced? cs with
  | none => exact ⟨[], .nil (braced?_eq_none_iff_isMatch.1 hcut)⟩
  | some b =>
    have hshorter : b.after.length < n := by
      rw [← hn, ← braced?_text hcut]
      simp only [Braced.text, List.length_append, List.length_cons]
      omega
    obtain ⟨found, hfound⟩ := ih b.after.length hshorter b.after
      (offset + byteLength b.before + byteLength b.inside + 2) rfl
    exact ⟨_, .cons (isMatch_of_braced? hcut) (fun _ => length_before_le_of_braced? hcut) hfound⟩

/-- The expressions that are read are the matches, up to the first blank one. -/
theorem Matches.filter_pieces {offset : Nat} {cs : List Char} {found : List (Nat × List Char)}
    (h : Matches offset cs found) :
    (⟨cs, offset⟩ : Cursor).pieces.filter (!·.isLiteral) = marked found := by
  induction h with
  | @nil offset cs hnone =>
    have hunbraced := braced?_eq_none_iff_isMatch.2 hnone
    by_cases hne : cs = []
    · simp [hne, marked]
    · simp [Cursor.pieces_of_unbraced hunbraced hne, marked]
  | @cons offset cs b found hmatch leftmost rest ih =>
    have hcut := braced?_of_leftmost hmatch leftmost
    cases hblank : allBlank b.inside with
    | true => simp [Cursor.pieces_of_blank hcut hblank, marked, hblank]
    | false =>
      by_cases hbefore : b.before = []
      · rw [Cursor.pieces_of_expression hcut hblank hbefore]
        simp only [hbefore, byteLength_nil, Nat.add_zero] at ih
        simp [marked, hblank, hbefore, ih]
      · rw [Cursor.pieces_of_literal hcut hblank hbefore]
        simp [marked, hblank, ih]

/-! ## Reading is complete -/

/-- **Reading is complete.** What is written from segments in normal form is read as
these segments, each expression at the offset where it was written. If a blank
expression follows, it is the last thing that is read, at its own offset; a literal just
before it is dropped. So the expressions of any template are its matches from left to
right, up to the first blank one. -/
theorem pieces_written {segments : List Segment} (h : Normal segments) :
    pieces (String.ofList (written segments)) = placed 0 segments ∧
      (∀ blanks after, (∀ text, segments.getLast? = some (.literal text) → '{' ∉ text) →
        allBlank blanks = true →
        pieces (String.ofList (written segments ++ '{' :: (blanks ++ '}' :: after))) =
          placed 0 (segments.rdropWhile Segment.isLiteral) ++
            [.blank (byteLength (written segments))]) ∧
      ∀ template : String, (∃ found, Matches 0 template.toList found) ∧
        ∀ found, Matches 0 template.toList found →
          (pieces template).filter (!·.isLiteral) = marked found := by
  refine ⟨?_, fun blanks after hopen hblank => ?_, fun template => ⟨exists_matches _ 0, ?_⟩⟩
  · rw [pieces, Cursor.start, String.toList_ofList]
    exact h.pieces_eq 0
  · rw [pieces, Cursor.start, String.toList_ofList, h.pieces_blank hopen hblank, Nat.zero_add]
  · exact fun found hfound => hfound.filter_pieces

/-- Adjacent expressions, braces within and outside of them, and text of several bytes. -/
theorem pieces_written_nested :
    let segments : List Segment := [.expression ['a', '{'], .expression [' ', 'ö'],
      .literal ['}', 'ü']]
    Normal segments ∧ String.ofList (written segments) = "\x7ba\x7b\x7d\x7b ö\x7d\x7dü" ∧
      pieces "\x7ba\x7b\x7d\x7b ö\x7d\x7dü" =
        [.expression "a\x7b" 0, .expression " ö" 4, .literal "\x7dü"] ∧
      pieces "\x7ba\x7b\x7d\x7b ö\x7d\x7dü\x7b\t\x7d\x7bx\x7d" =
        [.expression "a\x7b" 0, .expression " ö" 4, .blank 12] := by
  intro segments
  have hnormal : Normal segments := by decide
  obtain ⟨hread, hblank, -⟩ := pieces_written hnormal
  have hopen : ∀ text, segments.getLast? = some (.literal text) → '{' ∉ text := by
    intro text hlast
    cases hlast
    decide
  exact ⟨hnormal, by decide, hread, hblank ['\t'] ['{', 'x', '}'] hopen rfl⟩

end Breakpoints.Template

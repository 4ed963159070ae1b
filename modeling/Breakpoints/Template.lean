import Breakpoints.Text.Blank

/-!
# Log message templates

A template is literal text with expressions in braces. An expression ends at the
first closing brace, so `{a{b}` holds the expression `a{b`; a closing brace
outside of an expression is literal, and so is an opening brace that is never
closed. `Cursor.next?` reads one piece and leaves a shorter rest
(`length_next?_lt`), so `pieces` lists them all.
-/

namespace Breakpoints.Template

/-- The number of bytes of a text in UTF-8. -/
def byteLength : List Char → Nat
  | [] => 0
  | c :: cs => c.utf8Size + byteLength cs

@[simp] theorem byteLength_nil : byteLength [] = 0 := rfl

@[simp] theorem byteLength_cons (c : Char) (cs : List Char) :
    byteLength (c :: cs) = c.utf8Size + byteLength cs := rfl

@[simp] theorem byteLength_append (cs ds : List Char) :
    byteLength (cs ++ ds) = byteLength cs + byteLength ds := by
  induction cs with
  | nil => simp
  | cons c cs ih => simp [ih, Nat.add_assoc]

/-- A text cut at its first pair of braces: what comes before it, what the braces
hold, and what follows. -/
structure Braced where
  before : List Char
  inside : List Char
  after : List Char
  deriving DecidableEq, Repr

/-- Cuts at the first opening brace and at the first closing brace after it. -/
def braced? (cs : List Char) : Option Braced :=
  match cs.dropWhile (· != '{') with
  | [] => none
  | _ :: inner =>
    match inner.dropWhile (· != '}') with
    | [] => none
    | _ :: after => some ⟨cs.takeWhile (· != '{'), inner.takeWhile (· != '}'), after⟩

/-- The text that a cut came from. -/
def Braced.text (b : Braced) : List Char := b.before ++ '{' :: (b.inside ++ '}' :: b.after)

theorem dropWhile_ne_eq_cons {cs rest : List Char} {c d : Char}
    (h : cs.dropWhile (· != c) = d :: rest) : d = c ∧ cs = cs.takeWhile (· != c) ++ c :: rest := by
  have hd := List.head?_dropWhile_not (· != c) cs
  rw [h] at hd
  have hdc : d = c := by simpa using hd
  refine ⟨hdc, ?_⟩
  rw [← hdc, ← h, hdc, List.takeWhile_append_dropWhile]

theorem braced?_text {cs : List Char} {b : Braced} (h : braced? cs = some b) : b.text = cs := by
  unfold braced? at h
  split at h
  · cases h
  · next _ inner hopen =>
    split at h
    · cases h
    · next _ after hclose =>
      cases h
      rw [Braced.text, ← (dropWhile_ne_eq_cons hclose).2]
      exact (dropWhile_ne_eq_cons hopen).2.symm

/-- A piece of a template. Offsets count the bytes before the opening brace. -/
inductive Piece where
  | literal (text : String)
  | expression (source : String) (offset : Nat)
  /-- An expression of blanks only, which is an error and ends the template. -/
  | blank (offset : Nat)
  deriving DecidableEq, Repr

/-- What is left to read, and the offset at which it starts. -/
structure Cursor where
  rest : List Char
  offset : Nat
  deriving DecidableEq, Repr

namespace Cursor

def start (template : String) : Cursor := ⟨template.toList, 0⟩

/-- The next piece. The text before an expression is a piece of its own, unless
the expression turns out to be blank. -/
def next? (c : Cursor) : Option (Piece × Cursor) :=
  if c.rest = [] then none
  else match braced? c.rest with
    | none => some (.literal (String.ofList c.rest), ⟨[], c.offset + byteLength c.rest⟩)
    | some b =>
      let opening := c.offset + byteLength b.before
      if Text.allBlank b.inside then
        some (.blank opening, ⟨[], c.offset + byteLength c.rest⟩)
      else if b.before = [] then
        some (.expression (String.ofList b.inside) opening,
          ⟨b.after, opening + byteLength b.inside + 2⟩)
      else some (.literal (String.ofList b.before), ⟨'{' :: (b.inside ++ '}' :: b.after), opening⟩)

theorem length_next?_lt {c c' : Cursor} {p : Piece} (h : c.next? = some (p, c')) :
    c'.rest.length < c.rest.length := by
  unfold next? at h
  split at h
  · cases h
  · next hne =>
    have hpos := List.length_pos_iff.2 hne
    split at h
    · cases h
      simpa using hpos
    · next b hb =>
      have hlen : b.before.length + (b.inside.length + b.after.length + 2) = c.rest.length := by
        rw [← braced?_text hb, Braced.text]
        simp only [List.length_append, List.length_cons]
        omega
      dsimp only at h
      split at h
      · cases h
        simpa using hpos
      · split at h
        · cases h
          dsimp only
          omega
        · next hbefore =>
          have := List.length_pos_iff.2 hbefore
          cases h
          simp only [List.length_append, List.length_cons]
          omega

/-- All pieces from here on. -/
def pieces (c : Cursor) : List Piece :=
  match _ : c.next? with
  | none => []
  | some (p, c') => p :: c'.pieces
termination_by c.rest.length
decreasing_by exact length_next?_lt ‹_›

end Cursor

def pieces (template : String) : List Piece := (Cursor.start template).pieces

end Breakpoints.Template

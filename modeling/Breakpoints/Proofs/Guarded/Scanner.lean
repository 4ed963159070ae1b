import Breakpoints.Proofs.Guarded.Program
import Breakpoints.Proofs.Template.Pieces
import Breakpoints.Template.Rendering

/-!
# Scanning a template by positions

A scanner keeps no more of a template than the position that it has come to, in bytes, and
a piece that it found in advance. Every sum of positions is checked against the length of
the template, and a text is cut only where a character starts. A scanner whose position is
where a cursor's rest starts gives the same piece as the cursor, and goes on like it
(`Scanner.Reads.next?`). So no check fails, and as each piece takes the scanner further, a
template can be rendered while it is scanned (`Scanner.weight_next?_lt`).
-/

namespace Breakpoints.Template

open Text (allBlank)

/-! ## Positions in a text -/

/-- The text from a position on. -/
def dropBytes : List Char → Nat → Except Panic (List Char)
  | cs, 0 => .ok cs
  | [], n + 1 => .error (.outOfRange (n + 1))
  | c :: cs, n + 1 =>
    if c.utf8Size ≤ n + 1 then dropBytes cs (n + 1 - c.utf8Size) else .error (.outOfRange (n + 1))

/-- The text up to a position. -/
def takeBytes : List Char → Nat → Except Panic (List Char)
  | _, 0 => .ok []
  | [], n + 1 => .error (.outOfRange (n + 1))
  | c :: cs, n + 1 =>
    if c.utf8Size ≤ n + 1 then (takeBytes cs (n + 1 - c.utf8Size)).map (c :: ·)
    else .error (.outOfRange (n + 1))

/-- The text between two positions. -/
def slice (cs : List Char) (start stop : Nat) : Except Panic (List Char) := do
  if start ≤ stop then takeBytes (← dropBytes cs start) (stop - start)
  else throw (.outOfRange start)

/-- Where a character occurs first. -/
def position? (c : Char) (cs : List Char) : Option Nat :=
  if c ∈ cs then some (byteLength (cs.takeWhile (· != c))) else none

/-- A template, how far it was read, and a piece that was found in advance. -/
structure Scanner where
  template : List Char
  position : Nat
  pending : Option Piece

namespace Scanner

def start (template : String) : Scanner := ⟨template.toList, 0, none⟩

/-- The next piece. An expression with text before it is kept for the next time. -/
def next? (s : Scanner) : Except Panic (Option (Piece × Scanner)) :=
  match s.pending with
  | some piece => .ok (some (piece, { s with pending := none }))
  | none => do
    let rest ← dropBytes s.template s.position
    if rest = [] then return none
    let limit := byteLength s.template
    let atEnd := { s with position := limit }
    match position? '{' rest with
    | none => return some (.literal (String.ofList rest), atEnd)
    | some opening =>
      let offset ← checkedSum limit s.position opening
      let start ← checkedSum limit opening 1
      match position? '}' (← dropBytes rest start) with
      | none => return some (.literal (String.ofList rest), atEnd)
      | some length =>
        let source ← slice rest start (← checkedSum limit start length)
        let position ← checkedSum limit (← checkedSum limit offset length) 2
        if allBlank source then return some (.blank offset, atEnd)
        let expression := Piece.expression (String.ofList source) offset
        if opening = 0 then return some (expression, { s with position })
        let before ← takeBytes rest opening
        return some (.literal (String.ofList before), { s with position, pending := expression })

/-- Decreases with every piece. -/
def weight (s : Scanner) : Nat :=
  2 * (byteLength s.template - s.position) + if s.pending.isSome then 1 else 0

end Scanner

variable {cs ds : List Char} {c : Char}

/-- The first character of a text takes some of its bytes, and the others the rest. -/
theorem exists_byteLength_cons (c : Char) (cs : List Char) :
    ∃ n, byteLength (c :: cs) = n + 1 ∧ c.utf8Size ≤ n + 1 ∧
      n + 1 - c.utf8Size = byteLength cs := by
  have hpos := c.utf8Size_pos
  refine ⟨c.utf8Size - 1 + byteLength cs, ?_, ?_, ?_⟩
  · rw [byteLength_cons]
    omega
  · omega
  · omega

theorem dropBytes_append (cs ds : List Char) : dropBytes (cs ++ ds) (byteLength cs) = .ok ds := by
  induction cs with
  | nil => cases ds <;> rfl
  | cons c cs ih =>
    obtain ⟨n, hn, hle, hrest⟩ := exists_byteLength_cons c cs
    rw [hn, List.cons_append, dropBytes, if_pos hle, hrest, ih]

theorem takeBytes_append (cs ds : List Char) : takeBytes (cs ++ ds) (byteLength cs) = .ok cs := by
  induction cs with
  | nil => cases ds <;> rfl
  | cons c cs ih =>
    obtain ⟨n, hn, hle, hrest⟩ := exists_byteLength_cons c cs
    rw [hn, List.cons_append, takeBytes, if_pos hle, hrest, ih]
    rfl

theorem slice_append (xs ys zs : List Char) :
    slice (xs ++ (ys ++ zs)) (byteLength xs) (byteLength xs + byteLength ys) = .ok ys := by
  have hlength : byteLength xs + byteLength ys - byteLength xs = byteLength ys := by omega
  rw [slice, if_pos (Nat.le_add_right ..), dropBytes_append, hlength]
  exact takeBytes_append ys zs

theorem byteLength_eq_zero_iff : byteLength cs = 0 ↔ cs = [] := by
  cases cs with
  | nil => simp
  | cons c cs =>
    have hpos := c.utf8Size_pos
    simp only [byteLength_cons, List.cons_ne_nil, iff_false]
    omega

/-- There is something from a position on only if it is before the end. -/
theorem lt_byteLength_of_dropBytes {n : Nat} (h : dropBytes cs n = .ok ds) (hne : ds ≠ []) :
    n < byteLength cs := by
  induction cs generalizing n with
  | nil =>
    cases n with
    | zero =>
      cases h
      exact absurd rfl hne
    | succ n => cases h
  | cons c cs ih =>
    have hpos := c.utf8Size_pos
    cases n with
    | zero =>
      rw [byteLength_cons]
      omega
    | succ n =>
      rw [dropBytes] at h
      split at h
      · have hrest := ih h
        rw [byteLength_cons]
        omega
      · cases h

theorem position?_of_notMem (h : c ∉ cs) : position? c cs = none := if_neg h

theorem position?_append (h : c ∉ cs) (ds : List Char) :
    position? c (cs ++ c :: ds) = some (byteLength cs) := by
  have hmem : c ∈ cs ++ c :: ds := List.mem_append_right _ List.mem_cons_self
  rw [position?, if_pos hmem, takeWhile_ne_append h]

/-- A computation that goes well goes well at every step. -/
theorem exists_of_bind_eq_ok {α β : Type} {x : Except Panic α} {f : α → Except Panic β} {b : β}
    (h : (x >>= f) = .ok b) : ∃ a, x = .ok a ∧ f a = .ok b := by
  cases x with
  | error => cases h
  | ok a => exact ⟨a, rfl, h⟩

namespace Scanner

/-- Every piece takes a scanner further, or is the one that it had found in advance. -/
theorem weight_next?_lt {s s' : Scanner} {piece : Piece} (h : s.next? = .ok (some (piece, s'))) :
    s'.weight < s.weight := by
  obtain ⟨template, position, pending⟩ := s
  cases pending with
  | some => cases h; simp [weight]
  | none =>
    obtain ⟨rest, hrest, h⟩ := exists_of_bind_eq_ok h
    split at h
    · cases h
    · next hne =>
      have hlt : position < byteLength template := lt_byteLength_of_dropBytes hrest hne
      have hless {position' : Nat} {pending' : Option Piece} (hpos : position < position') :
          weight ⟨template, position', pending'⟩ < weight ⟨template, position, none⟩ := by
        cases pending' <;> simp [weight] <;> omega
      dsimp only at h
      split at h
      · cases h
        exact hless hlt
      · obtain ⟨offset, hoffset, h⟩ := exists_of_bind_eq_ok h
        obtain ⟨start, -, h⟩ := exists_of_bind_eq_ok h
        obtain ⟨inner, -, h⟩ := exists_of_bind_eq_ok h
        split at h
        · cases h
          exact hless hlt
        · obtain ⟨stop, -, h⟩ := exists_of_bind_eq_ok h
          obtain ⟨source, -, h⟩ := exists_of_bind_eq_ok h
          obtain ⟨closing, hclosing, h⟩ := exists_of_bind_eq_ok h
          obtain ⟨position', hposition, h⟩ := exists_of_bind_eq_ok h
          have hpos : position < position' := by
            rw [eq_of_checkedSum hposition, eq_of_checkedSum hclosing, eq_of_checkedSum hoffset]
            omega
          split at h
          · cases h
            exact hless hlt
          · split at h
            · cases h
              exact hless hpos
            · obtain ⟨before, -, h⟩ := exists_of_bind_eq_ok h
              cases h
              exact hless hpos

/-! ## Reading like a cursor -/

/-- The scanner has read up to where the rest of the cursor starts, or it has in advance what
the cursor gives next. -/
inductive Reads : Scanner → Cursor → Prop where
  | upTo (consumed rest : List Char) :
    Reads ⟨consumed ++ rest, byteLength consumed, none⟩ ⟨rest, byteLength consumed⟩
  | ahead {template : List Char} {position : Nat} {piece : Piece} {c c' : Cursor}
      (h : c.next? = some (piece, c')) (rest : Reads ⟨template, position, none⟩ c') :
    Reads ⟨template, position, some piece⟩ c

theorem reads_start (template : String) : (start template).Reads (Cursor.start template) :=
  .upTo [] template.toList

/-- Once everything was read. -/
theorem reads_atEnd (consumed rest : List Char) :
    Reads ⟨consumed ++ rest, byteLength (consumed ++ rest), none⟩
      ⟨[], byteLength consumed + byteLength rest⟩ := by
  have hend := Reads.upTo (consumed ++ rest) []
  rw [List.append_nil] at hend
  rwa [← byteLength_append]

variable (consumed : List Char) {rest : List Char} {b : Braced}

theorem dropBytes_opening (before inner : List Char) :
    dropBytes (before ++ '{' :: inner) (byteLength before + 1) = .ok inner := by
  have hdrop := dropBytes_append (before ++ ['{']) inner
  rwa [List.append_assoc, byteLength_append] at hdrop

theorem slice_inside (b : Braced) :
    slice b.text (byteLength b.before + 1) (byteLength b.before + 1 + byteLength b.inside) =
      .ok b.inside := by
  have hslice := slice_append (b.before ++ ['{']) b.inside ('}' :: b.after)
  rwa [List.append_assoc, byteLength_append] at hslice

/-- No braces are left that belong together, so the rest is one literal. -/
theorem next?_of_unbraced (hne : rest ≠ []) (h : braced? rest = none) :
    next? ⟨consumed ++ rest, byteLength consumed, none⟩ =
      .ok (some (.literal (String.ofList rest),
        ⟨consumed ++ rest, byteLength (consumed ++ rest), none⟩)) := by
  by_cases hopen : '{' ∈ rest
  · obtain ⟨before, inner, rfl, hbefore⟩ := List.eq_append_cons_of_mem hopen
    rw [braced?_eq_none_iff, dropWhile_ne_append hbefore] at h
    have hinner : '}' ∉ inner := fun hin => h (List.mem_cons_of_mem _ hin)
    have hlimit : byteLength consumed + (byteLength before + (1 + byteLength inner)) =
        byteLength (consumed ++ (before ++ '{' :: inner)) := by
      rw [byteLength_append, byteLength_append, byteLength_cons]
      rfl
    have hsum {x y : Nat} (hle : x + y ≤ byteLength (consumed ++ (before ++ '{' :: inner))) :
        checkedSum (byteLength (consumed ++ (before ++ '{' :: inner))) x y = .ok (x + y) :=
      checkedSum_eq hle
    have hoffset := hsum (x := byteLength consumed) (y := byteLength before) (by omega)
    have hstart := hsum (x := byteLength before) (y := 1) (by omega)
    simp only [next?, dropBytes_append, position?_append hbefore, hoffset, hstart,
      dropBytes_opening, position?_of_notMem hinner, bind, Except.bind, if_neg hne]
    rfl
  · simp only [next?, dropBytes_append, position?_of_notMem hopen, bind, Except.bind, if_neg hne]
    rfl

/-- The first pair of braces is found by its position. -/
theorem next?_of_braced (h : braced? rest = some b) :
    let offset := byteLength consumed + byteLength b.before
    let position := offset + byteLength b.inside + 2
    let expression := Piece.expression (String.ofList b.inside) offset
    next? ⟨consumed ++ rest, byteLength consumed, none⟩ =
      .ok (some (
        if allBlank b.inside then
          (.blank offset, ⟨consumed ++ rest, byteLength (consumed ++ rest), none⟩)
        else if b.before = [] then (expression, ⟨consumed ++ rest, position, none⟩)
        else (.literal (String.ofList b.before),
          ⟨consumed ++ rest, position, some expression⟩))) := by
  intro offset position expression
  obtain ⟨rfl, hbefore, hinside⟩ := braced?_eq_some_iff.1 h
  have hne : b.text ≠ [] := Cursor.ne_nil_of_braced? h
  have hlimit : byteLength (consumed ++ b.text) = byteLength consumed +
      (byteLength b.before + (1 + (byteLength b.inside + (1 + byteLength b.after)))) := by
    simp only [Braced.text, byteLength_append, byteLength_cons]
    rfl
  have hsum {x y : Nat} (hle : x + y ≤ byteLength (consumed ++ b.text)) :
      checkedSum (byteLength (consumed ++ b.text)) x y = .ok (x + y) := checkedSum_eq hle
  have hoffset := hsum (x := byteLength consumed) (y := byteLength b.before) (by omega)
  have hstart := hsum (x := byteLength b.before) (y := 1) (by omega)
  have hstop := hsum (x := byteLength b.before + 1) (y := byteLength b.inside) (by omega)
  have hclosing := hsum (x := byteLength consumed + byteLength b.before)
    (y := byteLength b.inside) (by omega)
  have hposition := hsum (x := byteLength consumed + byteLength b.before + byteLength b.inside)
    (y := 2) (by omega)
  have hopen : position? '{' b.text = some (byteLength b.before) := position?_append hbefore _
  have hinner : dropBytes b.text (byteLength b.before + 1) = .ok (b.inside ++ '}' :: b.after) :=
    dropBytes_opening ..
  have htake : takeBytes b.text (byteLength b.before) = .ok b.before := takeBytes_append ..
  simp only [next?, dropBytes_append, if_neg hne, hopen, hoffset, hstart, hinner,
    position?_append hinside, hstop, slice_inside, hclosing, hposition, htake,
    byteLength_eq_zero_iff, bind, Except.bind, pure, Except.pure]
  cases allBlank b.inside with
  | true => rfl
  | false =>
    by_cases hempty : b.before = []
    · simp only [if_pos hempty]
      rfl
    · simp only [if_neg hempty]
      rfl

/-- Once everything was read but what follows the first pair of braces. -/
theorem reads_after_braces (h : braced? rest = some b) :
    let position := byteLength consumed + byteLength b.before + byteLength b.inside + 2
    Reads ⟨consumed ++ rest, position, none⟩ ⟨b.after, position⟩ := by
  intro position
  obtain ⟨rfl, -, -⟩ := braced?_eq_some_iff.1 h
  have hread := Reads.upTo (consumed ++ (b.before ++ '{' :: (b.inside ++ ['}']))) b.after
  have hopening : '{'.utf8Size = 1 := rfl
  have hclosing : '}'.utf8Size = 1 := rfl
  have hlength : byteLength (consumed ++ (b.before ++ '{' :: (b.inside ++ ['}']))) = position := by
    simp only [byteLength_append, byteLength_cons, byteLength_nil, position]
    omega
  rw [hlength] at hread
  simpa [Braced.text] using hread

/-- **A scanner gives what the cursor gives** whose rest starts where the scanner has read
to, and goes on like it. -/
theorem Reads.next? {s : Scanner} {c : Cursor} (h : s.Reads c) :
    (c.next? = none ∧ s.next? = .ok none) ∨ ∃ piece c' s', c.next? = some (piece, c') ∧
      s.next? = .ok (some (piece, s')) ∧ s'.Reads c' := by
  cases h with
  | ahead hnext rest => exact .inr ⟨_, _, _, hnext, rfl, rest⟩
  | upTo consumed rest =>
    by_cases hne : rest = []
    · refine .inl ⟨if_pos hne, ?_⟩
      simp only [Scanner.next?, dropBytes_append, bind, Except.bind, if_pos hne]
      rfl
    · cases hbraced : braced? rest with
      | none =>
        exact .inr ⟨_, _, _, Cursor.next?_of_unbraced hbraced hne _,
          next?_of_unbraced consumed hne hbraced, reads_atEnd consumed rest⟩
      | some b =>
        have hscan := next?_of_braced consumed hbraced
        obtain ⟨-, -, hinside⟩ := braced?_eq_some_iff.1 hbraced
        have hafter := reads_after_braces consumed hbraced
        cases hblank : allBlank b.inside with
        | true =>
          rw [hblank] at hscan
          exact .inr ⟨_, _, _, Cursor.next?_of_blank hbraced hblank _, hscan,
            reads_atEnd consumed rest⟩
        | false =>
          simp only [hblank, Bool.false_eq_true, if_false] at hscan
          by_cases hbefore : b.before = []
          · simp only [hbefore, if_true, byteLength_nil, Nat.add_zero] at hscan hafter
            exact .inr ⟨_, _, _, Cursor.next?_of_expression hbraced hblank hbefore _, hscan, hafter⟩
          · rw [if_neg hbefore] at hscan
            have hagain : braced? ('{' :: (b.inside ++ '}' :: b.after)) =
                some ⟨[], b.inside, b.after⟩ :=
              braced?_eq_some_iff.2 ⟨rfl, List.not_mem_nil, hinside⟩
            have hahead := Cursor.next?_of_expression hagain hblank rfl
              (byteLength consumed + byteLength b.before)
            exact .inr ⟨_, _, _, Cursor.next?_of_literal hbraced hblank hbefore _, hscan,
              .ahead hahead hafter⟩

end Scanner

end Breakpoints.Template

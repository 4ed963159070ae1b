import Breakpoints.Text.Ranges

/-!
# Blank characters and trimming

A character is blank if Unicode gives it the property White_Space: 25 code
points, among them the no-break space, not the zero-width space. `trim` takes
the blanks off both ends; `trim_eq_nil_iff` says that nothing is left exactly
of a text of blanks.
-/

namespace Breakpoints.Text

/-- The code points with the property White_Space. -/
def blankRanges : Ranges :=
  [(0x09, 0x0d), (0x20, 0x20), (0x85, 0x85), (0xa0, 0xa0), (0x1680, 0x1680), (0x2000, 0x200a),
    (0x2028, 0x2029), (0x202f, 0x202f), (0x205f, 0x205f), (0x3000, 0x3000)]

def isBlank (c : Char) : Bool := blankRanges.mem c

/-- The text without the blanks at its start. -/
def trimStart (cs : List Char) : List Char := cs.dropWhile isBlank

/-- The text without the blanks at its end. -/
def trimEnd (cs : List Char) : List Char := (cs.reverse.dropWhile isBlank).reverse

/-- The text without the blanks at either end. -/
def trim (cs : List Char) : List Char := trimEnd (trimStart cs)

/-- A text of blanks only; the empty text is one. -/
def allBlank (cs : List Char) : Bool := cs.all isBlank

@[simp] theorem trim_nil : trim [] = [] := rfl

theorem trimStart_eq_nil_iff {cs : List Char} : trimStart cs = [] ↔ allBlank cs = true := by
  induction cs with
  | nil => simp [trimStart, allBlank]
  | cons c cs ih =>
    cases h : isBlank c
    · simp [trimStart, allBlank, h]
    · simp only [trimStart, allBlank, List.dropWhile_cons, List.all_cons, h, if_true,
        Bool.true_and] at ih ⊢
      exact ih

theorem trimEnd_eq_nil_iff {cs : List Char} : trimEnd cs = [] ↔ allBlank cs = true := by
  have h := @trimStart_eq_nil_iff cs.reverse
  simp only [trimStart, allBlank, List.all_reverse] at h
  rw [trimEnd, List.reverse_eq_nil_iff, h, allBlank]

/-- What remains after dropping blanks at the start does not start with one. -/
theorem head_trimStart {cs rest : List Char} {c : Char} (h : trimStart cs = c :: rest) :
    isBlank c = false := by
  induction cs with
  | nil => simp [trimStart] at h
  | cons d cs ih =>
    cases hd : isBlank d
    · simp only [trimStart, List.dropWhile_cons, hd] at h
      cases h
      exact hd
    · simp only [trimStart, List.dropWhile_cons, hd, if_true] at h
      exact ih h

theorem trim_eq_nil_iff {cs : List Char} : trim cs = [] ↔ allBlank cs = true := by
  rw [trim, trimEnd_eq_nil_iff]
  cases h : trimStart cs with
  | nil => simp [trimStart_eq_nil_iff.1 h, show allBlank [] = true from rfl]
  | cons c rest =>
    have hc := head_trimStart h
    have hn : allBlank cs ≠ true := fun hb => by simp [trimStart_eq_nil_iff.2 hb] at h
    simp [allBlank, hc] at hn ⊢
    exact hn

end Breakpoints.Text

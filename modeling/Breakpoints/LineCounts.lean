/-!
# Counts per line

For every line, how many sources have a breakpoint there. Looking up a line costs
next to nothing, so most lines are let pass before any table is consulted. The
counts cover the lines from zero up to the highest one that was ever wanted since
the last reset.
-/

namespace Breakpoints

structure LineCounts where
  counts : Array Nat
  deriving DecidableEq, Repr

namespace LineCounts

def empty : LineCounts := ⟨#[]⟩

/-- The number of lines covered. -/
def size (c : LineCounts) : Nat := c.counts.size

/-- Lines that are not covered count zero. -/
def count (c : LineCounts) (line : Nat) : Nat := c.counts[line]?.getD 0

/-- Whether any source may have a breakpoint at the line. -/
def admits (c : LineCounts) (line : Nat) : Bool := 0 < c.count line

def allZero (c : LineCounts) : Bool := c.counts.all (· == 0)

/-- One more than the greatest number of lines that can be covered. -/
def sizeLimit : Nat := 0x10000000000000000

/-- Covers a line, if there is `room` for so many counts. Nothing changes if it
is covered already. -/
def cover? (room : Nat → Bool) (line : Nat) (c : LineCounts) : Option LineCounts :=
  if line < c.size then some c
  else if line + 1 < sizeLimit && room (line + 1) then
    some ⟨c.counts ++ Array.replicate (line + 1 - c.size) 0⟩
  else none

/-- One more source has a breakpoint at a covered line. -/
def increment (c : LineCounts) (line : Nat) : LineCounts := ⟨c.counts.modify line (· + 1)⟩

/-- One source less has a breakpoint at the line. -/
def decrement (c : LineCounts) (line : Nat) : LineCounts := ⟨c.counts.modify line (· - 1)⟩

@[simp] theorem count_empty (line : Nat) : empty.count line = 0 := rfl

theorem admits_iff {c : LineCounts} {line : Nat} : c.admits line = true ↔ 0 < c.count line := by
  simp [admits]

theorem count_eq_zero_of_size_le {c : LineCounts} {line : Nat} (h : c.size ≤ line) :
    c.count line = 0 := by
  simp [count, Array.getElem?_eq_none (show c.counts.size ≤ line from h)]

theorem count_cover? {room : Nat → Bool} {line : Nat} {c c' : LineCounts}
    (h : c.cover? room line = some c') (l : Nat) : c'.count l = c.count l := by
  unfold cover? at h
  split at h
  · cases h; rfl
  · split at h
    · cases h
      simp only [count, Array.getElem?_append]
      split
      · rfl
      · next hl =>
        rw [Array.getElem?_eq_none (Nat.le_of_not_lt hl), Array.getElem?_replicate]
        split <;> rfl
    · cases h

theorem size_cover? {room : Nat → Bool} {line : Nat} {c c' : LineCounts}
    (h : c.cover? room line = some c') : c'.size = max c.size (line + 1) := by
  unfold cover? at h
  split at h
  · cases h; omega
  · next hl =>
    split at h
    · cases h
      simp only [size, Array.size_append, Array.size_replicate] at hl ⊢
      omega
    · cases h

@[simp] theorem size_increment (c : LineCounts) (line : Nat) :
    (c.increment line).size = c.size := by
  simp [size, increment]

@[simp] theorem size_decrement (c : LineCounts) (line : Nat) :
    (c.decrement line).size = c.size := by
  simp [size, decrement]

theorem count_increment {c : LineCounts} {line : Nat} (h : line < c.size) (l : Nat) :
    (c.increment line).count l = if l = line then c.count l + 1 else c.count l := by
  simp only [count, increment, Array.getElem?_modify]
  by_cases hl : l = line
  · subst hl
    simp [Array.getElem?_eq_getElem h]
  · simp [hl, Ne.symm hl]

theorem count_decrement (c : LineCounts) (line l : Nat) :
    (c.decrement line).count l = if l = line then c.count l - 1 else c.count l := by
  simp only [count, decrement, Array.getElem?_modify]
  by_cases hl : l = line
  · subst hl
    cases c.counts[l]? <;> simp
  · simp [hl, Ne.symm hl]

theorem allZero_iff {c : LineCounts} : c.allZero = true ↔ ∀ line, c.count line = 0 := by
  simp only [allZero, Array.all_eq_true, beq_iff_eq, count]
  constructor
  · intro h line
    by_cases hl : line < c.counts.size
    · simp [Array.getElem?_eq_getElem hl, h line hl]
    · simp [Array.getElem?_eq_none (Nat.le_of_not_lt hl)]
  · intro h i hi
    simpa [Array.getElem?_eq_getElem hi] using h i

end LineCounts

end Breakpoints

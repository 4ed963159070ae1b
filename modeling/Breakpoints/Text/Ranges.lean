/-!
# Character classes as ranges

A class of characters is a list of code point intervals, both ends included.
`mem_iff` reads the test as membership in one of them.
-/

namespace Breakpoints.Text

/-- Code point intervals, both ends included. -/
abbrev Ranges := List (Nat × Nat)

/-- Whether some interval holds the character. -/
def Ranges.mem (ranges : Ranges) (c : Char) : Bool :=
  ranges.any fun r => r.1 ≤ c.toNat && c.toNat ≤ r.2

theorem Ranges.mem_iff {ranges : Ranges} {c : Char} :
    ranges.mem c = true ↔ ∃ r ∈ ranges, r.1 ≤ c.toNat ∧ c.toNat ≤ r.2 := by
  simp [Ranges.mem, List.any_eq_true]

end Breakpoints.Text

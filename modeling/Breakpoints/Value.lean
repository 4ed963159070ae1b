import Breakpoints.Binary64

/-!
# Guest values

The values that guest code hands back. Only the boolean `true` satisfies a
condition, whatever else the guest itself takes for true.
-/

namespace Breakpoints

inductive Value where
  | nil
  | boolean (b : Bool)
  | integer (n : Int)
  | number (x : Binary64)
  | text (s : String)
  /-- A value known only by the name of its type and its address. -/
  | reference (typeName : String) (address : Nat)
  deriving DecidableEq, Repr

namespace Value

/-- The guest's name for the type. Integers and other numbers share one. -/
def typeName : Value → String
  | nil => "nil"
  | boolean _ => "boolean"
  | integer _ | number _ => "number"
  | text _ => "string"
  | reference name _ => name

def isTrue : Value → Bool
  | boolean b => b
  | _ => false

/-- Equality of values. Numbers are compared as numbers, so a NaN does not equal
itself; an integer never equals a floating-point number. -/
def equal : Value → Value → Bool
  | number x, number y => x.equal y
  | a, b => a == b

theorem isTrue_iff {v : Value} : v.isTrue = true ↔ v = boolean true := by
  cases v <;> simp [isTrue]

theorem equal_comm (a b : Value) : a.equal b = b.equal a := by
  cases a <;> cases b <;> simp [equal, Binary64.equal_comm, BEq.comm]

/-- Away from floating-point numbers, values are equal only to themselves. -/
theorem equal_iff_of_ne_number {a b : Value} (h : ∀ x, a ≠ number x) :
    a.equal b = true ↔ a = b := by
  cases a <;> cases b <;> simp_all [equal]

end Value

end Breakpoints

import Breakpoints.Fault
import Breakpoints.Text.Alphanumeric
import Breakpoints.Text.Blank
import Breakpoints.Value

/-!
# Operands

The smallest expressions of the script language: an integer of 64 bits, `nil`,
`true`, `false`, a text in double quotes, or the name of a local. Blanks around
an operand do not count.
-/

namespace Breakpoints.Script

/-- The values of locals by name. -/
abbrev Locals := List (String × Value)

/-- The integers that a word of 64 bits holds. -/
def isInt64 (n : Int) : Bool := -0x8000000000000000 ≤ n && n < 0x8000000000000000

/-- A decimal numeral of an integer of 64 bits. -/
def integer? (cs : List Char) : Option Int := (Text.readInt cs).filter isInt64

/-- The words that are values of their own. -/
def keyword? (cs : List Char) : Option Value :=
  if cs = ['n', 'i', 'l'] then some .nil
  else if cs = ['t', 'r', 'u', 'e'] then some (.boolean true)
  else if cs = ['f', 'a', 'l', 's', 'e'] then some (.boolean false)
  else none

/-- What stands between a quote at the start and another one at the end. -/
def quoted? : List Char → Option (List Char)
  | '"' :: cs => if cs.getLast? = some '"' then some cs.dropLast else none
  | _ => none

/-- The value of a local; unknown ones are nil. -/
def localValue (locals : Locals) (name : String) : Value := (locals.lookup name).getD .nil

/-- The value of an operand that has no blanks around it. -/
def trimmedOperand (locals : Locals) (cs : List Char) : Except Fault Value :=
  match integer? cs with
  | some n => .ok (.integer n)
  | none =>
    match keyword? cs with
    | some value => .ok value
    | none =>
      match quoted? cs with
      | some text => .ok (.text (String.ofList text))
      | none =>
        if Text.isWord cs then .ok (localValue locals (String.ofList cs))
        else .error (.raised ("unexpected symbol near '" ++ String.ofList cs ++ "'"))

/-- The value of an operand. -/
def operand (locals : Locals) (cs : List Char) : Except Fault Value :=
  trimmedOperand locals (Text.trim cs)

theorem quoted?_quote (cs : List Char) : quoted? ('"' :: (cs ++ ['"'])) = some cs := by
  simp [quoted?]

end Breakpoints.Script

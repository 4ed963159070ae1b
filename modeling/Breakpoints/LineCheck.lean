import Breakpoints.Registry
import Breakpoints.Template.Rendering

/-!
# Checking a line

What happens when a line with a breakpoint is reached. The texts of the
breakpoint are those it has at that moment; the hit is counted on the breakpoint
that the table holds once the condition has been evaluated.
-/

namespace Breakpoints

namespace Dialogue

/-- Whether an expression holds: its first value has to be `true`. An expression
that fails does not hold. -/
def holds (expression : String) : Dialogue Bool :=
  evaluate (Template.script expression) fun
    | .ok values => done (values.head?.any Value.isTrue)
    | .error fault => note (.predicateFailed expression fault) (done false)

/-- Whether an expression holds, or there is none. -/
def holdsIfAny : Option String → Dialogue Bool
  | none => done true
  | some expression => holds expression

end Dialogue

namespace Breakpoint

open Dialogue (holds holdsIfAny)

/-- Prints the log message. A message that cannot be rendered is replaced by what
went wrong. -/
def printMessage (channel : Channel) (line : Nat) (template : String) : Dialogue Unit :=
  (Template.render template).bind fun
    | .ok text => .print channel text (.done ())
    | .error error =>
      .note (.messageFailed line error) (.print channel error.message (.done ()))

/-- The expression that compares a number of hits. -/
def hitExpression (hits : Nat) (hitCondition : String) : String :=
  Text.decimal hits ++ " " ++ hitCondition

/-- Goes on after the hit of that number: the hit condition, then the log message.
The answer is whether to pause. -/
def checkHit (channel : Channel) (line : Nat) (b : Breakpoint) (hits : Nat) : Dialogue Bool :=
  (holdsIfAny (b.hitCondition.map (hitExpression hits))).bind fun
    | false => .done false
    | true =>
      match b.logMessage with
      | none => .done true
      | some template => (printMessage channel line template).bind fun _ => .done false

/-- Checks a breakpoint whose line was reached: the condition, then the hit. The
answer is whether to pause. -/
def check (channel : Channel) (line : Nat) (b : Breakpoint) : Dialogue Bool :=
  (holdsIfAny b.condition).bind fun
    | false => .done false
    | true =>
      .hit fun
        | none => .note (.removedMeanwhile line) (.done false)
        | some hits => b.checkHit channel line hits

end Breakpoint

/-- Checks a line of a table. -/
def Table.check (channel : Channel) (line : Nat) (t : Table) : Dialogue Bool :=
  match t.get? line with
  | none => .done false
  | some b => b.check channel line

/-- Checks a line of a table unless no source has a breakpoint at that line. -/
def Registry.check (channel : Channel) (id : TableId) (line : Nat) (r : Registry) : Dialogue Bool :=
  if r.admits line then (r.tables.get id).check channel line else .done false

end Breakpoints

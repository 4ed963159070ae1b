import Breakpoints.Fault
import Breakpoints.Source

/-!
# Notices

What the debugger reports about its own work, for whoever looks for a mistake in
its setup.
-/

namespace Breakpoints

inductive Notice where
  | outOfRange (source : Source) (line : Nat)
  | added (source : Source) (line : Nat)
  | replaced (source : Source) (line : Nat)
  | sourceCleared (source : Source) (count : Nat)
  | allCleared
  | bindingsForgotten (count : Nat)
  | resolved (function : Nat) (source? : Option Source)
  | predicateFailed (expression : String) (fault : Fault)
  /-- The breakpoint at the line went away while its condition was evaluated. -/
  | removedMeanwhile (line : Nat)
  | messageFailed (line : Nat) (error : RenderError)
  deriving DecidableEq, Repr

namespace Notice

/-- How much detail a reader has to ask for to see a notice. -/
inductive Level where
  | debug
  | trace
  deriving DecidableEq, Repr

def level : Notice → Level
  | resolved .. | predicateFailed .. | removedMeanwhile .. => .trace
  | _ => .debug

/-- A source and a line in it. -/
def place (source : Source) (line : Nat) : String := source.label ++ ":" ++ Text.decimal line

def message : Notice → String
  | outOfRange source line =>
    "Ignored breakpoint at " ++ place source line ++ ", which is out of range."
  | added source line => "Added breakpoint at " ++ place source line ++ "."
  | replaced source line => "Replaced breakpoint at " ++ place source line ++ "."
  | sourceCleared source count =>
    "Removed " ++ Text.decimal count ++ " breakpoints from " ++ source.label ++ "."
  | allCleared => "Removed all breakpoints."
  | bindingsForgotten count => "Forgetting " ++ Text.decimal count ++ " function bindings."
  | resolved function source? =>
    "Resolved " ++ functionLabel function ++ " to "
      ++ (source?.map Source.label).getD "nothing" ++ "."
  | predicateFailed expression fault =>
    "Evaluating `" ++ expression ++ "` failed: " ++ fault.message
  | removedMeanwhile line =>
    "The breakpoint at line " ++ Text.decimal line ++ " was removed while evaluating its condition."
  | messageFailed line error =>
    "Log message at line " ++ Text.decimal line ++ " failed: " ++ error.message

end Notice

end Breakpoints

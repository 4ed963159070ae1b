import Breakpoints.Text.Numeral

/-!
# What can go wrong in guest code

A `Fault` is what the guest answers instead of values. A `RenderError` is what
keeps a log message from being written: a fault, or an expression of blanks in
the message itself.
-/

namespace Breakpoints

inductive Fault where
  /-- The guest raised an error and describes it itself. -/
  | raised (message : String)
  | noValue (expression : String)
  deriving DecidableEq, Repr

def Fault.message : Fault → String
  | raised message => message
  | noValue expression => "the expression `" ++ expression ++ "` produced no value"

inductive RenderError where
  /-- The offset is that of the opening brace, in bytes of UTF-8. -/
  | blankExpression (offset : Nat)
  | fault (f : Fault)
  deriving DecidableEq, Repr

def RenderError.message : RenderError → String
  | blankExpression offset =>
    "empty expression `\x7b\x7d` at offset " ++ Text.decimal offset ++ " in log message"
  | fault f => f.message

end Breakpoints

import Breakpoints.Channel
import Breakpoints.Notice
import Breakpoints.Tables
import Breakpoints.Value

/-!
# Events

Everything that can be seen of the debugger's work besides its answers, in the
order in which it happens.
-/

namespace Breakpoints

/-- What the host can be asked about the running function. -/
inductive Question where
  | line
  | function
  | epoch
  | chunk
  deriving DecidableEq, Repr

inductive Event where
  | asked (question : Question)
  /-- The path of a chunk was looked up by its description. -/
  | lookedUp (description : String)
  | evaluated (script : String)
  | displayed (value : Value)
  /-- The breakpoint at a line of a table was hit for the time of that number. -/
  | hit (table : TableId) (line hits : Nat)
  | printed (channel : Channel) (text : String)
  | noted (notice : Notice)
  deriving DecidableEq, Repr

end Breakpoints

import Breakpoints.Proofs.LineCheck.Altered
import Breakpoints.Proofs.Workbench.Isolation

/-!
# The protocol of a check in a session

What a check of a session goes through is a run with a guest that changes the tables: it
answers as in the turns that the check takes, and leaves the tables as they are at the
beginning of the turn (`playback`). So what holds of such runs holds of every check of
every session, whatever else is done in between (`check_played_back`).
-/

namespace Breakpoints

open Dialogue (Scene Guest Waiting)

namespace Session

variable {s : Session} {check : SuspendedCheck} {inner outer : List SuspendedCheck}
  {debugger : Debugger} {place : Debugger.Place} {d : Dialogue Bool} {pause : Bool}

end Session

open Dialogue (IsTrue)

end Breakpoints

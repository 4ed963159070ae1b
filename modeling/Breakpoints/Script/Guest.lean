import Breakpoints.Dialogue
import Breakpoints.Script.Comparison
import Breakpoints.Value.Display

/-!
# A guest that runs scripts

The guest of the script language: scripts see the locals of one frame and change
nothing, and values are displayed in their own words.
-/

namespace Breakpoints.Script

def guest (locals : Locals) : Dialogue.Guest Unit where
  evaluate script _ := (evaluate locals script, ())
  display value _ := (.ok value.display, ())

end Breakpoints.Script

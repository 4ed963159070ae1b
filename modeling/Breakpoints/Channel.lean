/-!
# Output channels

Where log messages go: one of five channels, each known by a lower-case name.
-/

namespace Breakpoints

inductive Channel where
  | console
  | important
  | stdout
  | stderr
  | telemetry
  deriving DecidableEq, Repr

namespace Channel

/-- Unless told otherwise, log messages go to standard output. -/
instance : Inhabited Channel := ⟨stdout⟩

def name : Channel → String
  | console => "console"
  | important => "important"
  | stdout => "stdout"
  | stderr => "stderr"
  | telemetry => "telemetry"

def all : List Channel := [console, important, stdout, stderr, telemetry]

/-- The channel of that exact name. -/
def ofName? (text : String) : Option Channel := all.find? fun c => c.name == text

/-- What a client is told about a name that no channel has. -/
def unknownMessage : String := "Matching variant not found"

theorem ofName?_name (c : Channel) : ofName? c.name = some c := by
  cases c <;> decide

end Channel

end Breakpoints

import Breakpoints.Channel
import Breakpoints.Source

/-!
# Settings

How functions are bound to sources, where log messages go, and which chunks are
known by a path.
-/

namespace Breakpoints

/-- Whether the source of a function is remembered. A function is known by its
address, which another function may get once a collection has freed it, so
nothing is remembered from one collection epoch to the next. -/
inductive Caching where
  | perEpoch
  | never
  deriving DecidableEq, Repr

structure Config where
  caching : Caching := .perEpoch
  channel : Channel := .stdout
  /-- A chunk whose description starts with one of these has a name. -/
  markers : List Char := ['@', '=']
  deriving DecidableEq, Repr

namespace Config

def isNamed (config : Config) (description : String) : Bool :=
  match description.toList with
  | [] => false
  | c :: _ => config.markers.contains c

/-- The source that a chunk belongs to: its path if it has a name that `pathOf`
knows a path for, or else its handle. -/
def sourceOf (config : Config) (pathOf : String → Option String) (chunk : Chunk) : Option Source :=
  match if config.isNamed chunk.description then pathOf chunk.description else none with
  | some path => some (.path path)
  | none => chunk.handle.map .handle

end Config

end Breakpoints

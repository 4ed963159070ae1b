import Breakpoints.Text.Numeral

/-!
# Sources and chunks

A source is what breakpoints belong to: a file known by its path, or a chunk
known only by a handle. A path never names the same source as a handle, even if
both read alike. A chunk is what the host can say about where a function was
defined.
-/

namespace Breakpoints

inductive Source where
  | path (name : String)
  | handle (id : Int)
  deriving DecidableEq, Repr

/-- The label of a chunk known by its handle. -/
def handleLabel (id : Int) : String := "<source " ++ Text.decimalInt id ++ ">"

/-- The label of a function, which is known by its address. -/
def functionLabel (address : Nat) : String := "<function " ++ Text.hexadecimal address ++ ">"

namespace Source

def label : Source → String
  | path name => name
  | handle id => handleLabel id

/-- The source that a client means: a path, even an empty one, goes before a
reference, and a reference counts only if it is positive. -/
def ofClient (path? : Option String) (reference? : Option Int) : Option Source :=
  match path?, reference? with
  | some name, _ => some (path name)
  | none, some reference => if 0 < reference then some (handle reference) else none
  | none, none => none

end Source

/-- Where a function was defined: a text that describes the chunk, and the handle
of the chunk if it has one. -/
structure Chunk where
  description : String
  handle : Option Int
  deriving DecidableEq, Repr

/-- The path in a description `@path`; nothing for an empty path or any other
description. -/
def chunkPath (description : String) : Option String :=
  match description.toList with
  | '@' :: c :: cs => some (String.ofList (c :: cs))
  | _ => none

end Breakpoints

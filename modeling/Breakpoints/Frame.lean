import Breakpoints.Source

/-!
# Frames

What the host can tell about the function that is running. Every answer may be
missing.
-/

namespace Breakpoints

structure Frame where
  line : Option Nat := none
  /-- The address of the function. -/
  function : Option Nat := none
  /-- A number that changes whenever addresses of functions may have been used
  again. -/
  epoch : Option Nat := none
  chunk : Option Chunk := none
  deriving DecidableEq, Repr

/-- An address read as a signed word of 64 bits. -/
def signedAddress (address : Nat) : Int := Int.bmod address 0x10000000000000000

/-- A frame in a function of a named file, before any collection. The handle of
the chunk is made from the address of the function. -/
def Frame.inFile (path : String) (function line : Nat) : Frame where
  line := some line
  function := some function
  epoch := some 0
  chunk := some ⟨"@" ++ path, some (signedAddress function)⟩

end Breakpoints

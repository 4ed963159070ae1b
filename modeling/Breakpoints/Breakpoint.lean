/-!
# Breakpoints

A client defines a breakpoint by up to three texts; the registered breakpoint
also counts its hits. Empty texts count as absent (`ofDefinition`).
-/

namespace Breakpoints

/-- What a client says about a breakpoint. -/
structure Definition where
  condition : Option String := none
  hitCondition : Option String := none
  logMessage : Option String := none
  deriving DecidableEq, Repr

/-- A breakpoint with a log message writes it instead of pausing. `hits` says how
often the condition held, or the line was reached if there is none. -/
structure Breakpoint where
  condition : Option String
  hitCondition : Option String
  logMessage : Option String
  hits : Nat
  deriving DecidableEq, Repr

/-- The text unless it is empty. -/
def nonempty (text? : Option String) : Option String := text?.filter fun text => text != ""

@[simp] theorem nonempty_none : nonempty none = none := rfl

@[simp] theorem nonempty_nonempty (text? : Option String) :
    nonempty (nonempty text?) = nonempty text? := by
  cases text? <;> simp [nonempty, Option.filter_filter]

namespace Breakpoint

def ofDefinition (d : Definition) (hits : Nat) : Breakpoint :=
  ⟨nonempty d.condition, nonempty d.hitCondition, nonempty d.logMessage, hits⟩

def isLogpoint (b : Breakpoint) : Bool := b.logMessage.isSome

/-- The largest number of hits that is counted. -/
def maxHits : Nat := 0xffffffffffffffff

/-- One more hit; the count stays at its maximum once it is there. -/
def hit (b : Breakpoint) : Breakpoint := { b with hits := min (b.hits + 1) maxHits }

@[simp] theorem hits_ofDefinition (d : Definition) (hits : Nat) :
    (ofDefinition d hits).hits = hits := rfl

end Breakpoint

end Breakpoints

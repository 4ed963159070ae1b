import Breakpoints.Config
import Breakpoints.Event
import Breakpoints.Frame
import Breakpoints.Registry

/-!
# Bindings of functions

A binding says which source, and so which table, a function belongs to.
`BindingCache.resolve` finds the binding of the running function: from memory if
the host reports the epoch and the function was bound since it changed, or else
from what the host says about the chunk. A function that belongs to no source is
remembered too. A binding counts only while its table holds a breakpoint.
-/

namespace Breakpoints

structure Binding where
  source : Source
  table : TableId
  deriving DecidableEq, Repr

namespace Registry

/-- Binds to a source, which gets a table unless it has one. -/
def bind (r : Registry) : Option Source → Option Binding × Registry
  | none => (none, r)
  | some s => (some ⟨s, (r.intern s).1⟩, (r.intern s).2)

/-- The binding, if its table holds a breakpoint. -/
def live (r : Registry) (binding? : Option Binding) : Option Binding :=
  binding?.filter fun b => !(r.tables.get b.table).isEmpty

end Registry

/-- The bindings known for the functions of an epoch. -/
structure BindingCache where
  caching : Caching
  epoch : Option Nat
  bindings : List (Nat × Option Binding)
  deriving DecidableEq, Repr

namespace BindingCache

def empty (caching : Caching) : BindingCache := ⟨caching, none, []⟩

def size (c : BindingCache) : Nat := c.bindings.length

/-- What is remembered of a function; `some none` if it belongs to no source. -/
def remembered? (c : BindingCache) (function : Nat) : Option (Option Binding) :=
  c.bindings.lookup function

/-- Remembers a function that was not remembered before. -/
def remember (c : BindingCache) (function : Nat) (binding? : Option Binding) : BindingCache :=
  { c with bindings := (function, binding?) :: c.bindings }

/-- Forgets all bindings, not the epoch. -/
def forget (c : BindingCache) : BindingCache := { c with bindings := [] }

/-- What `forget` reports: nothing if there is nothing to forget. -/
def forgetNotices (c : BindingCache) : List Notice :=
  if c.bindings.isEmpty then [] else [.bindingsForgotten c.size]

/-- Whether bindings may be remembered for a frame that reports this epoch. -/
def usable (c : BindingCache) (epoch? : Option Nat) : Bool :=
  c.caching == .perEpoch && epoch?.isSome

/-- Forgets all bindings if the frame reports another epoch than the last one. -/
def sync (c : BindingCache) (epoch? : Option Nat) : BindingCache :=
  if c.usable epoch? && c.epoch != epoch? then { c.forget with epoch := epoch? } else c

/-- The epoch is asked for only if bindings are remembered at all. -/
def syncEvents (c : BindingCache) (epoch? : Option Nat) : List Event :=
  (if c.caching = .perEpoch then [.asked .epoch] else [])
    ++ if c.usable epoch? && c.epoch != epoch? then c.forgetNotices.map .noted else []

/-- The outcome of resolving a function. -/
structure Resolution where
  binding : Option Binding
  cache : BindingCache
  registry : Registry
  events : List Event

/-- The binding of the running function. -/
def resolve (config : Config) (pathOf : String → Option String) (frame : Frame) (r : Registry)
    (c : BindingCache) : Resolution :=
  match frame.function with
  | none => ⟨none, c, r, [.asked .function]⟩
  | some function =>
    let synced := c.sync frame.epoch
    let asked := .asked .function :: c.syncEvents frame.epoch
    match if c.usable frame.epoch then synced.remembered? function else none with
    | some binding? => ⟨r.live binding?, synced, r, asked⟩
    | none =>
      match frame.chunk with
      | none => ⟨none, synced, r, asked ++ [.asked .chunk]⟩
      | some chunk =>
        let source? := config.sourceOf pathOf chunk
        let (binding?, r') := r.bind source?
        let lookups :=
          if config.isNamed chunk.description then [.lookedUp chunk.description] else []
        { binding := r'.live binding?
          cache := if c.usable frame.epoch then synced.remember function binding? else synced
          registry := r'
          events := asked ++ .asked .chunk :: lookups ++ [.noted (.resolved function source?)] }

@[simp] theorem remembered?_forget (c : BindingCache) (function : Nat) :
    c.forget.remembered? function = none := rfl

@[simp] theorem remembered?_remember_self (c : BindingCache) (function : Nat)
    (binding? : Option Binding) :
    (c.remember function binding?).remembered? function = some binding? := by
  simp [remembered?, remember]

theorem remembered?_remember_of_ne {c : BindingCache} {function other : Nat}
    {binding? : Option Binding} (h : other ≠ function) :
    (c.remember function binding?).remembered? other = c.remembered? other := by
  simp [remembered?, remember, List.lookup_cons, beq_eq_false_iff_ne.2 h]

end BindingCache

end Breakpoints

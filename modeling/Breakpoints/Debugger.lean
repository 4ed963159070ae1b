import Breakpoints.Binding
import Breakpoints.LineCheck

/-!
# The debugger

The debugger holds the breakpoints of all sources and the bindings of functions.
A client sets and clears breakpoints; the host tells when a line is reached and
when a function is entered or returned to.
-/

namespace Breakpoints

structure Debugger where
  config : Config
  /-- The path that the client knows a named chunk by. -/
  pathOf : String → Option String
  registry : Registry
  cache : BindingCache

namespace Debugger

def new (config : Config) (pathOf : String → Option String) : Debugger :=
  ⟨config, pathOf, .empty, .empty config.caching⟩

/-- Sets breakpoints of a source one after the other. Breakpoints at other lines
stay. -/
def setBreakpoints (room : Nat → Bool) (s : Source) (placed : List (Nat × Definition))
    (d : Debugger) : Debugger :=
  { d with registry := placed.foldl (fun r p => r.add room s p.1 p.2) d.registry }

/-- What `setBreakpoints` reports. -/
def setNotices (room : Nat → Bool) (s : Source) : List (Nat × Definition) → Registry → List Notice
  | [], _ => []
  | (line, d) :: rest, r => r.addNotice room s line :: setNotices room s rest (r.add room s line d)

def clearSource (s : Source) (d : Debugger) : Debugger :=
  { d with registry := d.registry.clearSource s }

/-- Removes all breakpoints, and the bindings with them: their tables are no
longer those of any source. -/
def clearAll (d : Debugger) : Debugger :=
  { d with registry := d.registry.clear, cache := d.cache.forget }

/-- What `clearAll` reports. -/
def clearAllNotices (d : Debugger) : List Notice := .allCleared :: d.cache.forgetNotices

/-- Resolves the running function. -/
def resolve (frame : Frame) (d : Debugger) : BindingCache.Resolution :=
  d.cache.resolve d.config d.pathOf frame d.registry

/-- The debugger after resolving the running function. -/
def resolved (frame : Frame) (d : Debugger) : Debugger :=
  let resolution := d.resolve frame
  { d with registry := resolution.registry, cache := resolution.cache }

/-- A line to be checked against a table. -/
structure Place where
  table : TableId
  line : Nat
  deriving DecidableEq, Repr

/-- The outcome of looking for the place of a reached line. -/
structure Located where
  place : Option Place
  debugger : Debugger
  events : List Event

/-- Finds out which table a reached line is to be checked against. Nothing but
the line is asked for if no source has a breakpoint there. -/
def locate (frame : Frame) (d : Debugger) : Located :=
  match frame.line with
  | none => ⟨none, d, [.asked .line]⟩
  | some line =>
    if d.registry.admits line then
      let resolution := d.resolve frame
      { place := resolution.binding.map fun b => ⟨b.table, line⟩
        debugger := d.resolved frame
        events := .asked .line :: resolution.events }
    else ⟨none, d, [.asked .line]⟩

/-- What the check of a place does. -/
def check (place : Place) (d : Debugger) : Dialogue Bool :=
  d.registry.check d.config.channel place.table place.line

/-- The debugger with its tables changed. -/
def withTables (d : Debugger) (tables : Tables) : Debugger :=
  { d with registry := { d.registry with tables } }

/-- What came of a reached line: whether to pause, the debugger and the guest
afterwards, and what could be seen. -/
structure LineOutcome (σ : Type) where
  pause : Bool
  debugger : Debugger
  guest : σ
  events : List Event

/-- Checks a reached line with a guest that leaves the debugger alone. -/
def runLine {σ : Type} (g : Dialogue.Guest σ) (frame : Frame) (d : Debugger) (s : σ) :
    LineOutcome σ :=
  match d.locate frame with
  | ⟨none, d', events⟩ => ⟨false, d', s, events⟩
  | ⟨some place, d', events⟩ =>
    let ending := (d'.check place).run g place.table place.line d'.registry.tables s
    ⟨ending.result, d'.withTables ending.tables, ending.guest, events ++ ending.events⟩

/-- How often the breakpoint at a line of a source was hit. -/
def hits? (d : Debugger) (s : Source) (line : Nat) : Option Nat :=
  (d.registry.contents s).hits? line

/-- The breakpoints of a source, sorted by line. -/
def breakpoints (d : Debugger) (s : Source) : List (Nat × Breakpoint) :=
  (d.registry.contents s).entries

/-- The number of sources that have a table, which may be empty. -/
def sourceCount (d : Debugger) : Nat := d.registry.sources.length

/-- The number of functions whose binding is remembered. -/
def cachedCount (d : Debugger) : Nat := d.cache.size

/-- No source has a breakpoint. -/
def isEmpty (d : Debugger) : Bool := d.registry.counts.allZero

end Debugger

end Breakpoints

import Breakpoints.LineCounts
import Breakpoints.Notice
import Breakpoints.Tables

/-!
# The registry of breakpoints

The registry knows the table of every source and counts, for every line, the
sources that have a breakpoint there. Clearing a source empties its table and
keeps it, so that whoever shares the table sees later breakpoints too. Clearing
the registry empties all tables and lets go of them: a source gets a new table
afterwards, and the old ones stay empty.
-/

namespace Breakpoints

structure Registry where
  tables : Tables
  /-- The sources that have a table, in the order in which they got it. -/
  sources : List (Source × TableId)
  counts : LineCounts
  deriving DecidableEq

namespace Registry

def empty : Registry := ⟨.none, [], .empty⟩

/-- The table of a source, if it has one. -/
def find? (r : Registry) (s : Source) : Option TableId := r.sources.lookup s

/-- What the breakpoints of a source are now. -/
def contents (r : Registry) (s : Source) : Table :=
  match r.find? s with
  | some id => r.tables.get id
  | none => .empty

/-- Gives the source a table unless it has one. -/
def intern (r : Registry) (s : Source) : TableId × Registry :=
  match r.find? s with
  | some id => (id, r)
  | none =>
    (r.tables.fresh,
      { r with tables := r.tables.grow, sources := r.sources ++ [(s, r.tables.fresh)] })

/-- Sets a breakpoint, unless there is no `room` to count its line; then nothing
changes. A line is counted only when it gets a breakpoint that it did not have. -/
def add (room : Nat → Bool) (s : Source) (line : Nat) (d : Definition) (r : Registry) : Registry :=
  match r.counts.cover? room line with
  | none => r
  | some counts =>
    let (id, r') := r.intern s
    let t := r'.tables.get id
    { r' with
      tables := r'.tables.set id (t.define line d)
      counts := if t.holds line then counts else counts.increment line }

/-- What `add` reports. -/
def addNotice (room : Nat → Bool) (s : Source) (line : Nat) (r : Registry) : Notice :=
  match r.counts.cover? room line with
  | none => .outOfRange s line
  | some _ => if (r.contents s).holds line then .replaced s line else .added s line

/-- Removes the breakpoints of a source. -/
def clearSource (s : Source) (r : Registry) : Registry :=
  match r.find? s with
  | none => r
  | some id =>
    { r with
      tables := r.tables.set id .empty
      counts := (r.tables.get id).lines.foldl LineCounts.decrement r.counts }

/-- What `clearSource` reports: nothing about a source without a table. -/
def clearSourceNotices (s : Source) (r : Registry) : List Notice :=
  match r.find? s with
  | none => []
  | some id => [.sourceCleared s (r.tables.get id).size]

/-- Empties the tables of some sources. -/
def emptied (sources : List (Source × TableId)) (ts : Tables) : Tables :=
  sources.foldl (fun ts e => ts.set e.2 .empty) ts

/-- Removes all breakpoints and forgets the sources. -/
def clear (r : Registry) : Registry := ⟨emptied r.sources r.tables, [], .empty⟩

/-- Whether any source may have a breakpoint at the line. -/
def admits (r : Registry) (line : Nat) : Bool := r.counts.admits line

@[simp] theorem find?_empty (s : Source) : empty.find? s = none := rfl

@[simp] theorem find?_clear (r : Registry) (s : Source) : r.clear.find? s = none := rfl

@[simp] theorem counts_clear (r : Registry) : r.clear.counts = .empty := rfl

@[simp] theorem counts_intern (r : Registry) (s : Source) : (r.intern s).2.counts = r.counts := by
  unfold intern
  split <;> rfl

theorem lookup_append_singleton {sources : List (Source × TableId)} {s s' : Source} {id : TableId} :
    (sources ++ [(s, id)]).lookup s' =
      (sources.lookup s').or (if s' = s then some id else none) := by
  by_cases h : s' = s
  · simp [List.lookup_append, h]
  · simp [List.lookup_append, List.lookup_cons, h, beq_eq_false_iff_ne.2]

@[simp] theorem find?_intern_self (r : Registry) (s : Source) :
    (r.intern s).2.find? s = some (r.intern s).1 := by
  unfold intern
  split
  · assumption
  · next h =>
    have h : r.sources.lookup s = none := h
    simp [find?, lookup_append_singleton, h]

theorem find?_intern_of_ne {r : Registry} {s s' : Source} (h : s' ≠ s) :
    (r.intern s).2.find? s' = r.find? s' := by
  unfold intern
  split
  · rfl
  · simp [find?, lookup_append_singleton, h]

/-- Giving a source a table changes no contents. -/
@[simp] theorem get_intern (r : Registry) (s : Source) (id : TableId) :
    (r.intern s).2.tables.get id = r.tables.get id := by
  unfold intern
  split <;> simp

end Registry

end Breakpoints

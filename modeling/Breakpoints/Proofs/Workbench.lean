import Breakpoints.Proofs.Registry.Counts
import Breakpoints.Proofs.Session.History

/-!
# Sessions whose registry is used directly

Besides the debugger, its registry can be used on its own: to add and clear
breakpoints, to look up tables, and to check a line against any table, which hands
control to the guest like any check. Requests of both kinds can be mixed in any
order and at any depth, and in every state between two of them the counts are
exact (`counts_served`).
-/

namespace Breakpoints

/-- What a session, or its registry alone, is asked to do. -/
inductive Request where
  | tell (input : Input)
  | add (room : Nat → Bool) (source : Source) (line : Nat) (definition : Definition)
  | clearSource (source : Source)
  /-- The bindings are not forgotten, so their tables are still shared. -/
  | clear
  | lookup (source : Source)
  /-- The table need not be that of a source. -/
  | check (channel : Channel) (table : TableId) (line : Nat)

namespace Session

/-- The session with its registry changed. -/
def withRegistry (s : Session) (registry : Registry) : Session :=
  { s with debugger := { s.debugger with registry } }

/-- One request. A lookup answers nothing here: the table is the one that the source
has afterwards. -/
def serve (s : Session) : Request → Outcome
  | .tell input => s.step input
  | .add room source line definition =>
    ⟨s.withRegistry (s.debugger.registry.add room source line definition),
      [.noted (s.debugger.registry.addNotice room source line)], none⟩
  | .clearSource source =>
    ⟨s.withRegistry (s.debugger.registry.clearSource source),
      (s.debugger.registry.clearSourceNotices source).map .noted, none⟩
  | .clear => ⟨s.withRegistry s.debugger.registry.clear, [.noted .allCleared], none⟩
  | .lookup source => ⟨s.withRegistry (s.debugger.registry.intern source).2, [], none⟩
  | .check channel table line =>
    proceed s.debugger s.suspended ⟨table, line⟩ (s.debugger.registry.check channel table line)

/-- The session after some requests. -/
def served (s : Session) (requests : List Request) : Session :=
  requests.foldl (fun s request => (s.serve request).session) s

variable {start : Registry} {history : List Event} {s : Session}

theorem Recorded.serve (h : s.Recorded start history) (request : Request) :
    (s.serve request).session.Recorded start (history ++ (s.serve request).events) := by
  cases request with
  | tell input => exact h.step input
  | add room source line definition => exact ⟨h.evolves.step (.add ..), h.checks⟩
  | clearSource source => exact ⟨h.evolves.step (.clearSource ..), h.checks⟩
  | clear => exact ⟨h.evolves.step (.clear _), h.checks⟩
  | lookup source => exact ⟨h.evolves.step (.lookup ..), h.checks⟩
  | check channel table line => exact recorded_proceed h (Registry.onlyShows_check ..) ⟨table, line⟩

theorem Recorded.served (h : s.Recorded start history) (requests : List Request) :
    ∃ history', (s.served requests).Recorded start history' := by
  induction requests generalizing s history with
  | nil => exact ⟨history, h⟩
  | cons request rest ih => exact ih (h.serve request)

/-- **The counts are exact** in every state in which guest code runs: each line is
counted as often as sources known by path and sources known by handle have a
breakpoint there. So a line is let pass exactly if no source has a breakpoint there,
and nothing is counted exactly if no source has any. -/
theorem counts_served (config : Config) (pathOf : String → Option String)
    (requests : List Request) (line : Nat) :
    let d := ((new config pathOf).served requests).debugger
    (d.registry.counts.count line : ℕ∞) =
        {name | (d.registry.contents (.path name)).holds line = true}.encard +
          {id | (d.registry.contents (.handle id)).holds line = true}.encard ∧
      d.registry.counts.count line ≤ d.sourceCount ∧
      (d.registry.admits line = true ↔ ∃ s, (d.registry.contents s).holds line = true) ∧
      (d.isEmpty = true ↔ ∀ s, (d.registry.contents s).isEmpty = true) := by
  intro d
  obtain ⟨history, hrecorded⟩ := (recorded_new config pathOf).served requests
  have hexact : d.registry.Exact := hrecorded.arises.exact
  exact ⟨(hexact line).trans (d.registry.encard_holders line), hexact.count_le line,
    hexact.admits_iff, hexact.allZero_iff⟩

end Session

end Breakpoints

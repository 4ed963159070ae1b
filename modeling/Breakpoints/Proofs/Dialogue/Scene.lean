import Breakpoints.Proofs.Dialogue

/-!
# Guests that change the tables

While the guest has control it may use the debugger, so the tables may hold anything by
the time it answers. A scene is all that a guest can change: the tables and a state of
its own. `runIn` runs a dialogue with a guest that leads from one scene to the next. A
guest that leaves the tables alone is a special case (`run_eq_runIn`), and to a dialogue
that counts no hit the tables are but a part of the guest's state
(`OnlyShows.runIn_eq`).
-/

namespace Breakpoints

namespace Event

/-- The script that was evaluated. -/
def script? : Event → Option String
  | .evaluated script => some script
  | _ => none

/-- What was printed, and where. -/
def output? : Event → Option (Channel × String)
  | .printed channel text => some (channel, text)
  | _ => none

section

variable (script text : String) (value : Value) (table : TableId) (line hits : Nat)
  (channel : Channel) (notice : Notice) (notices : List Notice)

@[simp] theorem script?_evaluated : (evaluated script).script? = some script := rfl

@[simp] theorem script?_displayed : (displayed value).script? = none := rfl

@[simp] theorem script?_hit : (hit table line hits).script? = none := rfl

@[simp] theorem script?_printed : (printed channel text).script? = none := rfl

@[simp] theorem script?_noted : (noted notice).script? = none := rfl

@[simp] theorem filterMap_script?_noted : notices.filterMap (script? ∘ noted) = [] :=
  List.filterMap_eq_nil_iff.2 fun _ _ => rfl

@[simp] theorem output?_evaluated : (evaluated script).output? = none := rfl

@[simp] theorem output?_displayed : (displayed value).output? = none := rfl

@[simp] theorem output?_hit : (hit table line hits).output? = none := rfl

@[simp] theorem output?_printed : (printed channel text).output? = some (channel, text) := rfl

@[simp] theorem output?_noted : (noted notice).output? = none := rfl

@[simp] theorem filterMap_output?_noted : notices.filterMap (output? ∘ noted) = [] :=
  List.filterMap_eq_nil_iff.2 fun _ _ => rfl

end

end Event

namespace Dialogue

variable {α β σ : Type} {id : TableId} {line : Nat}

/-- What a guest that uses the debugger finds and leaves. -/
structure Scene (σ : Type) where
  tables : Tables
  guest : σ

def Ending.scene (e : Ending σ α) : Scene σ := ⟨e.tables, e.guest⟩

@[simp] theorem Ending.events_after (e : Ending σ α) (events : List Event) :
    (e.after events).events = events ++ e.events := rfl

@[simp] theorem Ending.after_nil (e : Ending σ α) : e.after [] = e := rfl

/-- Runs a dialogue to the end with a guest that may change the tables. -/
def runIn (g : Guest (Scene σ)) (id : TableId) (line : Nat) : Dialogue α → Scene σ → Ending σ α
  | done result, c => ⟨result, c.tables, c.guest, []⟩
  | evaluate script next, c =>
    let (outcome, c') := g.evaluate script c
    ((next outcome).runIn g id line c').after [.evaluated script]
  | display value next, c =>
    let (outcome, c') := g.display value c
    ((next outcome).runIn g id line c').after [.displayed value]
  | hit next, c =>
    let (hits?, ts) := countHit id line c.tables
    ((next hits?).runIn g id line ⟨ts, c.guest⟩).after (hitEvents id line hits?)
  | print channel text next, c => (next.runIn g id line c).after [.printed channel text]
  | note notice next, c => (next.runIn g id line c).after [.noted notice]

/-- A dialogue that goes on with another is run one after the other. -/
theorem runIn_bind (g : Guest (Scene σ)) (d : Dialogue α) (f : α → Dialogue β) (c : Scene σ) :
    (d.bind f).runIn g id line c =
      ((f (d.runIn g id line c).result).runIn g id line (d.runIn g id line c).scene).after
        (d.runIn g id line c).events := by
  induction d generalizing c with
  | done result => rfl
  | evaluate script next ih | display value next ih | hit next ih
  | print channel text next ih | note notice next ih =>
    simp only [bind, runIn, ih, Ending.after_after]
    rfl

/-- What is left of a run once the guest has control. -/
def Waiting.runIn (g : Guest (Scene σ)) (id : TableId) (line : Nat) :
    Waiting α → Scene σ → Ending σ α
  | .evaluation script next, c =>
    (next (g.evaluate script c).1).runIn g id line (g.evaluate script c).2
  | .display value next, c => (next (g.display value c).1).runIn g id line (g.display value c).2

/-- The guest, with tables around that it does not touch. -/
def Guest.apart (g : Guest σ) : Guest (Scene σ) where
  evaluate script c := ((g.evaluate script c.guest).1, ⟨c.tables, (g.evaluate script c.guest).2⟩)
  display value c := ((g.display value c.guest).1, ⟨c.tables, (g.display value c.guest).2⟩)

theorem run_eq_runIn (g : Guest σ) (d : Dialogue α) (ts : Tables) (s : σ) :
    d.run g id line ts s = d.runIn g.apart id line ⟨ts, s⟩ := by
  induction d generalizing ts s with
  | done result => rfl
  | evaluate script next ih | display value next ih | hit next ih
  | print channel text next ih | note notice next ih =>
    simp only [run, ih]
    rfl

theorem run_bind (g : Guest σ) (d : Dialogue α) (f : α → Dialogue β) (ts : Tables) (s : σ) :
    let e := d.run g id line ts s
    (d.bind f).run g id line ts s =
      ((f e.result).run g id line e.tables e.guest).after e.events := by
  intro e
  have he : e = d.runIn g.apart id line ⟨ts, s⟩ := run_eq_runIn g d ts s
  rw [run_eq_runIn, runIn_bind, ← he, run_eq_runIn]
  rfl

/-! ## What a run shows -/

theorem OnlyShows.tables_run {g : Guest σ} {d : Dialogue α} (h : d.OnlyShows Silent)
    (ts : Tables) (s : σ) : (d.run g id line ts s).tables = ts := by
  induction d generalizing s with
  | done result => rfl
  | evaluate script next ih | display value next ih => exact ih _ (h.2 _) _
  | hit next ih => cases h.1 id line 0
  | print channel text next ih | note notice next ih => exact ih h.2 s

end Dialogue

end Breakpoints

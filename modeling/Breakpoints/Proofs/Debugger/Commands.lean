import Breakpoints.Proofs.Registry.Counts
import Breakpoints.Proofs.Session.Steps
import Breakpoints.Proofs.Session.History

/-!
# Commands that nothing interrupts

A debugger is told one thing after the other, and while a check hands control to the
guest, the guest answers it and leaves the debugger alone. So a command is carried out in
one go (`Debugger.obey`). It is what a session does with the command and the guest's
answers (`Session.obeyed`). A check of a line writes to no table but the one it is about
(`Dialogue.get_run_of_ne`), and it sees no other either (`Dialogue.run_same`).
-/

namespace Breakpoints

/-! ## Dialogues run to their end -/

namespace Dialogue

variable {α σ : Type} (g : Guest σ) (id : TableId) (line : Nat)

/-- What hits of the breakpoint keep, the whole dialogue keeps. -/
theorem run_induction {P : Tables → Prop} (step : ∀ ts, P ts → P (countHit id line ts).2)
    (d : Dialogue α) {ts : Tables} (h : P ts) (s : σ) : P (d.run g id line ts s).tables := by
  induction d generalizing ts s with
  | done => exact h
  | evaluate script next ih => exact ih _ h _
  | display value next ih => exact ih _ h _
  | hit next ih => exact ih _ (step ts h) s
  | print channel text next ih => exact ih h s
  | note notice next ih => exact ih h s

/-- No other table is written to. -/
theorem get_run_of_ne {id' : TableId} (hne : id' ≠ id) (d : Dialogue α) (ts : Tables) (s : σ) :
    (d.run g id line ts s).tables.get id' = ts.get id' := by
  refine run_induction g id line (P := fun ts' => ts'.get id' = ts.get id') ?_ d rfl s
  intro ts' h
  rw [Tables.get_countHit, if_neg hne, h]

variable {id line}

/-- Endings that are the same but for the tables, which are related. -/
structure Ending.Related (R : Tables → Tables → Prop) (e e' : Ending σ α) : Prop where
  result : e.result = e'.result
  guest : e.guest = e'.guest
  shown : e.events.filter Event.shown = e'.events.filter Event.shown
  tables : R e.tables e'.tables

theorem Ending.Related.after {R : Tables → Tables → Prop} {e e' : Ending σ α} (h : e.Related R e')
    {events events' : List Event}
    (hshown : events.filter Event.shown = events'.filter Event.shown) :
    (e.after events).Related R (e'.after events') where
  result := h.result
  guest := h.guest
  shown := by simp only [Ending.after, List.filter_append, hshown, h.shown]
  tables := h.tables

/-- Tables that cannot be told apart by counting a hit cannot be told apart by a dialogue. -/
theorem run_related {R : Tables → Tables → Prop} {id' : TableId}
    (hcount : ∀ ts ts', R ts ts' → (countHit id line ts).1 = (countHit id' line ts').1 ∧
      R (countHit id line ts).2 (countHit id' line ts').2)
    (d : Dialogue α) {ts ts' : Tables} (h : R ts ts') (s : σ) :
    (d.run g id line ts s).Related R (d.run g id' line ts' s) := by
  induction d generalizing ts ts' s with
  | done => exact ⟨rfl, rfl, rfl, h⟩
  | evaluate script next ih => exact (ih _ h _).after rfl
  | display value next ih => exact (ih _ h _).after rfl
  | hit next ih =>
    obtain ⟨hhits, htables⟩ := hcount ts ts' h
    simp only [run, ← hhits]
    exact (ih _ htables s).after (by rw [filter_shown_hitEvents, filter_shown_hitEvents])
  | print channel text next ih => exact (ih h s).after rfl
  | note notice next ih => exact (ih h s).after rfl

/-- Endings that are the same but for the tables that the dialogue is not about. -/
structure Ending.Same (id id' : TableId) (e e' : Ending σ α) : Prop where
  result : e.result = e'.result
  guest : e.guest = e'.guest
  shown : e.events.filter Event.shown = e'.events.filter Event.shown
  table : e.tables.get id = e'.tables.get id'

/-- Nothing matters to a dialogue but what its table holds. -/
theorem run_same (d : Dialogue α) {id' : TableId} {ts ts' : Tables} (h : ts.get id = ts'.get id')
    (s : σ) : (d.run g id line ts s).Same id id' (d.run g id' line ts' s) := by
  have hrelated : (d.run g id line ts s).Related (fun ts ts' => ts.get id = ts'.get id')
      (d.run g id' line ts' s) := by
    refine run_related g (fun ts ts' h => ?_) d h s
    constructor
    · rw [countHit, countHit, h]
      cases (ts'.get id').recordHit? line <;> rfl
    · rw [Tables.get_countHit, Tables.get_countHit, if_pos rfl, if_pos rfl, h]
  exact ⟨hrelated.result, hrelated.guest, hrelated.shown, hrelated.tables⟩

/-- Nothing matters even there but the breakpoint at the line. -/
theorem run_related_get? (d : Dialogue α) {id' : TableId} {ts ts' : Tables}
    (h : (ts.get id).get? line = (ts'.get id').get? line) (s : σ) :
    (d.run g id line ts s).Related
      (fun ts ts' => (ts.get id).get? line = (ts'.get id').get? line)
      (d.run g id' line ts' s) := by
  refine run_related g (fun ts ts' h => ?_) d h s
  constructor
  · simp only [countHit, Table.recordHit?, h]
    cases (ts'.get id').get? line <;> rfl
  · simp only [Tables.get_countHit, if_true, Table.get?_hit, h]

/-- What the guest answers in the course of a dialogue. -/
def answers (g : Guest σ) (id : TableId) (line : Nat) : Dialogue α → Tables → σ → List Input
  | done _, _, _ => []
  | evaluate script next, ts, s =>
    let (outcome, s') := g.evaluate script s
    .evaluated outcome :: (next outcome).answers g id line ts s'
  | display value next, ts, s =>
    let (outcome, s') := g.display value s
    .displayed outcome :: (next outcome).answers g id line ts s'
  | hit next, ts, s =>
    let (hits?, ts') := countHit id line ts
    (next hits?).answers g id line ts' s
  | print _ _ next, ts, s | note _ next, ts, s => next.answers g id line ts s

theorem isAnswer_of_mem_answers (d : Dialogue α) (ts : Tables) (s : σ) :
    ∀ input ∈ d.answers g id line ts s, input.isAnswer = true := by
  induction d generalizing ts s with
  | done => intro input h; cases h
  | evaluate script next ih => exact List.forall_mem_cons.2 ⟨rfl, ih _ _ _⟩
  | display value next ih => exact List.forall_mem_cons.2 ⟨rfl, ih _ _ _⟩
  | hit next ih => exact ih _ _ s
  | print channel text next ih => exact ih ts s
  | note notice next ih => exact ih ts s

end Dialogue

/-! ## Carrying out a command -/

/-- What a debugger is told, if nothing is done while the guest has control. Breakpoints
come with the `room` that there is for counted lines when they are set, a reached line with
the guest that answers and the state it is in. -/
inductive Command (σ : Type) where
  | setBreakpoints (room : Nat → Bool) (source : Source) (placed : List (Nat × Definition))
  | clearSource (source : Source)
  | clearAll
  | line (frame : Frame) (guest : Dialogue.Guest σ) (state : σ)
  | call (frame : Frame)

variable {σ : Type}

/-- The frame that a command tells of. -/
def Command.frame? : Command σ → Option Frame
  | .line frame _ _ | .call frame => some frame
  | _ => none

/-- The room that breakpoints come with. -/
def Command.room? : Command σ → Option (Nat → Bool)
  | .setBreakpoints room _ _ => some room
  | _ => none

namespace Debugger

/-- What came of a command: the debugger and the guest afterwards, what could be seen,
and the answer. -/
structure Obeyed (σ : Type) where
  debugger : Debugger
  events : List Event
  answer : Option Answer
  guest : Option σ

/-- Carries out a command. -/
def obey (d : Debugger) : Command σ → Obeyed σ
  | .setBreakpoints room s placed =>
    ⟨d.setBreakpoints room s placed, (setNotices room s placed d.registry).map .noted, none, none⟩
  | .clearSource s =>
    ⟨d.clearSource s, (d.registry.clearSourceNotices s).map .noted, none, none⟩
  | .clearAll => ⟨d.clearAll, d.clearAllNotices.map .noted, none, none⟩
  | .line frame g state =>
    let outcome := d.runLine g frame state
    ⟨outcome.debugger, outcome.events, some (.line outcome.pause), some outcome.guest⟩
  | .call frame =>
    let resolution := d.resolve frame
    ⟨d.resolved frame, resolution.events, some (.call resolution.binding), none⟩

theorem runLine_of_none {frame : Frame} {d : Debugger} (h : (d.locate frame).place = none)
    (g : Dialogue.Guest σ) (state : σ) :
    d.runLine g frame state =
      ⟨false, (d.locate frame).debugger, state, (d.locate frame).events⟩ := by
  simp only [runLine]
  generalize d.locate frame = located at h
  obtain ⟨place?, debugger, events⟩ := located
  cases h
  rfl

theorem runLine_of_some {frame : Frame} {d : Debugger} {place : Place}
    (h : (d.locate frame).place = some place) (g : Dialogue.Guest σ) (state : σ) :
    let located := (d.locate frame).debugger
    let ending := (located.check place).run g place.table place.line located.registry.tables state
    d.runLine g frame state =
      ⟨ending.result, located.withTables ending.tables, ending.guest,
        (d.locate frame).events ++ ending.events⟩ := by
  simp only [runLine]
  generalize d.locate frame = located at h
  obtain ⟨place?, debugger, events⟩ := located
  cases h
  rfl

/-- What the guest answers when a line is reached. -/
def lineAnswers (g : Dialogue.Guest σ) (frame : Frame) (d : Debugger) (state : σ) : List Input :=
  match d.locate frame with
  | ⟨none, _, _⟩ => []
  | ⟨some place, d', _⟩ =>
    (d'.check place).answers g place.table place.line d'.registry.tables state

end Debugger

/-! ## Commands to a session -/

/-- The inputs by which a session is told a command: the command itself, and what the
guest answers. -/
def Command.inputs (d : Debugger) : Command σ → List Input
  | .setBreakpoints room s placed => [.setBreakpoints room s placed]
  | .clearSource s => [.clearSource s]
  | .clearAll => [.clearAll]
  | .line frame g state => .line frame :: d.lineAnswers g frame state
  | .call frame => [.call frame]

namespace Session

section Proceeding

variable {place : Debugger.Place} {d d' : Dialogue Bool}

/-- More was seen before, in this order. -/
def Outcome.after (o : Outcome) (events : List Event) : Outcome :=
  { o with events := events ++ o.events }

/-- A check goes on as another one does, but more was seen before. -/
theorem proceed_after (debugger debugger' : Debugger) {events : List Event}
    (hprogress : d.proceed place.table place.line debugger.registry.tables =
      (d'.proceed place.table place.line debugger'.registry.tables).after events)
    (hdebugger : ∀ ts, debugger.withTables ts = debugger'.withTables ts)
    (outer : List SuspendedCheck) :
    proceed debugger outer place d = (proceed debugger' outer place d').after events := by
  simp only [proceed, hprogress, hdebugger, Dialogue.Progress.after, Outcome.after]
  cases (d'.proceed place.table place.line debugger'.registry.tables).standing <;> rfl

end Proceeding

/-- After an outcome these inputs lead to the session, and over all that much is seen
and answered. -/
structure Outcome.LeadsTo (o : Outcome) (inputs : List Input) (s : Session)
    (events : List Event) (answers : List Answer) : Prop where
  session : o.session.after inputs = s
  events : o.events ++ o.session.history inputs = events
  answers : (o :: o.session.outcomes inputs).filterMap (·.answer) = answers

section LeadsTo

variable {o : Outcome} {inputs : List Input} {s : Session} {events : List Event}
  {answers : List Answer}

theorem Outcome.LeadsTo.after (h : o.LeadsTo inputs s events answers) (earlier : List Event) :
    (o.after earlier).LeadsTo inputs s (earlier ++ events) answers where
  session := h.session
  events := by rw [← h.events, ← List.append_assoc]; rfl
  answers := h.answers

theorem Outcome.LeadsTo.cons {o' : Outcome} {input : Input}
    (h : o'.LeadsTo inputs s events answers) (hstep : o.session.step input = o') :
    o.LeadsTo (input :: inputs) s (o.events ++ events) (o.answer.toList ++ answers) where
  session := by rw [after_cons, hstep, h.session]
  events := by rw [history_cons, hstep, h.events]
  answers := by
    rw [← h.answers, outcomes, hstep]
    cases hanswer : o.answer <;> simp [hanswer]

end LeadsTo

/-- The guest's answers lead through a check to its end. -/
theorem leadsTo_run (g : Dialogue.Guest σ) (d : Dialogue Bool) (debugger : Debugger)
    (outer : List SuspendedCheck) (place : Debugger.Place) (state : σ) :
    let ending := d.run g place.table place.line debugger.registry.tables state
    (proceed debugger outer place d).LeadsTo
      (d.answers g place.table place.line debugger.registry.tables state)
      ⟨debugger.withTables ending.tables, outer⟩ ending.events [.line ending.result] := by
  induction d generalizing debugger state with
  | done pause => exact ⟨rfl, rfl, rfl⟩
  | evaluate script next ih =>
    let check : SuspendedCheck := ⟨place, .evaluation script next⟩
    have hstep : (Session.mk debugger (check :: outer)).step
        (.evaluated (g.evaluate script state).1) =
          proceed debugger outer place (next (g.evaluate script state).1) :=
      rfl
    exact (ih _ debugger _).cons hstep
  | display value next ih =>
    let check : SuspendedCheck := ⟨place, .display value next⟩
    have hstep : (Session.mk debugger (check :: outer)).step
        (.displayed (g.display value state).1) =
          proceed debugger outer place (next (g.display value state).1) :=
      rfl
    exact (ih _ debugger _).cons hstep
  | hit next ih =>
    let counted := Dialogue.countHit place.table place.line debugger.registry.tables
    have hproceed : proceed debugger outer place (.hit next) =
        (proceed (debugger.withTables counted.2) outer place (next counted.1)).after
          (Dialogue.hitEvents place.table place.line counted.1) :=
      proceed_after debugger (debugger.withTables counted.2) rfl (fun _ => rfl) outer
    rw [hproceed]
    exact (ih counted.1 (debugger.withTables counted.2) state).after _
  | print channel text next ih =>
    have hproceed : proceed debugger outer place (.print channel text next) =
        (proceed debugger outer place next).after [.printed channel text] :=
      proceed_after debugger debugger rfl (fun _ => rfl) outer
    rw [hproceed]
    exact (ih debugger state).after _
  | note notice next ih =>
    have hproceed : proceed debugger outer place (.note notice next) =
        (proceed debugger outer place next).after [.noted notice] :=
      proceed_after debugger debugger rfl (fun _ => rfl) outer
    rw [hproceed]
    exact (ih debugger state).after _

/-- **Carrying out a command** is what a session does that is told the command and what
the guest answers. Checks that were suspended before stay so. -/
theorem obeyed (s : Session) (c : Command σ) :
    let obeyed := s.debugger.obey c
    let inputs := c.inputs s.debugger
    s.after inputs = ⟨obeyed.debugger, s.suspended⟩ ∧ s.history inputs = obeyed.events ∧
      (s.outcomes inputs).filterMap (·.answer) = obeyed.answer.toList ∧
      ∀ input ∈ inputs.tail, input.isAnswer = true := by
  cases c with
  | setBreakpoints | clearSource | clearAll | call =>
    exact ⟨rfl, List.append_nil _, rfl, List.forall_mem_nil _⟩
  | line frame g state =>
    simp only [Debugger.obey, Command.inputs, after_cons, history_cons, outcomes, List.tail_cons]
    cases hplace : (s.debugger.locate frame).place with
    | none =>
      have hanswers : s.debugger.lineAnswers g frame state = [] := by
        simp only [Debugger.lineAnswers]
        generalize s.debugger.locate frame = located at hplace
        obtain ⟨place?, debugger, events⟩ := located
        cases hplace
        rfl
      rw [hanswers, step_line_of_none hplace, Debugger.runLine_of_none hplace]
      exact ⟨rfl, List.append_nil _, rfl, List.forall_mem_nil _⟩
    | some place =>
      let located := (s.debugger.locate frame).debugger
      have hanswers : s.debugger.lineAnswers g frame state =
          (located.check place).answers g place.table place.line located.registry.tables
            state := by
        simp only [Debugger.lineAnswers, located]
        generalize s.debugger.locate frame = located at hplace
        obtain ⟨place?, debugger, events⟩ := located
        cases hplace
        rfl
      have hstep : s.step (.line frame) =
          (proceed located s.suspended place (located.check place)).after
            (s.debugger.locate frame).events := step_line_of_some hplace
      have hrun := (leadsTo_run g (located.check place) located s.suspended place state).after
        (s.debugger.locate frame).events
      rw [hanswers, hstep, Debugger.runLine_of_some hplace]
      exact ⟨hrun.session, hrun.events, hrun.answers, Dialogue.isAnswer_of_mem_answers g _ _ state⟩

end Session

end Breakpoints

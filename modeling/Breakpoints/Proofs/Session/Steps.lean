import Breakpoints.Session

/-!
# The steps of a session

What a session does with an input, told apart by what decides it: whether a reached
line has a place, whether the innermost check waits for the input, and whether a
check that goes on is finished or has to wait.
-/

namespace Breakpoints

/-- What a check does once the input is there; nothing if it waits for another. -/
def Dialogue.Waiting.resumed? : Waiting Bool → Input → Option (Dialogue Bool)
  | .evaluation _ next, .evaluated outcome => some (next outcome)
  | .display _ next, .displayed outcome => some (next outcome)
  | _, _ => none

/-- Whether an input is an answer of the guest. -/
def Input.isAnswer : Input → Bool
  | .evaluated _ | .displayed _ => true
  | _ => false

namespace Session

/-- Whether the innermost check waits for the input. -/
def awaits (s : Session) (input : Input) : Bool :=
  s.suspended.head?.any fun check => (check.waiting.resumed? input).isSome

variable {s : Session} {input : Input} {check : SuspendedCheck} {outer : List SuspendedCheck}
  {d : Dialogue Bool}

/-! ## Going on with a check -/

section Proceeding

variable {debugger : Debugger} {suspended : List SuspendedCheck} {place : Debugger.Place}

theorem proceed_of_finished {pause : Bool}
    (h : (d.proceed place.table place.line debugger.registry.tables).standing = .finished pause) :
    let progress := d.proceed place.table place.line debugger.registry.tables
    proceed debugger suspended place d =
      ⟨⟨debugger.withTables progress.tables, suspended⟩, progress.events, some (.line pause)⟩ := by
  simp only [proceed, h]

theorem proceed_of_waiting {waiting : Dialogue.Waiting Bool}
    (h : (d.proceed place.table place.line debugger.registry.tables).standing = .waiting waiting) :
    let progress := d.proceed place.table place.line debugger.registry.tables
    proceed debugger suspended place d =
      ⟨⟨debugger.withTables progress.tables, ⟨place, waiting⟩ :: suspended⟩, progress.events,
        none⟩ := by
  simp only [proceed, h]

/-- A check that has nothing to check is finished at once. -/
theorem proceed_done (debugger : Debugger) (suspended : List SuspendedCheck)
    (place : Debugger.Place) (pause : Bool) :
    proceed debugger suspended place (.done pause) =
      ⟨⟨debugger, suspended⟩, [], some (.line pause)⟩ := rfl

theorem debugger_proceed (debugger : Debugger) (suspended : List SuspendedCheck)
    (place : Debugger.Place) (d : Dialogue Bool) :
    (proceed debugger suspended place d).session.debugger =
      debugger.withTables (d.proceed place.table place.line debugger.registry.tables).tables := by
  cases hstand : (d.proceed place.table place.line debugger.registry.tables).standing with
  | finished pause => rw [proceed_of_finished hstand]
  | waiting waiting => rw [proceed_of_waiting hstand]

theorem events_proceed (debugger : Debugger) (suspended : List SuspendedCheck)
    (place : Debugger.Place) (d : Dialogue Bool) :
    (proceed debugger suspended place d).events =
      (d.proceed place.table place.line debugger.registry.tables).events := by
  cases hstand : (d.proceed place.table place.line debugger.registry.tables).standing with
  | finished pause => rw [proceed_of_finished hstand]
  | waiting waiting => rw [proceed_of_waiting hstand]

/-- The check waits on top of the others, or it is finished. -/
theorem suspended_proceed (debugger : Debugger) (suspended : List SuspendedCheck)
    (place : Debugger.Place) (d : Dialogue Bool) :
    (∃ waiting, (d.proceed place.table place.line debugger.registry.tables).standing =
        .waiting waiting ∧
      (proceed debugger suspended place d).session.suspended = ⟨place, waiting⟩ :: suspended) ∨
    (proceed debugger suspended place d).session.suspended = suspended := by
  cases hstand : (d.proceed place.table place.line debugger.registry.tables).standing with
  | finished pause => exact .inr (by rw [proceed_of_finished hstand])
  | waiting waiting => exact .inl ⟨waiting, rfl, by rw [proceed_of_waiting hstand]⟩

end Proceeding

/-! ## Lines -/

variable {frame : Frame}

theorem step_line_of_none (h : (s.debugger.locate frame).place = none) :
    s.step (.line frame) =
      ⟨⟨(s.debugger.locate frame).debugger, s.suspended⟩, (s.debugger.locate frame).events,
        some (.line false)⟩ := by
  simp only [step]
  generalize s.debugger.locate frame = located at h
  obtain ⟨place?, debugger, events⟩ := located
  cases h
  rfl

theorem step_line_of_some {place : Debugger.Place}
    (h : (s.debugger.locate frame).place = some place) :
    s.step (.line frame) =
      { proceed (s.debugger.locate frame).debugger s.suspended place
          ((s.debugger.locate frame).debugger.check place) with
        events := (s.debugger.locate frame).events ++
          (proceed (s.debugger.locate frame).debugger s.suspended place
            ((s.debugger.locate frame).debugger.check place)).events } := by
  simp only [step]
  generalize s.debugger.locate frame = located at h
  obtain ⟨place?, debugger, events⟩ := located
  cases h
  rfl

/-! ## Answers -/

theorem awaits_cons (hs : s.suspended = check :: outer) :
    s.awaits input = (check.waiting.resumed? input).isSome := by
  simp [awaits, hs]

theorem step_of_resumed (hs : s.suspended = check :: outer)
    (hd : check.waiting.resumed? input = some d) :
    s.step input = proceed s.debugger outer check.place d := by
  obtain ⟨place, w⟩ := check
  cases w with
  | evaluation script next =>
    cases input with
    | evaluated outcome =>
      cases hd
      simp only [step, hs]
    | _ => cases hd
  | display value next =>
    cases input with
    | displayed outcome =>
      cases hd
      simp only [step, hs]
    | _ => cases hd

theorem step_of_not_awaits (h : s.awaits input = false) (hanswer : input.isAnswer = true) :
    s.step input = ⟨s, [], none⟩ := by
  cases hs : s.suspended with
  | nil =>
    cases input with
    | evaluated | displayed => simp only [step, hs]
    | _ => cases hanswer
  | cons check outer =>
    obtain ⟨place, w⟩ := check
    rw [awaits_cons hs] at h
    cases w with
    | evaluation =>
      cases input with
      | evaluated => cases h
      | displayed => simp only [step, hs]
      | _ => cases hanswer
    | display =>
      cases input with
      | displayed => cases h
      | evaluated => simp only [step, hs]
      | _ => cases hanswer

/-- An answer resumes the innermost check, or nothing waits for it. -/
theorem step_answer (s : Session) (h : input.isAnswer = true) :
    (∃ check outer d, s.suspended = check :: outer ∧ check.waiting.resumed? input = some d ∧
      s.step input = proceed s.debugger outer check.place d) ∨
    (s.awaits input = false ∧ s.step input = ⟨s, [], none⟩) := by
  cases hawaits : s.awaits input with
  | false => exact .inr ⟨rfl, step_of_not_awaits hawaits h⟩
  | true =>
    cases hs : s.suspended with
    | nil => simp [awaits, hs] at hawaits
    | cons check outer =>
      rw [awaits_cons hs, Option.isSome_iff_exists] at hawaits
      obtain ⟨d, hd⟩ := hawaits
      exact .inl ⟨check, outer, d, rfl, hd, step_of_resumed hs hd⟩

end Session

end Breakpoints

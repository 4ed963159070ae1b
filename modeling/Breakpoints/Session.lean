import Breakpoints.Debugger

/-!
# Sessions

The guest may use the debugger while it has control, also to have further lines
checked. So checks are suspended, and resumed with the guest's answers, innermost
first. A session is a debugger and its suspended checks; it takes one input after
the other, and every state in which guest code runs is a state between two
inputs.
-/

namespace Breakpoints

/-- A check that waits for the guest. -/
structure SuspendedCheck where
  place : Debugger.Place
  waiting : Dialogue.Waiting Bool

/-- What a session is told. -/
inductive Input where
  /-- There is `room` for some numbers of counted lines. -/
  | setBreakpoints (room : Nat → Bool) (source : Source) (placed : List (Nat × Definition))
  | clearSource (source : Source)
  | clearAll
  /-- A line is reached. -/
  | line (frame : Frame)
  /-- A function is entered or returned to. -/
  | call (frame : Frame)
  /-- What the innermost check's script came to. -/
  | evaluated (outcome : Except Fault (List Value))
  /-- What the innermost check's value is shown as. -/
  | displayed (outcome : Except Fault String)

/-- What a session answers. -/
inductive Answer where
  | line (pause : Bool)
  | call (binding : Option Binding)
  deriving DecidableEq, Repr

/-- A debugger and its suspended checks, innermost first. -/
structure Session where
  debugger : Debugger
  suspended : List SuspendedCheck

namespace Session

def new (config : Config) (pathOf : String → Option String) : Session := ⟨.new config pathOf, []⟩

/-- The outcome of an input. A line is answered once its check is finished. -/
structure Outcome where
  session : Session
  events : List Event
  answer : Option Answer

/-- Goes on with a dialogue about a place. -/
def proceed (debugger : Debugger) (suspended : List SuspendedCheck) (place : Debugger.Place)
    (dialogue : Dialogue Bool) : Outcome :=
  let progress := dialogue.proceed place.table place.line debugger.registry.tables
  let debugger := debugger.withTables progress.tables
  match progress.standing with
  | .finished pause => ⟨⟨debugger, suspended⟩, progress.events, some (.line pause)⟩
  | .waiting waiting => ⟨⟨debugger, ⟨place, waiting⟩ :: suspended⟩, progress.events, none⟩

/-- One input. An answer that no check waits for is ignored. -/
def step (s : Session) : Input → Outcome
  | .setBreakpoints room source placed =>
    ⟨{ s with debugger := s.debugger.setBreakpoints room source placed },
      (Debugger.setNotices room source placed s.debugger.registry).map .noted, none⟩
  | .clearSource source =>
    ⟨{ s with debugger := s.debugger.clearSource source },
      (s.debugger.registry.clearSourceNotices source).map .noted, none⟩
  | .clearAll =>
    ⟨{ s with debugger := s.debugger.clearAll }, s.debugger.clearAllNotices.map .noted, none⟩
  | .line frame =>
    match s.debugger.locate frame with
    | ⟨none, debugger, events⟩ => ⟨{ s with debugger }, events, some (.line false)⟩
    | ⟨some place, debugger, events⟩ =>
      let outcome := proceed debugger s.suspended place (debugger.check place)
      { outcome with events := events ++ outcome.events }
  | .call frame =>
    let resolution := s.debugger.resolve frame
    ⟨{ s with debugger := s.debugger.resolved frame }, resolution.events,
      some (.call resolution.binding)⟩
  | .evaluated outcome =>
    match s.suspended with
    | ⟨place, .evaluation _ next⟩ :: outer => proceed s.debugger outer place (next outcome)
    | _ => ⟨s, [], none⟩
  | .displayed outcome =>
    match s.suspended with
    | ⟨place, .display _ next⟩ :: outer => proceed s.debugger outer place (next outcome)
    | _ => ⟨s, [], none⟩

/-- The session after some inputs. -/
def after (s : Session) (inputs : List Input) : Session :=
  inputs.foldl (fun s input => (s.step input).session) s

/-- The outcomes of some inputs, in order. -/
def outcomes (s : Session) : List Input → List Outcome
  | [] => []
  | input :: rest => s.step input :: (s.step input).session.outcomes rest

@[simp] theorem after_nil (s : Session) : s.after [] = s := rfl

@[simp] theorem after_cons (s : Session) (input : Input) (rest : List Input) :
    s.after (input :: rest) = (s.step input).session.after rest := rfl

theorem after_append (s : Session) (xs ys : List Input) :
    s.after (xs ++ ys) = (s.after xs).after ys := List.foldl_append

/-- What every input keeps, every run keeps. -/
theorem after_induction {P : Session → Prop} (step : ∀ s input, P s → P (s.step input).session)
    {s : Session} (h : P s) (inputs : List Input) : P (s.after inputs) := by
  induction inputs generalizing s with
  | nil => exact h
  | cons input rest ih => exact ih (step s input h)

end Session

end Breakpoints

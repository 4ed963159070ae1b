import Breakpoints.Proofs.Guarded.Debugger
import Breakpoints.Proofs.Registry.Counts
import Breakpoints.Proofs.Session.History
import Breakpoints.Proofs.Session.Reports

/-!
# Nothing panics

A session whose steps are programs keeps what is lent from one step to the next, so a step
that is taken while the guest has control finds what the suspended checks left lent. It
never panics: each of its steps comes to what the plain session's step comes to
(`Session.guarded_take`), whatever the nesting, and nothing is lent whenever the guest has
control or something is written (`never_panics`).
-/

namespace Breakpoints

/-- What the host or the guest asks for, at any time. -/
inductive Call where
  | tell (input : Input)
  | ask (query : Query)

/-- What comes back of a call at once. -/
inductive Response where
  | nothing
  | answered (answer : Answer)
  | found (finding : Finding)
  deriving DecidableEq, Repr

/-- What comes back of an input. -/
def Response.ofAnswer : Option Answer → Response
  | none => nothing
  | some answer => answered answer

namespace Session

/-- The outcome of a call. -/
structure Taken where
  session : Session
  events : List Event
  response : Response

/-- One call. A question changes nothing. -/
def take (s : Session) : Call → Taken
  | .tell input =>
    let outcome := s.step input
    ⟨outcome.session, outcome.events, .ofAnswer outcome.answer⟩
  | .ask query => ⟨s, [], .found (query.finding s.debugger)⟩

/-- The outcomes of some calls, in order. -/
def takeAll (s : Session) : List Call → List Taken
  | [] => []
  | call :: rest => s.take call :: (s.take call).session.takeAll rest

end Session

namespace Guarded

variable {α β : Type}

/-- A program that waits turns its result into another in the end. -/
def Waiting.map (f : α → β) : Waiting α → Waiting β
  | .evaluation script next => .evaluation script fun outcome => (next outcome).bind (done ∘ f)
  | .display value next => .display value fun outcome => (next outcome).bind (done ∘ f)

def Standing.map (f : α → β) : Standing α → Standing β
  | .finished result => .finished (f result)
  | .waiting w => .waiting (w.map f)

def Progress.map (f : α → β) (p : Progress α) : Progress β :=
  ⟨p.machine, p.seen, p.standing.map f⟩

theorem proceed_map (p : Guarded α) (f : α → β) (m : Machine) :
    (p.bind (done ∘ f)).proceed m = (p.proceed m).map (Progress.map f) := by
  induction p generalizing m with
  | done | panic | evaluate | display => rfl
  | share c next ih | hold c next ih =>
    simp only [bind, proceed, ih]
    split <;> rfl
  | unshare c next ih | release c content next ih =>
    simp only [bind, proceed, ih]
    split <;> rfl
  | newTable next ih => exact ih _ _
  | tell e next ih =>
    simp only [bind, proceed, ih]
    cases next.proceed m <;> rfl

/-- What a program does once the input is there; nothing if it waits for another. -/
def Waiting.resumed? : Waiting α → Input → Option (Guarded α)
  | .evaluation _ next, .evaluated outcome => some (next outcome)
  | .display _ next, .displayed outcome => some (next outcome)
  | _, _ => none

/-- Where nothing is shown among the events, no sighting is of a shown one. -/
theorem not_shown_of_mem {seen : List Sighting} {events : List Event} {sighting : Sighting}
    (hevents : seen.map (·.event) = events) (hshown : events.filter Event.shown = [])
    (h : sighting ∈ seen) : ¬sighting.event.shown = true := by
  have hmem : sighting.event ∈ events := hevents ▸ List.mem_map_of_mem h
  exact List.filter_eq_nil_iff.1 hshown _ hmem

end Guarded

/-- An input as a program. An answer that nothing waits for is ignored. -/
def Input.program (config : Config) (pathOf : String → Option String) : Input → Guarded Response
  | .setBreakpoints room source placed =>
    (Guarded.setBreakpoints room source placed).bind fun _ => .done .nothing
  | .clearSource source => (Guarded.clearSourceOf source).bind fun _ => .done .nothing
  | .clearAll => Guarded.clearAll.bind fun _ => .done .nothing
  | .line frame =>
    (Guarded.line config pathOf frame).bind (.done ∘ fun pause => .answered (.line pause))
  | .call frame =>
    (Guarded.resolveFunction config pathOf frame).bind fun b => .done (.answered (.call b))
  | .evaluated _ | .displayed _ => .done .nothing

/-- A session whose steps are programs: the machine and the programs that wait for the guest,
innermost first. -/
structure GuardedSession where
  machine : Machine
  suspended : List (Guarded.Waiting Response)

namespace GuardedSession

def new (config : Config) (pathOf : String → Option String) : GuardedSession :=
  ⟨⟨.new config pathOf, []⟩, []⟩

/-- The outcome of a call. -/
structure Taken where
  session : GuardedSession
  seen : List Sighting
  response : Response

/-- Runs a program until the guest has control or the response is there. -/
def run (m : Machine) (suspended : List (Guarded.Waiting Response)) (p : Guarded Response) :
    Except Panic Taken :=
  (p.proceed m).map fun progress =>
    match progress.standing with
    | .finished response => ⟨⟨progress.machine, suspended⟩, progress.seen, response⟩
    | .waiting w => ⟨⟨progress.machine, w :: suspended⟩, progress.seen, .nothing⟩

/-- One call. An answer of the guest resumes the innermost program. -/
def take (s : GuardedSession) : Call → Except Panic Taken
  | .tell input =>
    let program := input.program s.machine.debugger.config s.machine.debugger.pathOf
    match s.suspended with
    | [] => run s.machine [] program
    | w :: outer =>
      match w.resumed? input with
      | some resumed => run s.machine outer resumed
      | none => run s.machine (w :: outer) program
  | .ask query => run s.machine s.suspended (query.program.bind fun f => .done (.found f))

/-- The outcomes of some calls, in order. -/
def takeAll (s : GuardedSession) : List Call → Except Panic (List Taken)
  | [] => .ok []
  | call :: rest => do
    let taken ← s.take call
    let others ← taken.session.takeAll rest
    return taken :: others

end GuardedSession

/-- What a line's check comes to. -/
def Response.ofPause (pause : Bool) : Response := .answered (.line pause)

/-- A suspended check as a program that waits. -/
def SuspendedCheck.guarded (check : SuspendedCheck) : Guarded.Waiting Response :=
  (check.waiting.guarded check.place.table check.place.line).map .ofPause

/-- The session with its checks as programs, and nothing lent. -/
def Session.guarded (s : Session) : GuardedSession :=
  ⟨⟨s.debugger, []⟩, s.suspended.map SuspendedCheck.guarded⟩

/-- The steps come to the same, nothing is lent afterwards, and nothing is lent when the guest
is given control or something is written. -/
structure GuardedSession.Taken.Matches (o : GuardedSession.Taken) (o' : Session.Taken) :
    Prop where
  session : o.session = o'.session.guarded
  events : o.seen.map (·.event) = o'.events
  response : o.response = o'.response
  unlent : ∀ sighting ∈ o.seen, sighting.event.shown = true → sighting.loans = []

namespace GuardedSession

open Guarded (sightings)

variable {d d' : Debugger} {seen : List Sighting} {suspended : List (Guarded.Waiting Response)}

/-- A program that does not wait ends the call. -/
theorem run_of_runs {p : Guarded Response} {response : Response}
    (h : p.Runs [] d response d' seen) (suspended : List (Guarded.Waiting Response)) :
    run ⟨d, []⟩ suspended p = .ok ⟨⟨⟨d', []⟩, suspended⟩, seen, response⟩ := by
  have hproceed : p.proceed ⟨d, []⟩ = .ok ⟨⟨d', []⟩, seen, .finished response⟩ := h
  rw [run, hproceed]
  rfl

/-- What is not an answer of the guest is taken in any state alike. -/
theorem take_of_not_answer {input : Input} (h : input.isAnswer = false) (s : GuardedSession) :
    s.take (.tell input) = run s.machine s.suspended
      (input.program s.machine.debugger.config s.machine.debugger.pathOf) := by
  obtain ⟨machine, suspended⟩ := s
  cases suspended with
  | nil => rfl
  | cons w outer =>
    have hnone : w.resumed? input = none := by
      cases w <;> cases input <;> first | rfl | cases h
    simp only [take, hnone]

/-- The check of a line that goes on like a dialogue ends the call like the dialogue. -/
theorem run_of_proceed {p : Guarded Bool} {m : Machine} {debugger : Debugger}
    {place : Debugger.Place} {dialogue : Dialogue Bool} {earlier : List Event}
    (h : let progress := dialogue.proceed place.table place.line debugger.registry.tables
      p.proceed m = .ok ⟨⟨debugger.withTables progress.tables, []⟩,
        seen ++ sightings [] progress.events, progress.standing.guarded place.table place.line⟩)
    (hevents : seen.map (·.event) = earlier) (hshown : earlier.filter Event.shown = [])
    (outer : List SuspendedCheck) :
    let outcome := Session.proceed debugger outer place dialogue
    ∃ o, run m (outer.map SuspendedCheck.guarded) (p.bind (.done ∘ .ofPause)) = .ok o ∧
      o.Matches ⟨outcome.session, earlier ++ outcome.events, .ofAnswer outcome.answer⟩ := by
  intro outcome
  have hunlent : ∀ events, ∀ sighting ∈ seen ++ sightings [] events,
      sighting.event.shown = true → sighting.loans = [] := by
    intro events sighting hsighting hshows
    rcases List.mem_append.1 hsighting with hseen | hseen
    · exact absurd hshows (Guarded.not_shown_of_mem hevents hshown hseen)
    · obtain ⟨e, -, rfl⟩ := List.mem_map.1 hseen
      rfl
  have hmap (events : List Event) :
      (seen ++ sightings [] events).map (·.event) = earlier ++ events := by
    rw [List.map_append, hevents, Guarded.event_sightings]
  rw [run, Guarded.proceed_map, h]
  cases hstand : (dialogue.proceed place.table place.line debugger.registry.tables).standing with
  | finished pause =>
    refine ⟨_, rfl, ?_⟩
    simp only [outcome, Session.proceed_of_finished hstand]
    exact ⟨rfl, hmap _, rfl, hunlent _⟩
  | waiting waiting =>
    refine ⟨_, rfl, ?_⟩
    simp only [outcome, Session.proceed_of_waiting hstand]
    exact ⟨rfl, hmap _, rfl, hunlent _⟩

end GuardedSession

namespace Session

open Guarded (sightings)
open GuardedSession (run run_of_runs run_of_proceed take_of_not_answer)

variable {s : Session} {history : List Event}

/-- A program that does not wait and writes nothing does what the input does. -/
theorem matches_of_runs {p : Guarded Response} {response : Response} {d : Debugger}
    {seen : List Sighting} {events : List Event}
    (h : p.Runs [] s.debugger response d seen) (hevents : seen.map (·.event) = events)
    (hshown : events.filter Event.shown = []) :
    ∃ o, run s.guarded.machine s.guarded.suspended p = .ok o ∧
      o.Matches ⟨{ s with debugger := d }, events, response⟩ := by
  refine ⟨_, run_of_runs h _, rfl, hevents, rfl, fun sighting hsighting hshows => ?_⟩
  exact absurd hshows (Guarded.not_shown_of_mem hevents hshown hsighting)

/-- A line is reached. -/
theorem guarded_take_line (s : Session) (frame : Frame) :
    ∃ o, s.guarded.take (.tell (.line frame)) = .ok o ∧
      o.Matches (s.take (.tell (.line frame))) := by
  obtain ⟨seen, hevents, hline⟩ := Guarded.proceed_line s.debugger frame
  have hshown := s.debugger.filter_shown_locate frame
  rw [take_of_not_answer rfl]
  cases hplace : (s.debugger.locate frame).place with
  | none =>
    simp only [hplace] at hline
    simp only [take, step_line_of_none hplace]
    exact matches_of_runs (hline.map Response.ofPause) hevents hshown
  | some place =>
    simp only [hplace] at hline
    simp only [take, step_line_of_some hplace]
    have hcheck := Guarded.proceed_check s.debugger.config.channel
      (s.debugger.locate frame).debugger place.table place.line
    have hsame : (s.debugger.locate frame).debugger.check place =
        (s.debugger.locate frame).debugger.registry.check s.debugger.config.channel place.table
          place.line := by
      rw [Debugger.check, (s.debugger.sameSettings_locate frame).config]
    rw [hcheck, ← hsame] at hline
    exact run_of_proceed hline hevents hshown s.suspended

/-- The guest answers. -/
theorem guarded_take_answer (s : Session) {input : Input} (hanswer : input.isAnswer = true) :
    ∃ o, s.guarded.take (.tell input) = .ok o ∧ o.Matches (s.take (.tell input)) := by
  rcases s.step_answer hanswer with ⟨check, outer, d, hs, hd, hstep⟩ | ⟨hawaits, hstep⟩
  · have hresumed : check.guarded.resumed? input =
        some ((d.guarded check.place.table check.place.line).bind (.done ∘ .ofPause)) := by
      obtain ⟨place, w⟩ := check
      cases w <;> cases input <;> cases hd <;> rfl
    have hgoesOn : s.guarded.take (.tell input) =
        run ⟨s.debugger, []⟩ (outer.map SuspendedCheck.guarded)
          ((d.guarded check.place.table check.place.line).bind (.done ∘ .ofPause)) := by
      simp only [GuardedSession.take, Session.guarded, hs, List.map_cons, hresumed]
    have hproceed :
        let progress := d.proceed check.place.table check.place.line s.debugger.registry.tables
        (d.guarded check.place.table check.place.line).proceed ⟨s.debugger, []⟩ =
          .ok ⟨⟨s.debugger.withTables progress.tables, []⟩, [] ++ sightings [] progress.events,
            progress.standing.guarded check.place.table check.place.line⟩ :=
      Dialogue.proceed_guarded d s.debugger
    rw [hgoesOn]
    simp only [take, hstep]
    exact run_of_proceed hproceed List.map_nil List.filter_nil outer
  · have hignored : s.guarded.take (.tell input) =
        run s.guarded.machine s.guarded.suspended (.done .nothing) := by
      have hprogram (config : Config) (pathOf : String → Option String) :
          input.program config pathOf = .done .nothing := by
        cases input <;> first | rfl | cases hanswer
      simp only [GuardedSession.take, Session.guarded, hprogram]
      cases hs : s.suspended with
      | nil => rfl
      | cons check outer =>
        have hnone : check.guarded.resumed? input = none := by
          rw [awaits_cons hs] at hawaits
          obtain ⟨place, w⟩ := check
          cases w <;> cases input <;> first | rfl | cases hawaits
        simp only [List.map_cons, hnone]
    rw [hignored]
    simp only [take, hstep]
    exact matches_of_runs (Guarded.runs_done ..) List.map_nil List.filter_nil

/-- **Every step comes to what it should** and panics in no state that arises, provided that
there are fewer sources afterwards than can be counted. -/
theorem guarded_take (h : s.Recorded .empty history) (call : Call)
    (hmany : (s.take call).session.debugger.sourceCount < LineCounts.countLimit) :
    ∃ o, s.guarded.take call = .ok o ∧ o.Matches (s.take call) := by
  have hw : s.debugger.registry.WellFormed := h.arises.wellFormed
  have he : s.debugger.registry.Exact := h.arises.exact
  cases call with
  | ask query =>
    exact matches_of_runs ((Guarded.runs_query s.debugger hmany query).map _) List.map_nil
      List.filter_nil
  | tell input =>
    cases input with
    | setBreakpoints room source placed =>
      have hrun := Guarded.runs_setBreakpoints hw he room source placed hmany
      rw [take_of_not_answer rfl]
      exact matches_of_runs (hrun.map fun _ => Response.nothing) (Guarded.event_sightings ..)
        (filter_shown_noted _)
    | clearSource source =>
      have hrun := Guarded.runs_clearSourceOf he source
      rw [take_of_not_answer rfl]
      exact matches_of_runs (hrun.map fun _ => Response.nothing) (Guarded.event_sightings ..)
        (filter_shown_noted _)
    | clearAll =>
      have hrun := Guarded.runs_clearAll s.debugger
      rw [take_of_not_answer rfl]
      refine matches_of_runs (hrun.map fun _ => Response.nothing) ?_ (filter_shown_noted _)
      rw [List.map_append, Guarded.event_sightings, Guarded.event_sightings]
      rfl
    | call frame =>
      have hrun := Guarded.runs_resolveFunction s.debugger frame
      rw [take_of_not_answer rfl]
      exact matches_of_runs (hrun.map fun b => Response.answered (.call b))
        (Guarded.event_sightings ..) (s.debugger.filter_shown_resolve frame)
    | line frame => exact s.guarded_take_line frame
    | evaluated | displayed => exact s.guarded_take_answer rfl

theorem Recorded.take (h : s.Recorded .empty history) (call : Call) :
    ∃ history', (s.take call).session.Recorded .empty history' := by
  cases call with
  | tell input => exact ⟨_, h.step input⟩
  | ask query => exact ⟨history, h⟩

theorem guarded_takeAll (h : s.Recorded .empty history) {calls : List Call}
    (hmany : ∀ taken ∈ s.takeAll calls,
      taken.session.debugger.sourceCount < LineCounts.countLimit) :
    ∃ os, s.guarded.takeAll calls = .ok os ∧
      List.Forall₂ GuardedSession.Taken.Matches os (s.takeAll calls) := by
  induction calls generalizing s history with
  | nil => exact ⟨[], rfl, .nil⟩
  | cons call rest ih =>
    obtain ⟨o, htake, hmatches⟩ := guarded_take h call (hmany _ List.mem_cons_self)
    obtain ⟨history', hrecorded⟩ := h.take call
    obtain ⟨os, hrest, hall⟩ := ih hrecorded fun taken htaken =>
      hmany taken (List.mem_cons_of_mem _ htaken)
    refine ⟨o :: os, ?_, .cons hmatches hall⟩
    rw [GuardedSession.takeAll, htake]
    show (do let others ← o.session.takeAll rest; return o :: others) = _
    rw [hmatches.session, hrest]
    rfl

end Session

theorem GuardedSession.Taken.exists_matches {os : List GuardedSession.Taken}
    {taken : List Session.Taken} (h : List.Forall₂ GuardedSession.Taken.Matches os taken) :
    ∀ o ∈ os, ∃ o', o.Matches o' := by
  induction h with
  | nil => simp
  | cons hmatches _ ih => exact List.forall_mem_cons.2 ⟨⟨_, hmatches⟩, ih⟩

/-- **Nothing panics.** Whatever is asked for in whatever order, at any time at which the guest
has control: no cell is taken in a way that conflicts with how it is lent, no check of a count
or of a position fails, and every call comes to what it should, as long as there are never
more sources than can be counted. Nothing is lent between the calls, nor when the guest is
given control or something is written. -/
theorem GuardedSession.never_panics (config : Config) (pathOf : String → Option String)
    (calls : List Call)
    (hmany : ∀ taken ∈ (Session.new config pathOf).takeAll calls,
      taken.session.debugger.sourceCount < 2 ^ 32) :
    ∃ os, (new config pathOf).takeAll calls = .ok os ∧
      List.Forall₂ Taken.Matches os ((Session.new config pathOf).takeAll calls) ∧
      ∀ o ∈ os, o.session.machine.loans = [] ∧
        ∀ sighting ∈ o.seen, sighting.event.shown = true → sighting.loans = [] := by
  obtain ⟨os, hos, hall⟩ :=
    Session.guarded_takeAll (Session.recorded_new config pathOf) hmany
  refine ⟨os, hos, hall, fun o ho => ?_⟩
  obtain ⟨taken, hmatches⟩ := Taken.exists_matches hall o ho
  exact ⟨by rw [hmatches.session, Session.guarded], hmatches.unlent⟩

/-- While its condition is evaluated, the guest sets another breakpoint, has both lines
checked, asks, and removes everything. -/
theorem GuardedSession.never_panics_nested :
    let room : Nat → Bool := fun n => n ≤ 100
    let file := Source.path "a.lua"
    let calls : List Call := [
      .tell (.setBreakpoints room file [(3, { condition := some "f()" })]),
      .tell (.line (.inFile "a.lua" 1 3)),
      .tell (.setBreakpoints room file [(7, {}), (3, { condition := some "g()" })]),
      .tell (.line (.inFile "a.lua" 2 7)),
      .tell (.line (.inFile "a.lua" 1 3)),
      .ask (.hits file 7),
      .tell .clearAll,
      .ask .sourceCount,
      .tell (.evaluated (.ok [.boolean true])),
      .tell (.evaluated (.ok [.boolean true]))]
    (∀ taken ∈ (Session.new {} chunkPath).takeAll calls,
      taken.session.debugger.sourceCount < 2 ^ 32) ∧
    ∃ os, (new {} chunkPath).takeAll calls = .ok os ∧
      List.Forall₂ Taken.Matches os ((Session.new {} chunkPath).takeAll calls) ∧
      os.map (·.response) = [.nothing, .nothing, .nothing, .answered (.line true), .nothing,
        .found (.hits (some 1)), .nothing, .found (.count 0), .answered (.line false),
        .answered (.line false)] ∧
      ∀ o ∈ os, o.session.machine.loans = [] ∧
        ∀ sighting ∈ o.seen, sighting.event.shown = true → sighting.loans = [] := by
  intro room file calls
  have hmany : ∀ taken ∈ (Session.new {} chunkPath).takeAll calls,
      taken.session.debugger.sourceCount < 2 ^ 32 := by decide +kernel
  obtain ⟨os, hos, hall, hunlent⟩ := never_panics {} chunkPath calls hmany
  have hresponses : os.map (·.response) =
      ((Session.new {} chunkPath).takeAll calls).map (·.response) := by
    have hsame := hall.imp fun o o' hmatches => hmatches.response
    rw [← List.forall₂_eq_eq_eq, List.forall₂_map_left_iff, List.forall₂_map_right_iff]
    exact hsame
  refine ⟨hmany, os, hos, hall, hresponses.trans ?_, hunlent⟩
  decide +kernel

end Breakpoints

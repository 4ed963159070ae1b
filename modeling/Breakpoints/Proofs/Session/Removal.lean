import Breakpoints.Proofs.Session.Hits
import Breakpoints.Proofs.Session.Reports
import Breakpoints.Proofs.Session.Sharing

/-!
# Breakpoints removed while their condition is evaluated

Whether a check has a hit to count is seen once its condition has been evaluated, from
what its table holds by then. Clearing everything takes the table away from its source
for good, so whatever is set afterwards does not reach the check (`get_after_of_cleared`).
Clearing the source leaves it the table, so a breakpoint that is set anew at the same line
is one for the check to hit (`removed_meanwhile`).
-/

namespace Breakpoints.Session

open Dialogue (Waiting)

variable {s : Session} {history : List Event} {frame : Frame} {place : Debugger.Place}
  {b : Breakpoint} {source : Source} {id : TableId} {past : List Input}

/-! ## Tables during an evaluation -/

theorem precedes_step (s : Session) (input : Input) :
    s.debugger.registry.Precedes (s.step input).session.debugger.registry := by
  cases hclears : input.clears with
  | false => exact (extends_step s hclears).precedes
  | true =>
    cases input with
    | clearAll => exact Registry.precedes_clear _
    | _ => cases hclears

theorem precedes_after (s : Session) (past : List Input) :
    s.debugger.registry.Precedes (s.after past).debugger.registry := by
  induction past generalizing s with
  | nil => exact .refl _
  | cons input rest ih => exact (s.precedes_step input).trans (ih _)

theorem find?_after_of_not_cleared (hs : s.debugger.registry.find? source = some id)
    (h : .clearAll ∉ past) : (s.after past).debugger.registry.find? source = some id := by
  induction past generalizing s with
  | nil => exact hs
  | cons input rest ih =>
    obtain ⟨hinput, hrest⟩ := not_or.1 (mt List.mem_cons.2 h)
    have hclears : input.clears = false := by
      cases input with
      | clearAll => exact absurd rfl hinput
      | _ => rfl
    exact ih ((extends_step s hclears).keeps source id hs) hrest

/-- Once everything was cleared, a table that was there before is empty and stays so. -/
theorem Recorded.get_after_of_cleared (h : s.Recorded .empty history)
    (hs : s.debugger.registry.find? source = some id) (hcleared : .clearAll ∈ past) :
    (s.after past).debugger.registry.tables.get id = .empty := by
  obtain ⟨front, back, rfl⟩ := List.append_of_mem hcleared
  have hfinal := (h.after (front ++ .clearAll :: back)).arises.wellFormed
  rw [after_append, after_cons] at hfinal ⊢
  have hmade := (s.precedes_after front).made (h.arises.wellFormed.made hs)
  have hlater := (((s.after front).step .clearAll).session).precedes_after back
  -- No source can have the table: it would have had it when everything was just cleared.
  refine hfinal.bare fun s' hs' => ?_
  have howner := hlater.owner ((Registry.precedes_clear _).made hmade) hs'
  cases howner

/-- The table of a source holds a breakpoint at a line later if nothing took the table
away and the source has a breakpoint there. -/
theorem Recorded.holds_after_iff (h : s.Recorded .empty history)
    (hs : s.debugger.registry.find? source = some id) (line : Nat) (past : List Input) :
    ((s.after past).debugger.registry.tables.get id).holds line = true ↔
      .clearAll ∉ past ∧ ((s.after past).debugger.registry.contents source).holds line = true := by
  by_cases hcleared : .clearAll ∈ past
  · rw [h.get_after_of_cleared hs hcleared]
    exact iff_of_false Bool.false_ne_true fun hnot => hnot.1 hcleared
  · rw [Registry.contents_of_find? (find?_after_of_not_cleared hs hcleared)]
    exact ⟨fun hholds => ⟨hcleared, hholds⟩, And.right⟩

/-! ## The second turn of a check -/

/-- A check that waits for its condition goes on with the outcome. If this finishes it,
there is no turn after that. -/
theorem turn_of_evaluation {script : String} {next : Except Fault (List Value) → Dialogue Bool}
    {rest : List Input} {outcome : Except Fault (List Value)} {later : List Turn}
    (hs : (s.step (.line frame)).session.suspended =
      [] ++ ⟨place, .evaluation script next⟩ :: s.suspended)
    (hturns : s.callTurns frame rest = ⟨[], .line frame⟩ :: ⟨past, .evaluated outcome⟩ :: later) :
    s.turn ⟨past, .evaluated outcome⟩ =
      proceed (s.after past).debugger s.suspended place (next outcome) ∧
    ∀ pause, ((next outcome).proceed place.table place.line
      (s.after past).debugger.registry.tables).standing = .finished pause → later = [] := by
  rcases turns_eq hs rest with hnone | ⟨past', input, rest', d, hanswered, hd, heq⟩
  · rw [callTurns, hnone] at hturns
    cases hturns
  · rw [callTurns, heq, List.map_cons, List.cons.injEq, List.cons.injEq] at hturns
    obtain ⟨-, hturn, rfl⟩ := hturns
    -- The turn given is the one in which the outcome is taken up.
    cases hturn
    cases hd
    have hturn : s.turn ⟨.line frame :: past', .evaluated outcome⟩ =
        proceed (s.after (.line frame :: past')).debugger s.suspended place (next outcome) :=
      step_of_resumed hanswered rfl
    refine ⟨hturn, fun pause hfinished => ?_⟩
    have hlast := hturn.trans (proceed_of_finished hfinished)
    have hsuspended : (((s.step (.line frame)).session.after past').step
        (.evaluated outcome)).session.suspended.length = s.suspended.length :=
      congrArg (fun o => o.session.suspended.length) hlast
    rw [turns_of_finished (Nat.le_of_eq hsuspended)]
    rfl

/-- A check whose condition does not hold, or whose table holds no breakpoint any more, is
finished at once, and only reports something. -/
theorem proceed_checkOnceEvaluated (b : Breakpoint) (channel : Channel) (condition : String)
    {outcome : Except Fault (List Value)} {ts : Tables}
    (h : ¬((∃ values, outcome = .ok values ∧ values.head?.any Value.isTrue = true) ∧
      (ts.get place.table).holds place.line = true)) :
    ∃ notices : List Notice,
      (b.checkOnceEvaluated channel place.line condition outcome).proceed place.table place.line
        ts = ⟨ts, notices.map .noted, .finished false⟩ := by
  cases outcome with
  | error fault => exact ⟨[.predicateFailed condition fault], rfl⟩
  | ok values =>
    simp only [Breakpoint.checkOnceEvaluated]
    cases htrue : values.head?.any Value.isTrue with
    | false => exact ⟨[], rfl⟩
    | true =>
      cases held : (ts.get place.table).get? place.line with
      | none => exact ⟨[.removedMeanwhile place.line], b.proceed_gone channel held⟩
      | some b' => exact absurd ⟨⟨values, rfl, htrue⟩, Table.holds_iff.2 ⟨b', held⟩⟩ h

/-- The first turn of a check with a condition. -/
theorem Recorded.first_turn (h : s.Recorded .empty history)
    (hb : s.snapshot? frame = some (place, b)) {condition : String}
    (hcondition : b.condition = some condition) :
    ∃ channel, (s.step (.line frame)).session.suspended =
        [] ++ ⟨place, .evaluation (Template.script condition)
          (b.checkOnceEvaluated channel place.line condition)⟩ :: s.suspended ∧
      (s.step (.line frame)).events =
        (s.debugger.locate frame).events ++ [.evaluated (Template.script condition)] := by
  obtain ⟨hplace, -, hcheck, -⟩ := h.call hb
  rw [step_line_of_some hplace, hcheck, Breakpoint.check_of_conditional _ hcondition]
  exact ⟨_, rfl, rfl⟩

/-- A check that has no hit to count once its condition has been evaluated. -/
theorem Recorded.unhit (h : s.Recorded .empty history)
    (hb : s.snapshot? frame = some (place, b)) {condition : String}
    (hcondition : b.condition = some condition) {rest : List Input}
    {outcome : Except Fault (List Value)} {later : List Turn}
    (hturns : s.callTurns frame rest = ⟨[], .line frame⟩ :: ⟨past, .evaluated outcome⟩ :: later)
    (hnot : ¬((∃ values, outcome = .ok values ∧ values.head?.any Value.isTrue = true) ∧
      ((s.after past).debugger.registry.tables.get place.table).holds place.line = true)) :
    let events := (s.callTurns frame rest).flatMap fun t => (s.turn t).events
    (s.turn ⟨past, .evaluated outcome⟩).answer = some (.line false) ∧ later = [] ∧
      events.countP Event.isHit = 0 ∧
      events.filter Event.shown = [.evaluated (Template.script condition)] := by
  obtain ⟨channel, hsuspended, hfirst⟩ := h.first_turn hb hcondition
  obtain ⟨hturn, hlater⟩ := turn_of_evaluation hsuspended hturns
  obtain ⟨notices, hproceed⟩ := proceed_checkOnceEvaluated b channel condition hnot
  have hstanding := congrArg Dialogue.Progress.standing hproceed
  have hlast := hturn.trans (proceed_of_finished hstanding)
  have hlater := hlater false hstanding
  intro events
  have hevents : events = (s.debugger.locate frame).events ++
      [.evaluated (Template.script condition)] ++ notices.map .noted := by
    simp only [events, hturns, hlater, List.flatMap_cons, List.flatMap_nil, List.append_nil]
    rw [hlast, hproceed]
    exact congrArg (· ++ _) hfirst
  refine ⟨by rw [hlast], hlater, ?_, ?_⟩
  · have hlocated := countP_isHit_eq_zero (s.debugger.silent_locate frame)
    simp [hevents, hlocated, Event.isHit]
  · have hnotices : (notices.map Event.noted).filter Event.shown = [] := by simp [Event.shown]
    rw [hevents, List.filter_append, List.filter_append, s.debugger.filter_shown_locate, hnotices]
    rfl

/-- **What removing a breakpoint during its condition does** to the check of it. Take a
check whose condition has been evaluated. If everything was cleared meanwhile, whatever was
set afterwards, or if the source of the breakpoint has none at the line by then, the check
is finished at once: it answers not to pause, counts no hit on any breakpoint, and shows
nothing but the evaluation of its condition. Otherwise, also if the breakpoint was removed
and another one set at the same line of the source, a hit is counted if the condition
holds. -/
theorem removed_meanwhile (config : Config) (pathOf : String → Option String)
    (before : List Input) {condition : String} {rest : List Input}
    {outcome : Except Fault (List Value)} {later : List Turn}
    (hb : ((new config pathOf).after before).snapshot? frame = some (place, b))
    (hcondition : b.condition = some condition)
    (hturns : ((new config pathOf).after before).callTurns frame rest =
      ⟨[], .line frame⟩ :: ⟨past, .evaluated outcome⟩ :: later) :
    let s := (new config pathOf).after before
    let events := (s.callTurns frame rest).flatMap fun t => (s.turn t).events
    ∃ source, s.debugger.registry.find? source = some place.table ∧
      (s.debugger.registry.contents source).get? place.line = some b ∧
      (.clearAll ∈ past ∨
          ((s.after past).debugger.registry.contents source).holds place.line = false →
        (s.turn ⟨past, .evaluated outcome⟩).answer = some (.line false) ∧ later = [] ∧
          events.countP Event.isHit = 0 ∧
          events.filter Event.shown = [.evaluated (Template.script condition)]) ∧
      (.clearAll ∉ past →
        ((s.after past).debugger.registry.contents source).holds place.line = true →
        (∃ values, outcome = .ok values ∧ values.head?.any Value.isTrue = true) →
          events.countP Event.isHit = 1) := by
  intro s events
  have h : s.Recorded .empty _ := recorded_after config pathOf before
  obtain ⟨-, -, -, source, hsource, hheld⟩ := h.call hb
  have hholds := h.holds_after_iff hsource place.line past
  refine ⟨source, hsource, hheld, fun hremoved => ?_, fun hkept hset htrue => ?_⟩
  · refine h.unhit hb hcondition hturns fun hstrikes => ?_
    obtain ⟨hnot, hset⟩ := hholds.1 hstrikes.2
    rcases hremoved with hcleared | hgone
    · exact hnot hcleared
    · rw [hgone] at hset
      cases hset
  · obtain ⟨values, rfl, hvalues⟩ := htrue
    exact (h.countP_eq_one_iff hb rest).2
      (.inr ⟨past, values, later, hturns, hvalues, hholds.2 ⟨hkept, hset⟩⟩)

/-- The source is cleared while the condition is evaluated. -/
theorem removed_meanwhile_cleared :
    let before := [.setBreakpoints (fun _ => true) (.path "a") [(3, { condition := some "x" })]]
    let s := (new {} chunkPath).after before
    let frame := Frame.inFile "a" 1 3
    let past := [.line frame, .clearSource (.path "a")]
    let holds := Input.evaluated (.ok [.boolean true])
    let turns := s.callTurns frame [.clearSource (.path "a"), holds]
    s.snapshot? frame = some (⟨⟨0⟩, 3⟩, .ofDefinition { condition := some "x" } 0) ∧
      turns = [⟨[], .line frame⟩, ⟨past, holds⟩] ∧
      (s.turn ⟨past, holds⟩).answer = some (.line false) ∧
      (turns.flatMap fun t => (s.turn t).events).countP Event.isHit = 0 := by
  intro before s frame past holds turns
  have hb : s.snapshot? frame =
      some (⟨⟨0⟩, 3⟩, .ofDefinition { condition := some "x" } 0) := by decide +kernel
  have hcondition : (Breakpoint.ofDefinition { condition := some "x" } 0).condition = some "x" := by
    rfl
  have hturns : turns = [⟨[], .line frame⟩, ⟨past, holds⟩] := by rfl
  have hfind : s.debugger.registry.find? (.path "a") = some ⟨0⟩ := by rfl
  have hgone : ((s.after past).debugger.registry.contents (.path "a")).holds 3 = false := by
    decide +kernel
  have hall := removed_meanwhile {} chunkPath before hb hcondition hturns
  obtain ⟨source, hsource, -, hremoved, -⟩ := hall
  have hwf := (recorded_after {} chunkPath before).arises.wellFormed
  obtain rfl : source = .path "a" := hwf.unshared hsource hfind
  obtain ⟨hanswer, -, hhits, -⟩ := hremoved (.inr hgone)
  exact ⟨hb, hturns, hanswer, hhits⟩

/-- **A breakpoint that is removed during its condition can be hit**: the source is
cleared, which leaves no breakpoint at the line, and another one set there, and the check
of the one that was removed pauses and counts a hit. -/
theorem removed_and_set_again :
    let s := (new {} chunkPath).after
      [.setBreakpoints (fun _ => true) (.path "a") [(3, { condition := some "true" })]]
    let frame := Frame.inFile "a" 1 3
    let removed := [.line frame, .clearSource (.path "a")]
    let past := removed ++ [.setBreakpoints (fun _ => true) (.path "a") [(3, {})]]
    let outcome := (s.after past).step (.evaluated (.ok [.boolean true]))
    s.snapshot? frame = some (⟨⟨0⟩, 3⟩, .ofDefinition { condition := some "true" } 0) ∧
      (s.step (.line frame)).events.getLast? = some (.evaluated "return true") ∧
      (s.after removed).debugger.breakpoints (.path "a") = [] ∧
      outcome.answer = some (.line true) ∧ outcome.events = [.hit ⟨0⟩ 3 1] ∧
      outcome.session.debugger.hits? (.path "a") 3 = some 1 := by
  exact ⟨rfl, rfl, rfl, rfl, rfl, rfl⟩

end Breakpoints.Session

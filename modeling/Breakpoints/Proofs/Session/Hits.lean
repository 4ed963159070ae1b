import Breakpoints.Proofs.Registry.Counts
import Breakpoints.Proofs.Registry.Hits
import Breakpoints.Proofs.Session.Turns

/-!
# The hits of a check

The check of a line counts a hit at most once, in the turn in which its condition
turns out to hold (`course`). Whatever is nested in the check goes before that turn
or after it: the hit is counted on what the table holds by then, under the number
that follows the last one (`Recorded.ordinal_of_hit`), and no later turn takes it
back.
-/

namespace Breakpoints

open Breakpoint (maxHits)

/-- The events are those of a check of the breakpoint that counts its hit among them.
If there is a hit condition, it is evaluated for the number of this hit and nothing
else. -/
structure HitShown (place : Debugger.Place) (b : Breakpoint) (events front back : List Event)
    (hits : Nat) : Prop where
  eq : events = front ++ .hit place.table place.line hits :: back
  silent_front : ∀ e ∈ front, e.silent = true
  silent_back : ∀ e ∈ back, e.silent = true
  hitCondition : ∀ c, b.hitCondition = some c →
    back = [.evaluated (Template.script (Breakpoint.hitExpression hits c))]

theorem countP_isHit_eq_zero {events : List Event} (h : ∀ e ∈ events, e.silent = true) :
    events.countP Event.isHit = 0 := by
  rw [List.countP_eq_zero]
  intro e he
  rw [Event.isHit_of_silent (h e he)]
  exact Bool.false_ne_true

theorem HitShown.countP {place : Debugger.Place} {b : Breakpoint} {events front back : List Event}
    {hits : Nat} (h : HitShown place b events front back hits) : events.countP Event.isHit = 1 := by
  rw [h.eq, List.countP_append, countP_isHit_eq_zero h.silent_front, List.countP_cons,
    countP_isHit_eq_zero h.silent_back]
  rfl

/-- More that is silent was shown before. -/
theorem HitShown.after {place : Debugger.Place} {b : Breakpoint} {events front back : List Event}
    {hits : Nat} (h : HitShown place b events front back hits) {more : List Event}
    (hmore : ∀ e ∈ more, e.silent = true) :
    HitShown place b (more ++ events) (more ++ front) back hits where
  eq := by rw [h.eq, List.append_assoc]
  silent_front := fun e he => (List.mem_append.1 he).elim (hmore e) (h.silent_front e)
  silent_back := h.silent_back
  hitCondition := h.hitCondition

namespace Breakpoint

variable (channel : Channel) (b : Breakpoint) {place : Debugger.Place} {ts : Tables}

/-- What a check does once its condition has been evaluated. -/
def checkOnceEvaluated (line : Nat) (condition : String) :
    Except Fault (List Value) → Dialogue Bool
  | .ok values => b.checkOnceHeld channel line (values.head?.any Value.isTrue)
  | .error fault => .note (.predicateFailed condition fault) (.done false)

variable {b}

theorem check_of_unconditional (h : b.condition = none) (line : Nat) :
    b.check channel line = b.checkOnceHeld channel line true := by
  rw [check_eq_bind, h]
  rfl

theorem check_of_conditional {c : String} (h : b.condition = some c) (line : Nat) :
    b.check channel line =
      .evaluate (Template.script c) (b.checkOnceEvaluated channel line c) := by
  rw [check_eq_bind, h]
  refine congrArg (Dialogue.evaluate (Template.script c)) (funext fun outcome => ?_)
  cases outcome <;> rfl

variable {channel} in
theorem events_checkHit {hits : Nat} {c : String} (h : b.hitCondition = some c) (id : TableId)
    (line l : Nat) (ts : Tables) :
    ((b.checkHit channel l hits).proceed id line ts).events =
      [.evaluated (Template.script (hitExpression hits c))] := by
  simp only [checkHit, h, Option.map_some]
  rfl

variable (b)

/-- Once the condition holds, a check counts its hit if the table holds a breakpoint. -/
theorem proceed_held {b' : Breakpoint} (h : (ts.get place.table).get? place.line = some b') :
    let progress := (b.checkOnceHeld channel place.line true).proceed place.table place.line ts
    (∃ back, HitShown place b progress.events [] back b'.hit.hits) ∧
      ∀ w, progress.standing = .waiting w → w.OnlyShows Dialogue.Silent := by
  intro progress
  have hsilent := b.onlyShows_checkHit channel place.line b'.hit.hits
  have hprogress : progress =
      ((b.checkHit channel place.line b'.hit.hits).proceed place.table place.line
        (Dialogue.countHit place.table place.line ts).2).after
          [.hit place.table place.line b'.hit.hits] := by
    simp only [progress, checkOnceHeld, Dialogue.proceed,
      Registry.countHit_of_get? place.table place.line h]
    rfl
  rw [hprogress]
  refine ⟨⟨_, rfl, ?_, hsilent.proceed _ _ _, fun c hc => events_checkHit hc ..⟩,
    fun w hw => hsilent.next hw⟩
  intro e he
  cases he

/-- If the breakpoint is gone by then, nothing is counted and the check is finished. -/
theorem proceed_gone (h : (ts.get place.table).get? place.line = none) :
    (b.checkOnceHeld channel place.line true).proceed place.table place.line ts =
      ⟨ts, [.noted (.removedMeanwhile place.line)], .finished false⟩ := by
  simp only [checkOnceHeld, Dialogue.proceed,
    Registry.countHit_of_get?_eq_none place.table place.line h]
  rfl

end Breakpoint

namespace Session

variable {s : Session} {history : List Event} {frame : Frame} {place : Debugger.Place}
  {b : Breakpoint} {source : Source}

/-- Where a reached line is checked, and the breakpoint as it is at that moment. -/
def snapshot? (s : Session) (frame : Frame) : Option (Debugger.Place × Breakpoint) :=
  let located := s.debugger.locate frame
  located.place.bind fun place =>
    ((located.debugger.registry.tables.get place.table).get? place.line).map fun b => (place, b)

/-- The call has a hit to count: there is no condition, or its condition came to
`true` first of all, and the table then held a breakpoint at the line. -/
def Strikes (s : Session) (frame : Frame) (rest : List Input) (place : Debugger.Place)
    (b : Breakpoint) : Prop :=
  b.condition = none ∨
    ∃ past values later, s.callTurns frame rest =
        ⟨[], .line frame⟩ :: ⟨past, .evaluated (.ok values)⟩ :: later ∧
      values.head?.any Value.isTrue = true ∧
      ((s.after past).debugger.registry.tables.get place.table).holds place.line = true

/-- A snapshot is one of a breakpoint that a source has, and its check is what the
call goes on with. -/
theorem Recorded.call (h : s.Recorded .empty history) (hb : s.snapshot? frame = some (place, b)) :
    let located := s.debugger.locate frame
    located.place = some place ∧
      (located.debugger.registry.tables.get place.table).get? place.line = some b ∧
      located.debugger.check place = b.check located.debugger.config.channel place.line ∧
      ∃ source, s.debugger.registry.find? source = some place.table ∧
        (s.debugger.registry.contents source).get? place.line = some b := by
  obtain ⟨place', hplace, hb⟩ := Option.bind_eq_some_iff.1 hb
  obtain ⟨b', held, hsame⟩ := Option.map_eq_some_iff.1 hb
  cases hsame
  have hevolves := s.debugger.evolves_locate h.evolves frame
  obtain ⟨source?, hbound⟩ := s.debugger.registry_locate frame
  intro located
  have harises : Registry.Arises _ located.debugger.registry := hevolves
  obtain ⟨source, hsource⟩ := harises.wellFormed.exists_source (Table.ne_empty_of_get? held)
  have hcontents : (located.debugger.registry.contents source).get? place.line = some b := by
    rw [Registry.contents_of_find? hsource, held]
  have hadmits : located.debugger.registry.admits place.line = true :=
    harises.exact.admits_iff.2 ⟨source, Table.holds_iff.2 ⟨b, hcontents⟩⟩
  have hcheck : located.debugger.check place =
      b.check located.debugger.config.channel place.line := by
    simp only [Debugger.check, Registry.check, hadmits, if_true, Table.check]
    rw [held]
  -- The table is not empty, so it was not made by looking for the place.
  rw [hbound, Registry.contents_bind] at hcontents
  obtain ⟨id, hid, -⟩ :=
    Registry.exists_find?_of_contents_ne_empty (Table.ne_empty_of_get? hcontents)
  have hkept := Registry.keeps_bind s.debugger.registry source? source id hid
  rw [← hbound, hsource] at hkept
  exact ⟨hplace, held, hcheck, source, hid.trans hkept.symm, hcontents⟩

/-- None of the turns shows a hit, nor anything else that changes a registry. -/
def Quiet (s : Session) (turns : List Turn) : Prop :=
  ∀ t ∈ turns, ∀ e ∈ (s.turn t).events, e.silent = true

theorem Quiet.map {past : List Input} {turns : List Turn} (h : (s.after past).Quiet turns) :
    s.Quiet (turns.map (Turn.after past)) := by
  intro t ht
  obtain ⟨t, hmem, rfl⟩ := List.mem_map.1 ht
  rw [turn_after]
  exact h t hmem

/-- The turns after one in which the check has gone on with a dialogue are quiet if
what is left of the dialogue is silent. -/
theorem quiet_turns {debugger : Debugger} {outer : List SuspendedCheck} {d : Dialogue Bool}
    (hs : s = (proceed debugger outer place d).session)
    (hd : ∀ w, (d.proceed place.table place.line debugger.registry.tables).standing = .waiting w →
      w.OnlyShows Dialogue.Silent) (inputs : List Input) :
    s.Quiet (s.turns outer.length inputs) := by
  intro t ht
  rcases suspended_proceed debugger outer place d with ⟨w, hstand, hp⟩ | hp
  · have hnow : s.suspended = [] ++ ⟨place, w⟩ :: outer := hs ▸ hp
    obtain ⟨d', hd', hturn⟩ := turns_proceed hnow (hd w hstand) ht
    rw [hturn, events_proceed]
    exact hd'.proceed _ _ _
  · rw [turns_of_finished (Nat.le_of_eq (congrArg List.length (hs ▸ hp)))] at ht
    cases ht

/-- The hit of a call is counted: one of its turns shows it, and no other shows any. -/
def Counted (s : Session) (frame : Frame) (rest : List Input) (place : Debugger.Place)
    (b : Breakpoint) : Prop :=
  ∃ before t after front back hits, s.callTurns frame rest = before ++ t :: after ∧
    s.Quiet (before ++ after) ∧ HitShown place b (s.turn t).events front back hits

theorem Quiet.countP_eq_zero {turns : List Turn} (h : s.Quiet turns) :
    (turns.flatMap fun t => (s.turn t).events).countP Event.isHit = 0 := by
  apply countP_isHit_eq_zero
  intro e he
  obtain ⟨t, ht, he⟩ := List.mem_flatMap.1 he
  exact h t ht e he

theorem Counted.countP_eq_one {rest : List Input} (h : s.Counted frame rest place b) :
    ((s.callTurns frame rest).flatMap fun t => (s.turn t).events).countP Event.isHit = 1 := by
  obtain ⟨before, t, after, front, back, hits, hturns, hquiet, hshown⟩ := h
  obtain ⟨hbefore, hafter⟩ := List.forall_mem_append.1 hquiet
  have hb := Quiet.countP_eq_zero hbefore
  have ha := Quiet.countP_eq_zero hafter
  rw [hturns, List.flatMap_append, List.flatMap_cons, List.countP_append, List.countP_append, hb,
    ha, hshown.countP]

/-- What becomes of a call once its condition has been evaluated. -/
theorem course_of_answered {c : String} {channel : Channel} {past rest : List Input}
    {outcome : Except Fault (List Value)} {later : List Turn} (hcond : b.condition = some c)
    (hturns : s.callTurns frame rest =
      ⟨[], .line frame⟩ :: ⟨past, .evaluated outcome⟩ :: later)
    (hfirst : ∀ e ∈ (s.turn ⟨[], .line frame⟩).events, e.silent = true)
    (hevents : (s.turn ⟨past, .evaluated outcome⟩).events =
      ((b.checkOnceEvaluated channel place.line c outcome).proceed place.table place.line
        (s.after past).debugger.registry.tables).events)
    (hlater : (∀ w, ((b.checkOnceEvaluated channel place.line c outcome).proceed place.table
        place.line (s.after past).debugger.registry.tables).standing = .waiting w →
      w.OnlyShows Dialogue.Silent) → s.Quiet later) :
    s.Strikes frame rest place b ∧ s.Counted frame rest place b ∨
      ¬s.Strikes frame rest place b ∧ s.Quiet (s.callTurns frame rest) := by
  have hstrikes : s.Strikes frame rest place b ↔ ∃ values, outcome = .ok values ∧
      values.head?.any Value.isTrue = true ∧
      ((s.after past).debugger.registry.tables.get place.table).holds place.line = true := by
    simp only [Strikes, hcond, reduceCtorEq, false_or, hturns, List.cons.injEq, true_and,
      Turn.mk.injEq, Input.evaluated.injEq]
    constructor
    · rintro ⟨_, values, _, ⟨⟨rfl, hok⟩, -⟩, h⟩
      exact ⟨values, hok, h⟩
    · rintro ⟨values, hok, h⟩
      exact ⟨past, values, later, ⟨⟨rfl, hok⟩, rfl⟩, h⟩
  have hquiet (hsilent : ∀ e ∈ (s.turn ⟨past, .evaluated outcome⟩).events, e.silent = true)
      (hrest : s.Quiet later) : s.Quiet (s.callTurns frame rest) := by
    rw [hturns]
    exact List.forall_mem_cons.2 ⟨hfirst, List.forall_mem_cons.2 ⟨hsilent, hrest⟩⟩
  cases outcome with
  | error fault =>
    refine .inr ⟨fun hs => ?_, hquiet ?_ (hlater fun w hw => by cases hw)⟩
    · obtain ⟨values, hok, -⟩ := hstrikes.1 hs
      cases hok
    · rw [hevents]
      exact List.forall_mem_singleton.2 rfl
  | ok values =>
    simp only [Breakpoint.checkOnceEvaluated] at hevents hlater
    cases htrue : values.head?.any Value.isTrue with
    | false =>
      rw [htrue] at hevents hlater
      refine .inr ⟨fun hs => ?_, hquiet ?_ (hlater fun w hw => by cases hw)⟩
      · obtain ⟨_, hok, hvalues, -⟩ := hstrikes.1 hs
        cases hok
        rw [htrue] at hvalues
        cases hvalues
      · rw [hevents]
        exact fun _ he => by cases he
    | true =>
      rw [htrue] at hevents hlater
      cases held : ((s.after past).debugger.registry.tables.get place.table).get? place.line with
      | none =>
        rw [b.proceed_gone channel held] at hevents hlater
        refine .inr ⟨fun hs => ?_, hquiet ?_ (hlater fun w hw => by cases hw)⟩
        · obtain ⟨_, -, -, hholds⟩ := hstrikes.1 hs
          rw [Table.holds, held] at hholds
          cases hholds
        · rw [hevents]
          exact List.forall_mem_singleton.2 rfl
      | some b' =>
        obtain ⟨⟨back, hshown⟩, hnext⟩ := b.proceed_held channel held
        refine .inl ⟨hstrikes.2 ⟨values, rfl, htrue, Table.holds_iff.2 ⟨b', held⟩⟩,
          [⟨[], .line frame⟩], _, later, [], back, _, hturns, ?_, hevents ▸ hshown⟩
        exact List.forall_mem_cons.2 ⟨hfirst, hlater hnext⟩

/-- The second turn of a call that waits for an evaluation is the one in which it gets
the outcome. -/
theorem callTurns_of_evaluation {script : String} {next : Except Fault (List Value) → Dialogue Bool}
    (hs : (s.step (.line frame)).session.suspended =
      [] ++ ⟨place, .evaluation script next⟩ :: s.suspended) (rest : List Input) :
    s.callTurns frame rest = [⟨[], .line frame⟩] ∨
      ∃ past outcome later,
        s.callTurns frame rest = ⟨[], .line frame⟩ :: ⟨past, .evaluated outcome⟩ :: later ∧
        s.turn ⟨past, .evaluated outcome⟩ =
          proceed (s.after past).debugger s.suspended place (next outcome) ∧
        ((∀ w, ((next outcome).proceed place.table place.line
            (s.after past).debugger.registry.tables).standing = .waiting w →
          w.OnlyShows Dialogue.Silent) → s.Quiet later) := by
  rcases turns_eq hs rest with hnone | ⟨past, input, rest', d, hanswered, hd, hturns⟩
  · exact .inl (by simp only [callTurns, hnone, List.map_nil])
  · cases input with
    | evaluated outcome =>
      cases hd
      have hstep : ((s.step (.line frame)).session.after past).step (.evaluated outcome) =
          proceed _ s.suspended place (next outcome) := step_of_resumed hanswered rfl
      have hcall : s.callTurns frame rest = ⟨[], .line frame⟩ ::
          ⟨.line frame :: past, .evaluated outcome⟩ :: _ :=
        congrArg _ (congrArg (List.map _) hturns)
      refine .inr ⟨.line frame :: past, outcome, _, hcall, hstep, fun hnext => ?_⟩
      have hlater : ((s.step (.line frame)).session.after (past ++ [.evaluated outcome])).Quiet
          ((((s.step (.line frame)).session.after past).step (.evaluated outcome)).session.turns
            s.suspended.length rest') := by
        rw [after_append]
        exact quiet_turns (congrArg Outcome.session hstep) hnext rest'
      have hmapped : (s.after [.line frame]).Quiet _ := hlater.map
      exact hmapped.map
    | _ => cases hd

/-- **The course of a call.** Either its hit is counted, and shown in one turn and no
other, or it is not and no turn shows any. -/
theorem Recorded.course (h : s.Recorded .empty history)
    (hb : s.snapshot? frame = some (place, b)) (rest : List Input) :
    s.Strikes frame rest place b ∧ s.Counted frame rest place b ∨
      ¬s.Strikes frame rest place b ∧ s.Quiet (s.callTurns frame rest) := by
  obtain ⟨hplace, held, hcheck, -⟩ := h.call hb
  have hsilent := s.debugger.silent_locate frame
  have hstep := step_line_of_some hplace
  rw [hcheck] at hstep
  generalize s.debugger.locate frame = located at held hsilent hstep
  have hsession := congrArg Outcome.session hstep
  have hevents := congrArg Outcome.events hstep
  generalize located.debugger.config.channel = channel at hsession hevents
  cases hcond : b.condition with
  | none =>
    obtain ⟨⟨back, hshown⟩, hnext⟩ := b.proceed_held channel held
    rw [Breakpoint.check_of_unconditional channel hcond] at hsession hevents
    rw [events_proceed] at hevents
    have hturn : HitShown place b (s.turn ⟨[], .line frame⟩).events (located.events ++ []) back
        b.hit.hits := hevents ▸ hshown.after hsilent
    have hlater : (s.after [.line frame]).Quiet _ := quiet_turns hsession hnext rest
    exact .inl ⟨.inl hcond, [], _, _, _, back, _, rfl, hlater.map, hturn⟩
  | some c =>
    rw [Breakpoint.check_of_conditional channel hcond] at hsession hevents
    have hsuspended : (s.step (.line frame)).session.suspended =
        [] ++ ⟨place, .evaluation _ (b.checkOnceEvaluated channel place.line c)⟩ :: s.suspended :=
      congrArg suspended hsession
    have hfirst : ∀ e ∈ (s.turn ⟨[], .line frame⟩).events, e.silent = true := by
      have hevents : (s.turn ⟨[], .line frame⟩).events =
          located.events ++ [.evaluated (Template.script c)] := hevents
      rw [hevents]
      exact List.forall_mem_append.2 ⟨hsilent, List.forall_mem_singleton.2 rfl⟩
    rcases callTurns_of_evaluation hsuspended rest with
      hcall | ⟨past, outcome, later, hcall, hturn, hlater⟩
    · -- The condition is still being evaluated.
      refine .inr ⟨?_, hcall ▸ List.forall_mem_singleton.2 hfirst⟩
      rintro (hc | ⟨past, values, later, hturns, -, -⟩)
      · cases hcond.symm.trans hc
      · cases hcall.symm.trans hturns
    · have hevents := (congrArg Outcome.events hturn).trans (events_proceed ..)
      exact course_of_answered hcond hcall hfirst hevents hlater

/-- A call counts at most one hit. -/
theorem Recorded.countP_le_one (h : s.Recorded .empty history)
    (hb : s.snapshot? frame = some (place, b)) (rest : List Input) :
    ((s.callTurns frame rest).flatMap fun t => (s.turn t).events).countP Event.isHit ≤ 1 := by
  rcases h.course hb rest with ⟨-, hcounted⟩ | ⟨-, hquiet⟩
  · rw [hcounted.countP_eq_one]
  · rw [hquiet.countP_eq_zero]
    exact Nat.zero_le 1

/-- It counts one exactly if there is one to count. -/
theorem Recorded.countP_eq_one_iff (h : s.Recorded .empty history)
    (hb : s.snapshot? frame = some (place, b)) (rest : List Input) :
    ((s.callTurns frame rest).flatMap fun t => (s.turn t).events).countP Event.isHit = 1 ↔
      s.Strikes frame rest place b := by
  rcases h.course hb rest with ⟨hstrikes, hcounted⟩ | ⟨hstrikes, hquiet⟩
  · rw [hcounted.countP_eq_one]
    exact iff_of_true rfl hstrikes
  · rw [hquiet.countP_eq_zero]
    exact iff_of_false Nat.zero_ne_one hstrikes

theorem Recorded.counted (h : s.Recorded .empty history)
    (hb : s.snapshot? frame = some (place, b)) {rest : List Input}
    (hs : s.Strikes frame rest place b) : s.Counted frame rest place b := by
  rcases h.course hb rest with ⟨-, hcounted⟩ | ⟨hnot, -⟩
  · exact hcounted
  · exact absurd hs hnot

/-- The first script that a call has evaluated is its condition. -/
theorem Recorded.getLast?_of_conditional (h : s.Recorded .empty history)
    (hb : s.snapshot? frame = some (place, b)) {c : String} (hc : b.condition = some c) :
    (s.step (.line frame)).events.getLast? = some (.evaluated ("return " ++ c)) := by
  obtain ⟨hplace, -, hcheck, -⟩ := h.call hb
  rw [step_line_of_some hplace, hcheck, Breakpoint.check_of_conditional _ hc]
  exact List.getLast?_concat

/-- A hit of a turn has the number that follows those of the hits which the source's
breakpoint got until then. -/
theorem Recorded.ordinal_of_hit (h : s.Recorded .empty history)
    (hs : s.debugger.registry.find? source = some place.table) {t : Turn} {front back : List Event}
    {hits : Nat} (he : (s.turn t).events = front ++ .hit place.table place.line hits :: back) :
    hits = min (hitsSinceAdded source place.table place.line (history ++ s.history t.past ++ front)
      + 1) maxHits := by
  have hfrom : s.Recorded s.debugger.registry [] := ⟨.refl, h.checks⟩
  have hturn := ((hfrom.after t.past).step t.input).evolves
  have hevents : [] ++ s.history t.past ++ ((s.after t.past).step t.input).events =
      (s.history t.past ++ front) ++ .hit place.table place.line hits :: back := by
    rw [List.nil_append, List.append_assoc]
    exact congrArg _ he
  rw [hevents] at hturn
  obtain ⟨r₀, r₁, hbefore, hstep⟩ := hturn.at_event
  have harises : Registry.Arises _ r₀ := h.evolves.trans hbefore
  obtain ⟨source', hs', hcount⟩ := harises.ordinal_of_hit hstep
  -- The table has not changed hands since.
  have hwf := h.arises.wellFormed
  have hsame : source' = source := hwf.unshared (hbefore.precedes.owner (hwf.made hs) hs') hs
  rw [hcount, hsame, List.append_assoc]

/-- **No hit is lost and none is counted twice.** The count of every breakpoint is the
number of hits seen since it was added where there was none, and setting it anew keeps
the count. A call counts at most one hit, and exactly one if there is no condition or
its condition held while there was a breakpoint to hit. The hit condition is evaluated
for the ordinal of this hit. -/
theorem hits_accounted (config : Config) (pathOf : String → Option String)
    (before : List Input) :
    let s := (new config pathOf).after before
    let history := (new config pathOf).history before
    (∀ source line hits, s.debugger.hits? source line = some hits →
      (∃ id, s.debugger.registry.find? source = some id ∧
        hits = min (hitsSinceAdded source id line history) maxHits) ∧
      ∀ room source' placed,
        (s.step (.setBreakpoints room source' placed)).session.debugger.hits? source line =
          some hits) ∧
    ∀ frame place b, s.snapshot? frame = some (place, b) → ∀ rest,
      let events := (s.callTurns frame rest).flatMap fun t => (s.turn t).events
      (∀ c, b.condition = some c →
        (s.step (.line frame)).events.getLast? = some (.evaluated ("return " ++ c))) ∧
      events.countP Event.isHit ≤ 1 ∧
      (events.countP Event.isHit = 1 ↔ s.Strikes frame rest place b) ∧
      ∃ source, s.debugger.registry.find? source = some place.table ∧
        (s.debugger.registry.contents source).get? place.line = some b ∧
        (s.Strikes frame rest place b → ∃ t ∈ s.callTurns frame rest, ∃ front back hits,
          (s.turn t).events = front ++ .hit place.table place.line hits :: back ∧
          hits = min (hitsSinceAdded source place.table place.line
            (history ++ s.history t.past ++ front) + 1) maxHits ∧
          ∀ c, b.hitCondition = some c →
            back = [.evaluated ("return " ++ (Text.decimal hits ++ " " ++ c))]) := by
  intro s history
  have hrecorded : s.Recorded .empty history := recorded_after config pathOf before
  have hwf := hrecorded.arises.wellFormed
  constructor
  · intro source line hits hhits
    constructor
    · obtain ⟨b, hb, rfl⟩ := Option.map_eq_some_iff.1 hhits
      obtain ⟨id, hid, -⟩ := Registry.exists_find?_of_contents_ne_empty (Table.ne_empty_of_get? hb)
      exact ⟨id, hid, hrecorded.arises.accounts hid hb⟩
    · intro room source' placed
      exact hwf.hits?_setAll hhits room source' placed
  · intro frame place b hb rest events
    obtain ⟨-, -, -, source, hsource, hheld⟩ := hrecorded.call hb
    refine ⟨fun c hc => hrecorded.getLast?_of_conditional hb hc, hrecorded.countP_le_one hb rest,
      hrecorded.countP_eq_one_iff hb rest, source, hsource, hheld, ?_⟩
    intro hstrikes
    obtain ⟨before, t, after, front, back, hits, hturns, -, hshown⟩ := hrecorded.counted hb hstrikes
    have hmem : t ∈ s.callTurns frame rest := by
      rw [hturns]
      exact List.mem_append_right before List.mem_cons_self
    exact ⟨t, hmem, front, back, hits, hshown.eq, hrecorded.ordinal_of_hit hsource hshown.eq,
      hshown.hitCondition⟩

/-- The line is reached again while its condition is evaluated, so the check that was
there first gets the second hit. -/
theorem hits_accounted_nested :
    let set : Input := .setBreakpoints (fun _ => true) (.path "a")
      [(3, { condition := some "x", hitCondition := some "> 1" })]
    let s := (new {} chunkPath).after [set]
    let frame := Frame.inFile "a" 1 3
    let holds := Input.evaluated (.ok [.boolean true])
    let fails := Input.evaluated (.ok [.boolean false])
    let rest := [.line frame, holds, fails, .clearSource (.path "b"), holds, holds]
    let b : Breakpoint := ⟨some "x", some "> 1", none, 0⟩
    s.snapshot? frame = some (⟨⟨0⟩, 3⟩, b) ∧ s.Strikes frame rest ⟨⟨0⟩, 3⟩ b ∧
      (s.step (.line frame)).events.getLast? = some (.evaluated "return x") ∧
      ((s.callTurns frame rest).flatMap fun t => (s.turn t).events).countP Event.isHit = 1 ∧
      (∃ t ∈ s.callTurns frame rest, ∃ front hits, (s.turn t).events = front ++
        [.hit ⟨0⟩ 3 hits, .evaluated ("return " ++ (Text.decimal hits ++ " " ++ "> 1"))]) ∧
      (s.history (.line frame :: rest)).filter Event.shown =
        [.evaluated "return x", .evaluated "return x", .evaluated "return 1 > 1",
          .evaluated "return 2 > 1"] ∧
      (s.history (.line frame :: rest)).filter Event.isHit = [.hit ⟨0⟩ 3 1, .hit ⟨0⟩ 3 2] := by
  intro set s frame holds fails rest b
  have hsnapshot : s.snapshot? frame = some (⟨⟨0⟩, 3⟩, b) := by decide +kernel
  have hcount :
      ((s.callTurns frame rest).flatMap fun t => (s.turn t).events).countP Event.isHit = 1 := by
    decide +kernel
  obtain ⟨-, hcalls⟩ := hits_accounted {} chunkPath [set]
  obtain ⟨hcondition, -, hone, source, -, -, hhit⟩ := hcalls frame ⟨⟨0⟩, 3⟩ b hsnapshot rest
  have hstrikes : s.Strikes frame rest ⟨⟨0⟩, 3⟩ b := hone.1 hcount
  obtain ⟨t, ht, front, back, hits, hevents, -, hscript⟩ := hhit hstrikes
  rw [hscript "> 1" rfl] at hevents
  exact ⟨hsnapshot, hstrikes, hcondition "x" rfl, hcount, ⟨t, ht, front, hits, hevents⟩,
    by decide +kernel, by decide +kernel⟩

end Session

end Breakpoints

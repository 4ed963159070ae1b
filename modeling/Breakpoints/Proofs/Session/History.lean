import Breakpoints.Proofs.Resolution
import Breakpoints.Proofs.Session.Steps

/-!
# Histories of a session

The history of a session is all that is seen while it takes its inputs. Its
registry is at any time what this history made of the one it had at the start
(`Recorded.after`), also while checks are suspended, so what holds of every
registry that arises holds in every state in which guest code runs. What the debugger
was set up with never changes (`sameSettings_step`).
-/

namespace Breakpoints

namespace Session

/-- All that is seen while the inputs are taken. -/
def history (s : Session) (inputs : List Input) : List Event :=
  (s.outcomes inputs).flatMap (·.events)

@[simp] theorem history_nil (s : Session) : s.history [] = [] := rfl

@[simp] theorem history_cons (s : Session) (input : Input) (rest : List Input) :
    s.history (input :: rest) = (s.step input).events ++ (s.step input).session.history rest := rfl

/-- The session has the registry that the history leads to, and what its checks
still do can be told from the history. -/
structure Recorded (start : Registry) (history : List Event) (s : Session) : Prop where
  evolves : start.Evolves history s.debugger.registry
  checks : ∀ check ∈ s.suspended, check.waiting.OnlyShows Dialogue.SilentOrHit

theorem Recorded.arises {history : List Event} {s : Session} (h : s.Recorded .empty history) :
    Registry.Arises history s.debugger.registry := h.evolves

end Session

open Session

theorem Dialogue.Waiting.OnlyShows.resumed {P : Event → Prop} {w : Waiting Bool} {input : Input}
    {d : Dialogue Bool} (h : w.OnlyShows P) (hd : w.resumed? input = some d) : d.OnlyShows P := by
  cases w <;> cases input <;> cases hd <;> exact h _

namespace Debugger

variable {start : Registry} {history : List Event} {d : Debugger}

theorem resolving_locate (frame : Frame) (d : Debugger) :
    ∀ e ∈ (d.locate frame).events, e.resolving = true := by
  have hresolving := BindingCache.resolving_resolve d.config d.pathOf frame d.registry d.cache
  have hasked : ∀ e ∈ [Event.asked .line], e.resolving = true := by simp [Event.resolving]
  unfold locate
  split
  · exact hasked
  · split
    · exact List.forall_mem_cons.2 ⟨rfl, hresolving⟩
    · exact hasked

theorem silent_locate (frame : Frame) (d : Debugger) :
    ∀ e ∈ (d.locate frame).events, e.silent = true :=
  fun e he => Event.silent_of_resolving (d.resolving_locate frame e he)

theorem registry_resolved (frame : Frame) (d : Debugger) :
    ∃ source?, (d.resolved frame).registry = (d.registry.bind source?).2 :=
  BindingCache.registry_resolve d.config d.pathOf frame d.registry d.cache

theorem registry_locate (frame : Frame) (d : Debugger) :
    ∃ source?, (d.locate frame).debugger.registry = (d.registry.bind source?).2 := by
  unfold locate
  split
  · exact ⟨none, rfl⟩
  · split
    · exact d.registry_resolved frame
    · exact ⟨none, rfl⟩

theorem locate_debugger (frame : Frame) (d : Debugger) :
    (d.locate frame).debugger = d ∨ (d.locate frame).debugger = d.resolved frame := by
  unfold locate
  split
  · exact .inl rfl
  · split
    · exact .inr rfl
    · exact .inl rfl

theorem evolves_resolved (h : start.Evolves history d.registry) (frame : Frame) :
    start.Evolves (history ++ (d.resolve frame).events) (d.resolved frame).registry := by
  obtain ⟨source?, hr⟩ := d.registry_resolved frame
  rw [hr]
  exact (h.silent (BindingCache.silent_resolve d.config d.pathOf frame d.registry d.cache)).bind
    source?

theorem evolves_locate (h : start.Evolves history d.registry) (frame : Frame) :
    start.Evolves (history ++ (d.locate frame).events) (d.locate frame).debugger.registry := by
  obtain ⟨source?, hr⟩ := d.registry_locate frame
  rw [hr]
  exact (h.silent (d.silent_locate frame)).bind source?

/-- What a debugger is set up with is the same. -/
structure SameSettings (d d' : Debugger) : Prop where
  config : d'.config = d.config
  pathOf : d'.pathOf = d.pathOf
  caching : d'.cache.caching = d.cache.caching

theorem SameSettings.refl (d : Debugger) : d.SameSettings d := ⟨rfl, rfl, rfl⟩

theorem SameSettings.symm {d d' : Debugger} (h : d.SameSettings d') : d'.SameSettings d where
  config := h.config.symm
  pathOf := h.pathOf.symm
  caching := h.caching.symm

theorem SameSettings.trans {d₁ d₂ d₃ : Debugger} (h : d₁.SameSettings d₂)
    (h' : d₂.SameSettings d₃) : d₁.SameSettings d₃ where
  config := h'.config.trans h.config
  pathOf := h'.pathOf.trans h.pathOf
  caching := h'.caching.trans h.caching

theorem sameSettings_resolved (frame : Frame) (d : Debugger) : d.SameSettings (d.resolved frame) :=
  ⟨rfl, rfl, BindingCache.caching_resolve ..⟩

theorem sameSettings_locate (frame : Frame) (d : Debugger) :
    d.SameSettings (d.locate frame).debugger := by
  rcases d.locate_debugger frame with hlocated | hlocated <;> rw [hlocated]
  · exact .refl d
  · exact d.sameSettings_resolved frame

end Debugger

namespace Session

variable {start : Registry} {history : List Event} {s : Session}

theorem sameSettings_proceed (d : Debugger) (suspended : List SuspendedCheck)
    (place : Debugger.Place) (dialogue : Dialogue Bool) :
    d.SameSettings (proceed d suspended place dialogue).session.debugger := by
  rw [debugger_proceed]
  exact ⟨rfl, rfl, rfl⟩

/-- No input changes the settings. -/
theorem sameSettings_step (s : Session) (input : Input) :
    s.debugger.SameSettings (s.step input).session.debugger := by
  have hanswer (h : input.isAnswer = true) :
      s.debugger.SameSettings (s.step input).session.debugger := by
    rcases s.step_answer h with ⟨check, outer, d, -, -, hstep⟩ | ⟨-, hstep⟩ <;> rw [hstep]
    · exact sameSettings_proceed ..
    · exact .refl s.debugger
  cases input with
  | setBreakpoints | clearSource | clearAll => exact ⟨rfl, rfl, rfl⟩
  | call frame => exact s.debugger.sameSettings_resolved frame
  | line frame =>
    have hlocated := s.debugger.sameSettings_locate frame
    cases hplace : (s.debugger.locate frame).place with
    | none =>
      rw [step_line_of_none hplace]
      exact hlocated
    | some place =>
      rw [step_line_of_some hplace]
      exact hlocated.trans (sameSettings_proceed ..)
  | evaluated | displayed => exact hanswer rfl

theorem recorded_new (config : Config) (pathOf : String → Option String) :
    (new config pathOf).Recorded .empty [] where
  evolves := .refl
  checks := fun _ h => by cases h

/-- Going on with a check. -/
theorem recorded_proceed {debugger : Debugger} {suspended : List SuspendedCheck}
    (h : Recorded start history ⟨debugger, suspended⟩) {dialogue : Dialogue Bool}
    (hd : dialogue.OnlyShows Dialogue.SilentOrHit) (place : Debugger.Place) :
    (proceed debugger suspended place dialogue).session.Recorded start
      (history ++ (proceed debugger suspended place dialogue).events) := by
  have hevolves := h.evolves.proceed place.table place.line hd
  cases hstand : (dialogue.proceed place.table place.line debugger.registry.tables).standing with
  | finished pause =>
    rw [proceed_of_finished hstand]
    exact ⟨hevolves, h.checks⟩
  | waiting w =>
    rw [proceed_of_waiting hstand]
    constructor
    · exact hevolves
    · intro check hc
      rcases List.mem_cons.1 hc with rfl | hc
      · exact hd.next hstand
      · exact h.checks check hc

/-- The guest answers. -/
theorem Recorded.answer (h : s.Recorded start history) {input : Input}
    (hanswer : input.isAnswer = true) :
    (s.step input).session.Recorded start (history ++ (s.step input).events) := by
  rcases s.step_answer hanswer with ⟨check, outer, d, hs, hd, hstep⟩ | ⟨-, hstep⟩
  · have hchecks := h.checks
    rw [hs] at hchecks
    have houter : Recorded start history ⟨s.debugger, outer⟩ :=
      ⟨h.evolves, fun c hc => hchecks c (List.mem_cons_of_mem _ hc)⟩
    rw [hstep]
    exact recorded_proceed houter ((hchecks check List.mem_cons_self).resumed hd) check.place
  · rw [hstep, List.append_nil]
    exact h

theorem Recorded.step (h : s.Recorded start history) (input : Input) :
    (s.step input).session.Recorded start (history ++ (s.step input).events) := by
  cases input with
  | setBreakpoints room source placed =>
    exact ⟨h.evolves.setBreakpoints room source placed, h.checks⟩
  | clearSource source => exact ⟨h.evolves.step (.clearSource _ source), h.checks⟩
  | clearAll =>
    have hcleared := h.evolves.step (.clear s.debugger.registry)
    have hforgotten := hcleared.silent fun e he =>
      Event.silent_of_resolving (s.debugger.cache.resolving_forgetNotices e he)
    refine ⟨?_, h.checks⟩
    simpa [Session.step, Debugger.clearAllNotices, Debugger.clearAll] using hforgotten
  | line frame =>
    have hlocated := s.debugger.evolves_locate h.evolves frame
    cases hplace : (s.debugger.locate frame).place with
    | none =>
      rw [step_line_of_none hplace]
      exact ⟨hlocated, h.checks⟩
    | some place =>
      rw [step_line_of_some hplace, ← List.append_assoc]
      exact recorded_proceed ⟨hlocated, h.checks⟩ (Registry.onlyShows_check ..) place
  | call frame => exact ⟨s.debugger.evolves_resolved h.evolves frame, h.checks⟩
  | evaluated | displayed => exact h.answer rfl

theorem Recorded.after (h : s.Recorded start history) (inputs : List Input) :
    (s.after inputs).Recorded start (history ++ s.history inputs) := by
  induction inputs generalizing s history with
  | nil => simpa using h
  | cons input rest ih => simpa using ih (h.step input)

theorem recorded_after (config : Config) (pathOf : String → Option String) (inputs : List Input) :
    ((new config pathOf).after inputs).Recorded .empty ((new config pathOf).history inputs) := by
  simpa using (recorded_new config pathOf).after inputs

end Session

end Breakpoints

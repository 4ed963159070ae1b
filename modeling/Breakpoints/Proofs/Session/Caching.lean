import Breakpoints.Proofs.Caching
import Breakpoints.Proofs.Session.History
import Breakpoints.Proofs.Session.Reports

/-!
# Remembering bindings is not seen

A debugger that remembers the bindings of functions and one that does not go through
the same registries and suspend the same checks: whatever the one recalls the other
finds by binding anew. So all reports are the same (`caching_unseen`), provided that
the host says the same of a function throughout an epoch.
-/

namespace Breakpoints

open Session

variable {describe : Nat → Nat → Option Chunk}

namespace Debugger

variable {d d' : Debugger}

/-- The debuggers differ in nothing but what they remember of functions, which is
right in both. -/
structure SameButCache (describe : Nat → Nat → Option Chunk) (d d' : Debugger) : Prop where
  registry : d.registry = d'.registry
  pathOf : d.pathOf = d'.pathOf
  config : { d.config with caching := .never } = { d'.config with caching := .never }
  coherent : d.Coherent describe
  coherent' : d'.Coherent describe

theorem SameButCache.source? (h : d.SameButCache describe d') (frame : Frame) :
    frame.source? d.config d.pathOf = frame.source? d'.config d'.pathOf := by
  have hsource : frame.source? { d.config with caching := .never } d.pathOf =
      frame.source? { d'.config with caching := .never } d'.pathOf := by rw [h.config, h.pathOf]
  exact hsource

theorem SameButCache.check (h : d.SameButCache describe d') (place : Place) :
    d.check place = d'.check place := by
  have hchannel : d.config.channel = d'.config.channel := by
    have hconfig := congrArg Config.channel h.config
    exact hconfig
  rw [Debugger.check, Debugger.check, hchannel, h.registry]

theorem SameButCache.setBreakpoints (h : d.SameButCache describe d') (room : Nat → Bool)
    (s : Source) (placed : List (Nat × Definition)) :
    (d.setBreakpoints room s placed).SameButCache describe (d'.setBreakpoints room s placed) where
  registry := by simp only [Debugger.setBreakpoints, h.registry]
  pathOf := h.pathOf
  config := h.config
  coherent := h.coherent.setBreakpoints room s placed
  coherent' := h.coherent'.setBreakpoints room s placed

theorem SameButCache.clearSource (h : d.SameButCache describe d') (s : Source) :
    (d.clearSource s).SameButCache describe (d'.clearSource s) where
  registry := by simp only [Debugger.clearSource, h.registry]
  pathOf := h.pathOf
  config := h.config
  coherent := h.coherent.clearSource s
  coherent' := h.coherent'.clearSource s

theorem SameButCache.clearAll (h : d.SameButCache describe d') :
    d.clearAll.SameButCache describe d'.clearAll where
  registry := by simp only [Debugger.clearAll, h.registry]
  pathOf := h.pathOf
  config := h.config
  coherent := h.coherent.clearAll
  coherent' := h.coherent'.clearAll

theorem SameButCache.withTables (h : d.SameButCache describe d') (ts : Tables) :
    (d.withTables ts).SameButCache describe (d'.withTables ts) where
  registry := by simp only [Debugger.withTables, h.registry]
  pathOf := h.pathOf
  config := h.config
  coherent := h.coherent.withTables ts
  coherent' := h.coherent'.withTables ts

theorem SameButCache.resolved (h : d.SameButCache describe d') {frame : Frame}
    (hf : frame.DescribedBy describe) :
    (d.resolved frame).SameButCache describe (d'.resolved frame) ∧
      (d.resolve frame).binding = (d'.resolve frame).binding := by
  obtain ⟨hregistry, hbinding, hcoherent⟩ := h.coherent.resolved fun _ => hf
  obtain ⟨hregistry', hbinding', hcoherent'⟩ := h.coherent'.resolved fun _ => hf
  rw [h.registry, h.source?] at hregistry hbinding
  exact ⟨⟨hregistry.trans hregistry'.symm, h.pathOf, h.config, hcoherent, hcoherent'⟩,
    hbinding.trans hbinding'.symm⟩

theorem SameButCache.locate (h : d.SameButCache describe d') {frame : Frame}
    (hf : frame.DescribedBy describe) :
    (d.locate frame).debugger.SameButCache describe (d'.locate frame).debugger ∧
      (d.locate frame).place = (d'.locate frame).place := by
  obtain ⟨hresolved, hbinding⟩ := h.resolved hf
  cases hline : frame.line with
  | none => simp only [Debugger.locate, hline, h, and_self]
  | some line =>
    simp only [Debugger.locate, hline]
    rw [h.registry]
    split
    · exact ⟨hresolved, by rw [hbinding]⟩
    · exact ⟨h, rfl⟩

end Debugger

namespace Session

variable {s s' : Session}

/-- The sessions differ in nothing but what their debuggers remember of functions. -/
structure SameButCache (describe : Nat → Nat → Option Chunk) (s s' : Session) : Prop where
  debugger : s.debugger.SameButCache describe s'.debugger
  suspended : s.suspended = s'.suspended

/-- The outcomes leave such sessions, and are reported alike. -/
structure Outcome.SameButCache (describe : Nat → Nat → Option Chunk) (o o' : Outcome) : Prop where
  session : o.session.SameButCache describe o'.session
  answer : o.answer = o'.answer
  shown : o.events.filter Event.shown = o'.events.filter Event.shown

theorem Outcome.SameButCache.report {o o' : Outcome} (h : o.SameButCache describe o') :
    o.report = o'.report := by
  have hregistry := h.session.debugger.registry
  refine report_eq (fun s => by rw [hregistry]) (by rw [hregistry]) ?_ h.shown
  rw [hregistry, h.answer]

theorem sameButCache_proceed {d d' : Debugger} (h : d.SameButCache describe d')
    (suspended : List SuspendedCheck) (place : Debugger.Place) (dialogue : Dialogue Bool) :
    (proceed d suspended place dialogue).SameButCache describe
      (proceed d' suspended place dialogue) := by
  cases hstand : (dialogue.proceed place.table place.line d.registry.tables).standing with
  | finished pause =>
    rw [proceed_of_finished hstand, proceed_of_finished (h.registry ▸ hstand), ← h.registry]
    exact ⟨⟨h.withTables _, rfl⟩, rfl, rfl⟩
  | waiting w =>
    rw [proceed_of_waiting hstand, proceed_of_waiting (h.registry ▸ hstand), ← h.registry]
    exact ⟨⟨h.withTables _, rfl⟩, rfl, rfl⟩

/-- The guest answers. -/
theorem SameButCache.answer (h : s.SameButCache describe s') {input : Input}
    (hanswer : input.isAnswer = true) : (s.step input).SameButCache describe (s'.step input) := by
  rcases s.step_answer hanswer with ⟨check, outer, d, hs, hd, hstep⟩ | ⟨hawaits, hstep⟩
  · rw [hstep, step_of_resumed (h.suspended ▸ hs) hd]
    exact sameButCache_proceed h.debugger outer check.place d
  · have hawaits' : s'.awaits input = false := by rw [awaits, ← h.suspended]; exact hawaits
    rw [hstep, step_of_not_awaits hawaits' hanswer]
    exact ⟨h, rfl, rfl⟩

theorem SameButCache.step (h : s.SameButCache describe s') {input : Input}
    (hf : ∀ frame, input.frame? = some frame → frame.DescribedBy describe) :
    (s.step input).SameButCache describe (s'.step input) := by
  obtain ⟨hd, hsuspended⟩ := h
  cases input with
  | setBreakpoints room source placed =>
    exact ⟨⟨hd.setBreakpoints room source placed, hsuspended⟩, rfl,
      by simp only [Session.step, filter_shown_noted]⟩
  | clearSource source =>
    exact ⟨⟨hd.clearSource source, hsuspended⟩, rfl,
      by simp only [Session.step, filter_shown_noted]⟩
  | clearAll =>
    exact ⟨⟨hd.clearAll, hsuspended⟩, rfl, by simp only [Session.step, filter_shown_noted]⟩
  | line frame =>
    obtain ⟨hlocated, hplace⟩ := hd.locate (hf frame rfl)
    have hshown := s.debugger.filter_shown_locate frame
    have hshown' := s'.debugger.filter_shown_locate frame
    cases hp : (s.debugger.locate frame).place with
    | none =>
      rw [step_line_of_none hp, step_line_of_none (hplace.symm.trans hp)]
      exact ⟨⟨hlocated, hsuspended⟩, rfl, hshown.trans hshown'.symm⟩
    | some place =>
      have hproceed := sameButCache_proceed hlocated s.suspended place
        ((s.debugger.locate frame).debugger.check place)
      rw [step_line_of_some hp, step_line_of_some (hplace.symm.trans hp), ← hlocated.check,
        ← hsuspended]
      refine ⟨hproceed.session, hproceed.answer, ?_⟩
      rw [List.filter_append, List.filter_append, hshown, hshown', hproceed.shown]
  | call frame =>
    obtain ⟨hresolved, hbinding⟩ := hd.resolved (hf frame rfl)
    refine ⟨⟨hresolved, hsuspended⟩, ?_, ?_⟩
    · simp only [Session.step, hbinding]
    · have hshown := s.debugger.filter_shown_resolve frame
      exact hshown.trans (s'.debugger.filter_shown_resolve frame).symm
  | evaluated | displayed => exact SameButCache.answer ⟨hd, hsuspended⟩ rfl

theorem SameButCache.outcomes (h : s.SameButCache describe s') {inputs : List Input}
    (hf : ∀ frame ∈ inputs.filterMap Input.frame?, frame.DescribedBy describe) :
    (s.outcomes inputs).map Outcome.report = (s'.outcomes inputs).map Outcome.report ∧
      (s.outcomes inputs).map (·.session.debugger.sourceCount) =
        (s'.outcomes inputs).map (·.session.debugger.sourceCount) := by
  induction inputs generalizing s s' with
  | nil => exact ⟨rfl, rfl⟩
  | cons input rest ih =>
    have hstep := h.step fun frame hframe =>
      hf frame (List.mem_filterMap.2 ⟨input, List.mem_cons_self, hframe⟩)
    obtain ⟨hreports, hcounts⟩ := ih hstep.session fun frame hframe => by
      obtain ⟨i, hi, hframe⟩ := List.mem_filterMap.1 hframe
      exact hf frame (List.mem_filterMap.2 ⟨i, List.mem_cons_of_mem _ hi, hframe⟩)
    have hcount : (s.step input).session.debugger.sourceCount =
        (s'.step input).session.debugger.sourceCount := by
      rw [Debugger.sourceCount, Debugger.sourceCount, hstep.session.debugger.registry]
    exact ⟨congrArg₂ List.cons hstep.report hreports, congrArg₂ List.cons hcount hcounts⟩

/-- **Remembering bindings is not seen.** If frames that report the same epoch and
function report the same chunk, a debugger that remembers bindings and one that does
not answer, evaluate, write and count the same at every step. -/
theorem caching_unseen (config : Config) (pathOf : String → Option String) (inputs : List Input)
    (h : ∀ f ∈ inputs.filterMap Input.frame?, ∀ g ∈ inputs.filterMap Input.frame?, f.Agrees g) :
    let remembering := (new { config with caching := .perEpoch } pathOf).outcomes inputs
    let forgetful := (new { config with caching := .never } pathOf).outcomes inputs
    remembering.map Outcome.report = forgetful.map Outcome.report ∧
      remembering.map (·.session.debugger.sourceCount) =
        forgetful.map (·.session.debugger.sourceCount) := by
  obtain ⟨describe, hdescribe⟩ := exists_describedBy h
  have hdebuggers : (Debugger.new { config with caching := .perEpoch } pathOf).SameButCache describe
      (.new { config with caching := .never } pathOf) :=
    ⟨rfl, rfl, rfl, Debugger.coherent_new .., Debugger.coherent_new ..⟩
  have hsame : (new { config with caching := .perEpoch } pathOf).SameButCache describe
      (new { config with caching := .never } pathOf) := ⟨hdebuggers, rfl⟩
  exact hsame.outcomes hdescribe

/-- A line is reached again while its condition is evaluated; then all breakpoints are
removed. A frame that reports no epoch may report any chunk. -/
theorem caching_unseen_nested :
    let frame := Frame.inFile "a" 1 3
    let inputs := [.setBreakpoints (fun _ => true) (.path "a") [(3, { condition := some "x" })],
      .line frame, .line frame, .evaluated (.ok [.boolean true]), .clearAll,
      .evaluated (.ok [.boolean true]), .call frame,
      .call { frame with epoch := none, chunk := none }]
    (∀ f ∈ inputs.filterMap Input.frame?, ∀ g ∈ inputs.filterMap Input.frame?, f.Agrees g) ∧
      ((new { caching := .perEpoch } chunkPath).outcomes inputs).map Outcome.report =
        ((new { caching := .never } chunkPath).outcomes inputs).map Outcome.report := by
  intro frame inputs
  have hframes : inputs.filterMap Input.frame? =
      [frame, frame, frame, { frame with epoch := none, chunk := none }] := rfl
  have hsame : ∀ f ∈ inputs.filterMap Input.frame?, ∀ epoch, f.epoch = some epoch → f = frame := by
    rw [hframes]
    intro f hf epoch hepoch
    simp only [List.mem_cons, List.not_mem_nil, or_false] at hf
    obtain rfl | rfl | rfl | rfl := hf
    · rfl
    · rfl
    · rfl
    · cases hepoch
  have hagree : ∀ f ∈ inputs.filterMap Input.frame?, ∀ g ∈ inputs.filterMap Input.frame?,
      f.Agrees g := by
    intro f hf g hg epoch function hepoch hepoch' _ _
    rw [hsame f hf epoch hepoch, hsame g hg epoch hepoch']
  exact ⟨hagree, (caching_unseen {} chunkPath inputs hagree).1⟩

end Session

end Breakpoints

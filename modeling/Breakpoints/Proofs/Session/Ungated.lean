import Breakpoints.Proofs.Caching
import Breakpoints.Proofs.Registry.Agreement
import Breakpoints.Proofs.Session.History
import Breakpoints.Proofs.Session.Reports

/-!
# Letting lines pass is not seen

A line that no source has a breakpoint at is let pass by its count alone, before the
running function is resolved and again before a table is consulted. A session that
does without both gates resolves more functions, so its sources may have tables, its
cache may have bindings, and its epochs may have changed, where those of a gated one
have not. All that can be told from the outside is the same (`gates_unseen`).
-/

namespace Breakpoints

open Session

variable {describe : Nat → Nat → Option Chunk}

namespace Debugger

/-- Finds out which table a reached line is to be checked against, whatever the counts
say. -/
def locateUngated (frame : Frame) (d : Debugger) : Located :=
  match frame.line with
  | none => ⟨none, d, [.asked .line]⟩
  | some line =>
    let resolution := d.resolve frame
    { place := resolution.binding.map fun b => ⟨b.table, line⟩
      debugger := d.resolved frame
      events := .asked .line :: resolution.events }

/-- What the check of a place does, whatever the counts say. -/
def checkUngated (place : Place) (d : Debugger) : Dialogue Bool :=
  (d.registry.tables.get place.table).check d.config.channel place.line

theorem registry_locateUngated (frame : Frame) (d : Debugger) :
    ∃ source?, (d.locateUngated frame).debugger.registry = (d.registry.bind source?).2 := by
  unfold locateUngated
  split
  · exact ⟨none, rfl⟩
  · exact d.registry_resolved frame

theorem filter_shown_locateUngated (frame : Frame) (d : Debugger) :
    (d.locateUngated frame).events.filter Event.shown = [] := by
  unfold locateUngated
  split
  · rfl
  · exact d.filter_shown_resolve frame

variable {d d' : Debugger}

/-- The debuggers hold the same, and what they remember of functions is right. -/
structure Agrees (describe : Nat → Nat → Option Chunk) (d d' : Debugger) : Prop where
  registry : d.registry.Agrees d'.registry
  config : d.config = d'.config
  pathOf : d.pathOf = d'.pathOf
  coherent : d.Coherent describe
  coherent' : d'.Coherent describe

theorem agrees_new (config : Config) (pathOf : String → Option String) :
    (new config pathOf).Agrees describe (new config pathOf) :=
  ⟨Registry.agrees_empty, rfl, rfl, coherent_new config pathOf, coherent_new config pathOf⟩

theorem Agrees.setBreakpoints (h : d.Agrees describe d') (room : Nat → Bool) (s : Source)
    (placed : List (Nat × Definition)) :
    (d.setBreakpoints room s placed).Agrees describe (d'.setBreakpoints room s placed) :=
  ⟨h.registry.setAll room s placed, h.config, h.pathOf, h.coherent.setBreakpoints room s placed,
    h.coherent'.setBreakpoints room s placed⟩

theorem Agrees.clearSource (h : d.Agrees describe d') (s : Source) :
    (d.clearSource s).Agrees describe (d'.clearSource s) :=
  ⟨h.registry.clearSource s, h.config, h.pathOf, h.coherent.clearSource s,
    h.coherent'.clearSource s⟩

theorem Agrees.clearAll (h : d.Agrees describe d') : d.clearAll.Agrees describe d'.clearAll :=
  ⟨h.registry.clear, h.config, h.pathOf, h.coherent.clearAll, h.coherent'.clearAll⟩

/-- Both resolve the running function. -/
theorem Agrees.resolved (h : d.Agrees describe d') {frame : Frame}
    (hf : d.config.caching = .perEpoch → frame.DescribedBy describe) :
    (d.resolved frame).Agrees describe (d'.resolved frame) ∧
      Registry.PairedBindings (d.resolved frame).registry (d'.resolved frame).registry
        (d.resolve frame).binding (d'.resolve frame).binding := by
  obtain ⟨hregistry, hbinding, hcoherent⟩ := h.coherent.resolved hf
  obtain ⟨hregistry', hbinding', hcoherent'⟩ := h.coherent'.resolved (h.config ▸ hf)
  rw [← h.config, ← h.pathOf] at hregistry' hbinding'
  rw [hregistry, hregistry', hbinding, hbinding']
  refine ⟨⟨?_, h.config, h.pathOf, hcoherent, hcoherent'⟩, h.registry.live_bind _⟩
  rw [hregistry, hregistry']
  exact h.registry.bind _

/-- Only one of them does. -/
theorem Agrees.resolved_right (h : d.Agrees describe d') {frame : Frame}
    (hf : d.config.caching = .perEpoch → frame.DescribedBy describe) :
    d.Agrees describe (d'.resolved frame) := by
  obtain ⟨hregistry', -, hcoherent'⟩ := h.coherent'.resolved (h.config ▸ hf)
  refine ⟨?_, h.config, h.pathOf, h.coherent, hcoherent'⟩
  rw [hregistry']
  exact h.registry.bind_right _

/-- The places are paired and checked alike, or there is nothing to check. -/
inductive PairedPlaces (d d' : Debugger) : Option Place → Option Place → Prop where
  | none : PairedPlaces d d' none none
  | passed {place' : Place} (h : d'.checkUngated place' = .done false) :
    PairedPlaces d d' none (some place')
  | some {id id' : TableId} {line : Nat} (tables : d.registry.Paired d'.registry id id')
      (check : d.check ⟨id, line⟩ = d'.checkUngated ⟨id', line⟩) :
    PairedPlaces d d' (some ⟨id, line⟩) (some ⟨id', line⟩)

theorem Agrees.locate (h : d.Agrees describe d') {frame : Frame}
    (hf : d.config.caching = .perEpoch → frame.DescribedBy describe) :
    (d.locate frame).debugger.Agrees describe (d'.locateUngated frame).debugger ∧
      PairedPlaces (d.locate frame).debugger (d'.locateUngated frame).debugger
        (d.locate frame).place (d'.locateUngated frame).place := by
  cases hline : frame.line with
  | none =>
    simp only [Debugger.locate, locateUngated, hline]
    exact ⟨h, .none⟩
  | some line =>
    simp only [Debugger.locate, locateUngated, hline]
    cases hadmits : d.registry.admits line with
    | false =>
      have hright := h.resolved_right hf
      refine ⟨hright, ?_⟩
      cases (d'.resolve frame).binding with
      | none => exact .none
      | some b =>
        refine .passed ?_
        have hnone := hright.registry.get?_eq_none hadmits b.table
        simp only [checkUngated, Table.check, hnone]
    | true =>
      obtain ⟨hresolved, hbindings⟩ := h.resolved hf
      have hstill : (d.resolved frame).registry.admits line = true := by
        obtain ⟨source?, hbound⟩ := d.registry_resolved frame
        rw [Registry.admits, hbound, Registry.counts_bind]
        exact hadmits
      refine ⟨hresolved, ?_⟩
      simp only [if_true]
      generalize (d.resolve frame).binding = binding?, (d'.resolve frame).binding = binding?'
        at hbindings
      cases hbindings with
      | none => exact .none
      | some hpaired =>
        refine .some hpaired ?_
        simp only [check, Registry.check, hstill, if_true, checkUngated, hresolved.config,
          hresolved.registry.get_eq hpaired]

end Debugger

namespace Session

/-- One input, taken without looking at the counts. -/
def stepUngated (s : Session) : Input → Outcome
  | .line frame =>
    match s.debugger.locateUngated frame with
    | ⟨none, debugger, events⟩ => ⟨{ s with debugger }, events, some (.line false)⟩
    | ⟨some place, debugger, events⟩ =>
      let outcome := proceed debugger s.suspended place (debugger.checkUngated place)
      { outcome with events := events ++ outcome.events }
  | input => s.step input

/-- The outcomes of some inputs, all taken without looking at the counts. -/
def outcomesUngated (s : Session) : List Input → List Outcome
  | [] => []
  | input :: rest => s.stepUngated input :: (s.stepUngated input).session.outcomesUngated rest

/-- The checks wait for the same, at the same line of paired tables. -/
structure PairedChecks (r r' : Registry) (check check' : SuspendedCheck) : Prop where
  tables : r.Paired r' check.place.table check'.place.table
  line : check.place.line = check'.place.line
  waiting : check.waiting = check'.waiting

/-- The sessions hold the same, and their checks wait for the same. -/
structure Agrees (describe : Nat → Nat → Option Chunk) (s s' : Session) : Prop where
  debugger : s.debugger.Agrees describe s'.debugger
  suspended : List.Forall₂ (PairedChecks s.debugger.registry s'.debugger.registry)
    s.suspended s'.suspended

/-- The outcomes leave such sessions, and are reported alike. -/
structure Outcome.Agrees (describe : Nat → Nat → Option Chunk) (o o' : Outcome) : Prop where
  session : o.session.Agrees describe o'.session
  reply : o.answer.map (Answer.reply o.session.debugger.registry.tables) =
    o'.answer.map (Answer.reply o'.session.debugger.registry.tables)
  shown : o.events.filter Event.shown = o'.events.filter Event.shown

theorem Outcome.Agrees.report {o o' : Outcome} (h : o.Agrees describe o') :
    o.report = o'.report :=
  report_eq h.session.debugger.registry.contents h.session.debugger.registry.counts h.reply h.shown

variable {s s' : Session} {d d' : Debugger} {suspended suspended' : List SuspendedCheck}

/-- Suspended checks wait for the same as long as no source loses its table. -/
theorem pairedChecks_mono {r r' r₁ r₁' : Registry}
    (h : List.Forall₂ (PairedChecks r r') suspended suspended') (he : r.Extends r₁)
    (he' : r'.Extends r₁') : List.Forall₂ (PairedChecks r₁ r₁') suspended suspended' :=
  h.imp fun _ _ hc => ⟨hc.tables.mono he he', hc.line, hc.waiting⟩

theorem awaits_eq_of_paired {r r' : Registry} {input : Input}
    (h : List.Forall₂ (PairedChecks r r') s.suspended s'.suspended) :
    s.awaits input = s'.awaits input := by
  unfold awaits
  generalize s.suspended = suspended, s'.suspended = suspended' at h
  cases h with
  | nil => rfl
  | cons hcheck _ => simp only [List.head?_cons, Option.any_some, hcheck.waiting]

theorem agrees_proceed {id id' : TableId} (h : d.Agrees describe d')
    (hs : List.Forall₂ (PairedChecks d.registry d'.registry) suspended suspended')
    (hp : d.registry.Paired d'.registry id id') (line : Nat) (dialogue : Dialogue Bool) :
    (proceed d suspended ⟨id, line⟩ dialogue).Agrees describe
      (proceed d' suspended' ⟨id', line⟩ dialogue) := by
  obtain ⟨hregistry, hstanding, hshown⟩ := h.registry.proceed hp line dialogue
  have hextends := Registry.extends_proceed d.registry id line dialogue
  have hextends' := Registry.extends_proceed d'.registry id' line dialogue
  have hdebugger :
      (d.withTables (dialogue.proceed id line d.registry.tables).tables).Agrees describe
        (d'.withTables (dialogue.proceed id' line d'.registry.tables).tables) :=
    ⟨hregistry, h.config, h.pathOf, h.coherent.withTables _, h.coherent'.withTables _⟩
  have hchecks := pairedChecks_mono hs hextends hextends'
  cases hstand : (dialogue.proceed id line d.registry.tables).standing with
  | finished pause =>
    have hleft : proceed d suspended ⟨id, line⟩ dialogue = _ := proceed_of_finished hstand
    have hright : proceed d' suspended' ⟨id', line⟩ dialogue = _ :=
      proceed_of_finished (hstanding.symm.trans hstand)
    rw [hleft, hright]
    exact ⟨⟨hdebugger, hchecks⟩, rfl, hshown⟩
  | waiting w =>
    have hleft : proceed d suspended ⟨id, line⟩ dialogue = _ := proceed_of_waiting hstand
    have hright : proceed d' suspended' ⟨id', line⟩ dialogue = _ :=
      proceed_of_waiting (hstanding.symm.trans hstand)
    have hpaired := hp.mono hextends hextends'
    rw [hleft, hright]
    exact ⟨⟨hdebugger, .cons ⟨hpaired, rfl, rfl⟩ hchecks⟩, rfl, hshown⟩

/-- A line is reached. -/
theorem Agrees.step_line (h : s.Agrees describe s') {frame : Frame}
    (hf : s.debugger.config.caching = .perEpoch → frame.DescribedBy describe) :
    (s.step (.line frame)).Agrees describe (s'.stepUngated (.line frame)) := by
  obtain ⟨hlocated, hplaces⟩ := h.debugger.locate hf
  have hchecks : List.Forall₂ (PairedChecks (s.debugger.locate frame).debugger.registry
      (s'.debugger.locateUngated frame).debugger.registry) s.suspended s'.suspended := by
    obtain ⟨source?, hbound⟩ := s.debugger.registry_locate frame
    obtain ⟨source?', hbound'⟩ := s'.debugger.registry_locateUngated frame
    rw [hbound, hbound']
    exact pairedChecks_mono h.suspended (Registry.extends_bind ..) (Registry.extends_bind ..)
  have hshown := s.debugger.filter_shown_locate frame
  have hshown' := s'.debugger.filter_shown_locateUngated frame
  simp only [Session.step, stepUngated]
  generalize s.debugger.locate frame = located, s'.debugger.locateUngated frame = located'
    at hlocated hplaces hchecks hshown hshown'
  obtain ⟨place?, d, events⟩ := located
  obtain ⟨place?', d', events'⟩ := located'
  simp only at hlocated hplaces hchecks hshown hshown'
  cases hplaces with
  | none => exact ⟨⟨hlocated, hchecks⟩, rfl, hshown.trans hshown'.symm⟩
  | passed hcheck =>
    simp only [hcheck, proceed_done, List.append_nil]
    exact ⟨⟨hlocated, hchecks⟩, rfl, hshown.trans hshown'.symm⟩
  | @some id id' line hpaired hcheck =>
    have hproceed := agrees_proceed hlocated hchecks hpaired line (d.check ⟨id, line⟩)
    simp only [← hcheck]
    refine ⟨hproceed.session, hproceed.reply, ?_⟩
    rw [List.filter_append, List.filter_append, hshown, hshown', hproceed.shown]

/-- A function is entered or returned to. -/
theorem Agrees.step_call (h : s.Agrees describe s') {frame : Frame}
    (hf : s.debugger.config.caching = .perEpoch → frame.DescribedBy describe) :
    (s.step (.call frame)).Agrees describe (s'.step (.call frame)) := by
  obtain ⟨hresolved, hbindings⟩ := h.debugger.resolved hf
  obtain ⟨source?, hbound⟩ := s.debugger.registry_resolved frame
  obtain ⟨source?', hbound'⟩ := s'.debugger.registry_resolved frame
  have hchecks := pairedChecks_mono h.suspended
    (Registry.extends_bind s.debugger.registry source?)
    (Registry.extends_bind s'.debugger.registry source?')
  rw [← hbound, ← hbound'] at hchecks
  have hshown := s.debugger.filter_shown_resolve frame
  have hshown' := s'.debugger.filter_shown_resolve frame
  refine ⟨⟨hresolved, hchecks⟩, ?_, hshown.trans hshown'.symm⟩
  simp only [Session.step, Option.map_some, Answer.reply]
  generalize (s.debugger.resolve frame).binding = binding?,
    (s'.debugger.resolve frame).binding = binding?' at hbindings
  cases hbindings with
  | none => rfl
  | some hpaired => simp only [Option.map_some, hresolved.registry.get_eq hpaired]

/-- The guest answers. -/
theorem Agrees.answer (h : s.Agrees describe s') {input : Input}
    (hanswer : input.isAnswer = true) : (s.step input).Agrees describe (s'.step input) := by
  rcases s.step_answer hanswer with ⟨check, outer, d, hs, hd, hstep⟩ | ⟨hawaits, hstep⟩
  · have hchecks := h.suspended
    rw [hs] at hchecks
    generalize hs' : s'.suspended = suspended' at hchecks
    cases hchecks with
    | @cons _ check' _ outer' hcheck houter =>
      obtain ⟨⟨id, line⟩, waiting⟩ := check
      obtain ⟨⟨id', line'⟩, waiting'⟩ := check'
      obtain ⟨htables, hline, hwaiting⟩ := hcheck
      simp only at htables hline hwaiting
      subst hline hwaiting
      rw [hstep, step_of_resumed hs' hd]
      exact agrees_proceed h.debugger houter htables line d
  · have hawaits' : s'.awaits input = false := by
      rw [← awaits_eq_of_paired h.suspended]
      exact hawaits
    rw [hstep, step_of_not_awaits hawaits' hanswer]
    exact ⟨h, rfl, rfl⟩

theorem Agrees.step (h : s.Agrees describe s') {input : Input}
    (hf : ∀ frame, input.frame? = some frame → s.debugger.config.caching = .perEpoch →
      frame.DescribedBy describe) :
    (s.step input).Agrees describe (s'.stepUngated input) := by
  obtain ⟨hd, hchecks⟩ := h
  cases input with
  | setBreakpoints room source placed =>
    have hkept := pairedChecks_mono hchecks
      (Registry.extends_setAll s.debugger.registry room source placed)
      (Registry.extends_setAll s'.debugger.registry room source placed)
    exact ⟨⟨hd.setBreakpoints room source placed, hkept⟩, rfl,
      by simp only [Session.step, stepUngated, filter_shown_noted]⟩
  | clearSource source =>
    have hkept := pairedChecks_mono hchecks
      (Registry.extends_clearSource s.debugger.registry source)
      (Registry.extends_clearSource s'.debugger.registry source)
    exact ⟨⟨hd.clearSource source, hkept⟩, rfl,
      by simp only [Session.step, stepUngated, filter_shown_noted]⟩
  | clearAll =>
    have hcleared : List.Forall₂ (PairedChecks s.debugger.registry.clear s'.debugger.registry.clear)
        s.suspended s'.suspended :=
      hchecks.imp fun _ _ hc => ⟨hc.tables.clear, hc.line, hc.waiting⟩
    exact ⟨⟨hd.clearAll, hcleared⟩, rfl,
      by simp only [Session.step, stepUngated, filter_shown_noted]⟩
  | line frame => exact Agrees.step_line ⟨hd, hchecks⟩ (hf frame rfl)
  | call frame => exact Agrees.step_call ⟨hd, hchecks⟩ (hf frame rfl)
  | evaluated | displayed => exact Agrees.answer ⟨hd, hchecks⟩ rfl

theorem Agrees.outcomes (h : s.Agrees describe s') {inputs : List Input}
    (hf : ∀ frame ∈ inputs.filterMap Input.frame?, s.debugger.config.caching = .perEpoch →
      frame.DescribedBy describe) :
    (s.outcomes inputs).map Outcome.report = (s'.outcomesUngated inputs).map Outcome.report := by
  induction inputs generalizing s s' with
  | nil => rfl
  | cons input rest ih =>
    have hstep := h.step fun frame hframe =>
      hf frame (List.mem_filterMap.2 ⟨input, List.mem_cons_self, hframe⟩)
    have hrest := ih hstep.session fun frame hframe => by
      obtain ⟨i, hi, hframe⟩ := List.mem_filterMap.1 hframe
      rw [(s.sameSettings_step input).config]
      exact hf frame (List.mem_filterMap.2 ⟨i, List.mem_cons_of_mem _ hi, hframe⟩)
    exact congrArg₂ List.cons hstep.report hrest

/-- **Letting lines pass is not seen.** A session that never looks at the counts
answers, evaluates, writes and counts the same at every step, provided that it
remembers no bindings or the host says the same of a function throughout an epoch. -/
theorem gates_unseen (config : Config) (pathOf : String → Option String) (inputs : List Input)
    (h : config.caching = .never ∨
      ∃ describe, ∀ frame ∈ inputs.filterMap Input.frame?, frame.DescribedBy describe) :
    ((new config pathOf).outcomes inputs).map Outcome.report =
      ((new config pathOf).outcomesUngated inputs).map Outcome.report := by
  have hdescribed : ∃ describe, ∀ frame ∈ inputs.filterMap Input.frame?,
      config.caching = .perEpoch → frame.DescribedBy describe := by
    rcases h with hnever | ⟨describe, hdescribe⟩
    · refine ⟨fun _ _ => none, fun _ _ hper => ?_⟩
      rw [hnever] at hper
      cases hper
    · exact ⟨describe, fun frame hframe _ => hdescribe frame hframe⟩
  obtain ⟨describe, hf⟩ := hdescribed
  have hagrees : (new config pathOf).Agrees describe (new config pathOf) :=
    ⟨Debugger.agrees_new config pathOf, .nil⟩
  exact hagrees.outcomes hf

/-- While the condition is evaluated, a line is reached that is let pass, and the
breakpoint goes away. -/
theorem gates_unseen_nested :
    let frame := Frame.inFile "a" 1 3
    let inputs := [.setBreakpoints (fun _ => true) (.path "a") [(3, { condition := some "x" })],
      .line frame, .line (Frame.inFile "b" 2 7), .clearSource (.path "a"),
      .evaluated (.ok [.boolean true]), .call frame]
    (∃ describe, ∀ frame ∈ inputs.filterMap Input.frame?, frame.DescribedBy describe) ∧
      ((new {} chunkPath).outcomes inputs).map Outcome.report =
        ((new {} chunkPath).outcomesUngated inputs).map Outcome.report := by
  intro frame inputs
  have hdescribed : ∃ describe, ∀ frame ∈ inputs.filterMap Input.frame?,
      frame.DescribedBy describe := by
    refine ⟨fun _ function =>
      if function = 1 then frame.chunk else (Frame.inFile "b" 2 7).chunk, ?_⟩
    have hframes : inputs.filterMap Input.frame? = [frame, Frame.inFile "b" 2 7, frame] := rfl
    rw [hframes]
    simp only [List.mem_cons, List.not_mem_nil, or_false]
    rintro f (rfl | rfl | rfl) epoch function - hfun <;> cases hfun <;> rfl
  exact ⟨hdescribed, gates_unseen {} chunkPath inputs (.inr hdescribed)⟩

end Session

end Breakpoints

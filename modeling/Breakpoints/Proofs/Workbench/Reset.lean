import Breakpoints.Proofs.Registry.Above
import Breakpoints.Proofs.Workbench

/-!
# Clearing everything starts anew

A debugger that was cleared differs from a new one in two ways: its old tables are
still there, and it remembers the epoch of its last binding. The old tables only move
up the identities of those that are made later. The epoch is not seen either: it
decides nothing but whether bindings are forgotten, and there are none
(`BindingCache.Matches.sync`); once the first function is bound again the epochs are
the same. So whatever is done with a session after everything was cleared is answered
as by a new one (`clearAll_resets`).
-/

namespace Breakpoints

open Session

/-! ## The same above older tables -/

def Answer.above (offset : Nat) : Answer → Answer
  | .call binding => .call (binding.map (.above offset))
  | answer => answer

def Debugger.Place.above (offset : Nat) (place : Debugger.Place) : Debugger.Place :=
  { place with table := place.table.above offset }

def SuspendedCheck.above (offset : Nat) (check : SuspendedCheck) : SuspendedCheck :=
  { check with place := check.place.above offset }

/-- The same request about the same table. -/
def Request.above (offset : Nat) : Request → Request
  | .check channel table line => .check channel (table.above offset) line
  | request => request

/-! ## Caches -/

namespace BindingCache

variable {offset : Nat} {old : List Table} {config : Config} {pathOf : String → Option String}
  {frame : Frame} {r : Registry} {c c' : BindingCache}

/-- The caches remember the same of the same tables. Their epochs may differ as long
as nothing is remembered. -/
structure Matches (offset : Nat) (c c' : BindingCache) : Prop where
  caching : c'.caching = c.caching
  bindings : c'.bindings = c.bindings.map fun e => (e.1, e.2.map (.above offset))
  epoch : c.bindings = [] ∨ c'.epoch = c.epoch

theorem Matches.remembered? (h : c.Matches offset c') (function : Nat) :
    c'.remembered? function = (c.remembered? function).map (Option.map (.above offset)) := by
  rw [BindingCache.remembered?, h.bindings]
  exact lookup_map_snd _ c.bindings function

theorem Matches.size (h : c.Matches offset c') : c'.size = c.size := by
  rw [BindingCache.size, h.bindings, List.length_map]
  rfl

theorem Matches.forgetNotices (h : c.Matches offset c') : c'.forgetNotices = c.forgetNotices := by
  simp only [BindingCache.forgetNotices, h.size, h.bindings, List.isEmpty_map]

theorem Matches.usable (h : c.Matches offset c') (epoch? : Option Nat) :
    c'.usable epoch? = c.usable epoch? := by
  rw [BindingCache.usable, h.caching]
  rfl

theorem Matches.forget (h : c.Matches offset c') : c.forget.Matches offset c'.forget :=
  ⟨h.caching, rfl, .inl rfl⟩

theorem sync_of_unusable {epoch? : Option Nat} (h : c.usable epoch? = false) :
    c.sync epoch? = c := by
  simp [BindingCache.sync, h]

/-- Syncing a cache that remembers nothing only takes over the epoch. -/
theorem sync_of_bare {epoch? : Option Nat} (h : c.bindings = [])
    (husable : c.usable epoch? = true) : c.sync epoch? = { c with epoch := epoch? } := by
  obtain ⟨caching, epoch, bindings⟩ := c
  cases h
  unfold BindingCache.sync
  split
  · rfl
  · next hne =>
    rw [husable, Bool.true_and, bne_iff_ne, not_not] at hne
    cases hne
    rfl

/-- Nor is anything reported, whatever the epoch was. -/
theorem syncEvents_of_bare (h : c.bindings = []) (epoch? : Option Nat) :
    c.syncEvents epoch? = if c.caching = .perEpoch then [.asked .epoch] else [] := by
  simp [BindingCache.syncEvents, BindingCache.forgetNotices, h]

/-- The epochs differ only where that is not seen. -/
theorem Matches.sync (h : c.Matches offset c') (epoch? : Option Nat) :
    (c.sync epoch?).Matches offset (c'.sync epoch?) ∧
      c'.syncEvents epoch? = c.syncEvents epoch? := by
  rcases h.epoch with hbare | hepoch
  · have hbare' : c'.bindings = [] := by rw [h.bindings, hbare]; rfl
    refine ⟨?_, by rw [syncEvents_of_bare hbare, syncEvents_of_bare hbare', h.caching]⟩
    cases husable : c.usable epoch? with
    | false =>
      rw [sync_of_unusable husable, sync_of_unusable ((h.usable epoch?).trans husable)]
      exact h
    | true =>
      rw [sync_of_bare hbare husable, sync_of_bare hbare' ((h.usable epoch?).trans husable)]
      exact ⟨h.caching, h.bindings, .inr rfl⟩
  · constructor
    · unfold BindingCache.sync
      rw [h.usable, hepoch]
      split
      · exact ⟨h.caching, rfl, .inl rfl⟩
      · exact h
    · simp only [BindingCache.syncEvents, h.caching, h.usable, hepoch, h.forgetNotices]

theorem Matches.known? (h : c.Matches offset c') (epoch? : Option Nat) (function : Nat) :
    c'.known? epoch? function = (c.known? epoch? function).map (Option.map (.above offset)) := by
  simp only [BindingCache.known?, h.usable, (h.sync epoch?).1.remembered?]
  split <;> rfl

theorem Matches.remember (h : c.Matches offset c') (hepoch : c'.epoch = c.epoch) (function : Nat)
    (binding? : Option Binding) :
    (c.remember function binding?).Matches offset
      (c'.remember function (binding?.map (.above offset))) where
  caching := h.caching
  bindings := by simp only [BindingCache.remember, h.bindings, List.map_cons]
  epoch := .inr hepoch

/-- The resolutions give the binding to the same table. -/
structure Resolution.Matches (old : List Table) (res res' : Resolution) : Prop where
  binding : res'.binding = res.binding.map (.above old.length)
  cache : res.cache.Matches old.length res'.cache
  registry : res'.registry = res.registry.above old
  events : res'.events = res.events

theorem Matches.resolve (h : c.Matches old.length c') (config : Config)
    (pathOf : String → Option String) (frame : Frame) (r : Registry) :
    (c.resolve config pathOf frame r).Matches old (c'.resolve config pathOf frame (r.above old)) := by
  obtain ⟨hsync, hsyncEvents⟩ := h.sync frame.epoch
  cases hfun : frame.function with
  | none =>
    rw [resolve_of_unknown hfun, resolve_of_unknown hfun]
    exact ⟨rfl, h, rfl, rfl⟩
  | some function =>
    have hknown := h.known? frame.epoch function
    cases hrec : c.known? frame.epoch function with
    | some binding? =>
      rw [hrec] at hknown
      rw [resolve_of_recalled hfun hrec, resolve_of_recalled hfun hknown]
      exact ⟨r.live_above old binding?, hsync, rfl, by rw [hsyncEvents]⟩
    | none =>
      rw [hrec] at hknown
      cases hchunk : frame.chunk with
      | none =>
        rw [resolve_of_undescribed hfun hrec hchunk, resolve_of_undescribed hfun hknown hchunk]
        exact ⟨rfl, hsync, rfl, by rw [hsyncEvents]⟩
      | some chunk =>
        rw [resolve_of_described hfun hrec hchunk, resolve_of_described hfun hknown hchunk]
        simp only [Registry.bind_above, Registry.live_above, h.usable, hsyncEvents]
        refine ⟨rfl, ?_, rfl, rfl⟩
        dsimp only
        split
        · next husable =>
          have husable' : c'.usable frame.epoch = true := (h.usable frame.epoch).trans husable
          exact hsync.remember ((epoch_sync husable').trans (epoch_sync husable).symm) function _
        · exact hsync

end BindingCache

/-! ## Debuggers -/

namespace Debugger

variable {old : List Table} {d d' : Debugger}

/-- The second debugger has older tables beneath those of the first. -/
structure Matches (old : List Table) (d d' : Debugger) : Prop where
  config : d'.config = d.config
  pathOf : d'.pathOf = d.pathOf
  registry : d'.registry = d.registry.above old
  cache : d.cache.Matches old.length d'.cache

theorem setNotices_above (room : Nat → Bool) (s : Source) (placed : List (Nat × Definition))
    (r : Registry) : setNotices room s placed (r.above old) = setNotices room s placed r := by
  induction placed generalizing r with
  | nil => rfl
  | cons p rest ih => simp only [setNotices, Registry.add_above, Registry.addNotice_above, ih]

/-- What is done with both registries alike leaves such debuggers. -/
theorem Matches.withRegistry (h : d.Matches old d') {r r' : Registry} (hr : r' = r.above old) :
    Matches old { d with registry := r } { d' with registry := r' } :=
  ⟨h.config, h.pathOf, hr, h.cache⟩

theorem Matches.clearAll (h : d.Matches old d') :
    d.clearAll.Matches old d'.clearAll ∧ d'.clearAllNotices = d.clearAllNotices := by
  have hregistry : d'.registry.clear = d.registry.clear.above old := by
    rw [h.registry, Registry.clear_above]
  exact ⟨⟨h.config, h.pathOf, hregistry, h.cache.forget⟩,
    congrArg (List.cons Notice.allCleared) h.cache.forgetNotices⟩

theorem Matches.resolve (h : d.Matches old d') (frame : Frame) :
    (d.resolve frame).Matches old (d'.resolve frame) := by
  have hresolve := h.cache.resolve d.config d.pathOf frame d.registry
  unfold Debugger.resolve
  rw [h.config, h.pathOf, h.registry]
  exact hresolve

theorem Matches.resolved (h : d.Matches old d') (frame : Frame) :
    (d.resolved frame).Matches old (d'.resolved frame) :=
  ⟨h.config, h.pathOf, (h.resolve frame).registry, (h.resolve frame).cache⟩

/-- The same place is looked for in the same way. -/
theorem Matches.locate (h : d.Matches old d') (frame : Frame) :
    (d'.locate frame).place = (d.locate frame).place.map (.above old.length) ∧
      (d.locate frame).debugger.Matches old (d'.locate frame).debugger ∧
      (d'.locate frame).events = (d.locate frame).events := by
  unfold Debugger.locate
  cases frame.line with
  | none => exact ⟨rfl, h, rfl⟩
  | some line =>
    dsimp only
    rw [h.registry, Registry.admits_above]
    split
    · have hresolve := h.resolve frame
      refine ⟨?_, h.resolved frame, congrArg (List.cons (Event.asked .line)) hresolve.events⟩
      simp only [hresolve.binding, Option.map_map]
      rfl
    · exact ⟨rfl, h, rfl⟩

theorem Matches.check (h : d.Matches old d') (place : Place) :
    d'.check (place.above old.length) = d.check place := by
  rw [Debugger.check, h.registry, h.config]
  exact Registry.check_above ..

end Debugger

/-! ## Sessions -/

namespace Session

variable {old : List Table} {s s' : Session} {d d' : Debugger}

/-- The second session has older tables beneath those of the first. -/
structure Matches (old : List Table) (s s' : Session) : Prop where
  debugger : s.debugger.Matches old s'.debugger
  suspended : s'.suspended = s.suspended.map (.above old.length)

/-- The outcomes leave such sessions, and say the same of the same tables. -/
structure Outcome.Matches (old : List Table) (o o' : Outcome) : Prop where
  session : o.session.Matches old o'.session
  answer : o'.answer = o.answer.map (.above old.length)
  events : o'.events = o.events.map (.above old.length)

theorem matches_proceed (h : d.Matches old d') (suspended : List SuspendedCheck)
    (place : Debugger.Place) (dialogue : Dialogue Bool) :
    (proceed d suspended place dialogue).Matches old
      (proceed d' (suspended.map (.above old.length)) (place.above old.length) dialogue) := by
  have hprogress : dialogue.proceed (place.above old.length).table (place.above old.length).line
      d'.registry.tables =
        (dialogue.proceed place.table place.line d.registry.tables).above old := by
    rw [h.registry]
    exact Dialogue.proceed_above ..
  have hdebugger : (d.withTables (dialogue.proceed place.table place.line
      d.registry.tables).tables).Matches old (d'.withTables (dialogue.proceed
        (place.above old.length).table (place.above old.length).line d'.registry.tables).tables) := by
    refine h.withRegistry ?_
    rw [hprogress, h.registry]
    rfl
  have hevents := congrArg Dialogue.Progress.events hprogress
  have hstanding := congrArg Dialogue.Progress.standing hprogress
  cases hstand : (dialogue.proceed place.table place.line d.registry.tables).standing with
  | finished pause =>
    rw [proceed_of_finished hstand, proceed_of_finished (hstanding.trans hstand)]
    exact ⟨⟨hdebugger, rfl⟩, rfl, hevents⟩
  | waiting waiting =>
    rw [proceed_of_waiting hstand, proceed_of_waiting (hstanding.trans hstand)]
    exact ⟨⟨hdebugger, rfl⟩, rfl, hevents⟩

theorem Matches.awaits (h : s.Matches old s') (input : Input) :
    s'.awaits input = s.awaits input := by
  unfold Session.awaits
  rw [h.suspended]
  cases s.suspended <;> rfl

/-- The guest answers. -/
theorem Matches.answer (h : s.Matches old s') {input : Input} (hanswer : input.isAnswer = true) :
    (s.step input).Matches old (s'.step input) := by
  rcases s.step_answer hanswer with ⟨check, outer, d, hs, hd, hstep⟩ | ⟨hawaits, hstep⟩
  · have hs' : s'.suspended = check.above old.length :: outer.map (.above old.length) := by
      rw [h.suspended, hs]
      rfl
    rw [hstep, step_of_resumed hs' hd]
    exact matches_proceed h.debugger outer check.place d
  · rw [hstep, step_of_not_awaits ((h.awaits input).trans hawaits) hanswer]
    exact ⟨h, rfl, rfl⟩

theorem Matches.step (h : s.Matches old s') (input : Input) :
    (s.step input).Matches old (s'.step input) := by
  obtain ⟨hd, hsuspended⟩ := h
  cases input with
  | setBreakpoints room source placed =>
    have hregistry : placed.foldl (fun r p => r.add room source p.1 p.2) s'.debugger.registry =
        (placed.foldl (fun r p => r.add room source p.1 p.2) s.debugger.registry).above old := by
      rw [hd.registry, Registry.setAll_above]
    refine ⟨⟨hd.withRegistry hregistry, hsuspended⟩, rfl, ?_⟩
    simp only [Session.step, hd.registry, Debugger.setNotices_above, Event.map_above_noted]
  | clearSource source =>
    have hregistry : s'.debugger.registry.clearSource source =
        (s.debugger.registry.clearSource source).above old := by
      rw [hd.registry, Registry.clearSource_above]
    refine ⟨⟨hd.withRegistry hregistry, hsuspended⟩, rfl, ?_⟩
    simp only [Session.step, hd.registry, Registry.clearSourceNotices_above, Event.map_above_noted]
  | clearAll =>
    obtain ⟨hcleared, hnotices⟩ := hd.clearAll
    exact ⟨⟨hcleared, hsuspended⟩, rfl,
      by simp only [Session.step, hnotices, Event.map_above_noted]⟩
  | line frame =>
    obtain ⟨hplace, hlocated, hevents⟩ := hd.locate frame
    have hsilent := Event.map_above_of_silent (s.debugger.silent_locate frame) old.length
    cases hp : (s.debugger.locate frame).place with
    | none =>
      rw [hp] at hplace
      rw [step_line_of_none hp, step_line_of_none hplace]
      exact ⟨⟨hlocated, hsuspended⟩, rfl, hevents.trans hsilent.symm⟩
    | some place =>
      rw [hp] at hplace
      have hproceed := matches_proceed hlocated s.suspended place
        ((s.debugger.locate frame).debugger.check place)
      rw [step_line_of_some hp, step_line_of_some hplace, hlocated.check, hsuspended]
      refine ⟨hproceed.session, hproceed.answer, ?_⟩
      rw [hproceed.events, hevents, List.map_append, hsilent]
  | call frame =>
    have hresolve := hd.resolve frame
    have hsilent := Event.map_above_of_silent (BindingCache.silent_resolve s.debugger.config
      s.debugger.pathOf frame s.debugger.registry s.debugger.cache) old.length
    refine ⟨⟨hd.resolved frame, hsuspended⟩, ?_, hresolve.events.trans hsilent.symm⟩
    simp only [Session.step, hresolve.binding]
    rfl
  | evaluated | displayed => exact Matches.answer ⟨hd, hsuspended⟩ rfl

theorem Matches.serve (h : s.Matches old s') (request : Request) :
    (s.serve request).Matches old (s'.serve (request.above old.length)) := by
  have hwith {r r' : Registry} (hr : r' = r.above old) :
      (s.withRegistry r).Matches old (s'.withRegistry r') :=
    ⟨h.debugger.withRegistry hr, h.suspended⟩
  have hregistry := h.debugger.registry
  cases request with
  | tell input => exact h.step input
  | add room source line definition =>
    exact ⟨hwith (by rw [hregistry, Registry.add_above]), rfl,
      by simp only [Session.serve, Request.above, hregistry, Registry.addNotice_above]; rfl⟩
  | clearSource source =>
    refine ⟨hwith (by rw [hregistry, Registry.clearSource_above]), rfl, ?_⟩
    simp only [Session.serve, Request.above, hregistry, Registry.clearSourceNotices_above,
      Event.map_above_noted]
  | clear => exact ⟨hwith (by rw [hregistry, Registry.clear_above]), rfl, rfl⟩
  | lookup source => exact ⟨hwith (by rw [hregistry, Registry.intern_above]), rfl, rfl⟩
  | check channel table line =>
    have hproceed := matches_proceed h.debugger s.suspended ⟨table, line⟩
      (s.debugger.registry.check channel table line)
    have hcheck : s'.debugger.registry.check channel (table.above old.length) line =
        s.debugger.registry.check channel table line := by
      rw [hregistry, Registry.check_above]
    simp only [Session.serve, Request.above, hcheck, h.suspended]
    exact hproceed

/-! ## What can be told of a session -/

/-- The outcomes of some requests, in order. -/
def replies (s : Session) : List Request → List Outcome
  | [] => []
  | request :: rest => s.serve request :: (s.serve request).session.replies rest

end Session

/-- The debuggers cannot be told apart from outside, if the second one counts so many
older tables. -/
structure Debugger.Alike (offset : Nat) (d d' : Debugger) : Prop where
  hits? : ∀ s line, d'.hits? s line = d.hits? s line
  breakpoints : ∀ s, d'.breakpoints s = d.breakpoints s
  sourceCount : d'.sourceCount = d.sourceCount
  cachedCount : d'.cachedCount = d.cachedCount
  isEmpty : d'.isEmpty = d.isEmpty
  admits : ∀ line, d'.registry.admits line = d.registry.admits line
  table : ∀ s, d'.registry.find? s = (d.registry.find? s).map (.above offset)
  held : ∀ id, d'.registry.tables.get (id.above offset) = d.registry.tables.get id

/-- Nor can the outcomes: the answers and all that is seen are the same. -/
structure Session.Outcome.Alike (offset : Nat) (o o' : Outcome) : Prop where
  answer : o'.answer = o.answer.map (.above offset)
  events : o'.events = o.events.map (.above offset)
  debugger : o.session.debugger.Alike offset o'.session.debugger

theorem Debugger.Matches.alike {old : List Table} {d d' : Debugger} (h : d.Matches old d') :
    d.Alike old.length d' where
  hits? := fun s line => by simp only [Debugger.hits?, h.registry, Registry.contents_above]
  breakpoints := fun s => by simp only [Debugger.breakpoints, h.registry, Registry.contents_above]
  sourceCount := by simp only [Debugger.sourceCount, h.registry, Registry.length_sources_above]
  cachedCount := h.cache.size
  isEmpty := by simp only [Debugger.isEmpty, h.registry, Registry.counts_above]
  admits := fun line => by rw [h.registry, Registry.admits_above]
  table := fun s => by rw [h.registry, Registry.find?_above]
  held := fun id => by rw [h.registry, Registry.tables_above, Tables.get_above]

namespace Session

variable {old : List Table} {s s' : Session}

theorem Matches.replies (h : s.Matches old s') (requests : List Request) :
    List.Forall₂ (Outcome.Alike old.length) (s.replies requests)
      (s'.replies (requests.map (.above old.length))) := by
  induction requests generalizing s s' with
  | nil => exact .nil
  | cons request rest ih =>
    have hserve := h.serve request
    exact .cons ⟨hserve.answer, hserve.events, hserve.session.debugger.alike⟩ (ih hserve.session)

theorem sameSettings_serve (s : Session) (request : Request) :
    s.debugger.SameSettings (s.serve request).session.debugger := by
  cases request with
  | tell input => exact s.sameSettings_step input
  | add | clearSource | clear | lookup => exact ⟨rfl, rfl, rfl⟩
  | check => exact sameSettings_proceed ..

theorem sameSettings_served (s : Session) (requests : List Request) :
    s.debugger.SameSettings (s.served requests).debugger := by
  induction requests generalizing s with
  | nil => exact .refl s.debugger
  | cons request rest ih => exact (s.sameSettings_serve request).trans (ih _)

/-- Once everything is cleared and no check is suspended, only the old tables and the
last epoch are left. -/
theorem matches_clearAll {config : Config} {pathOf : String → Option String}
    (h : (Debugger.new config pathOf).SameSettings s.debugger) (hs : s.suspended = []) :
    (new config pathOf).Matches s.debugger.registry.clear.tables.cells
      (s.step .clearAll).session where
  debugger :=
    { config := h.config
      pathOf := h.pathOf
      registry := by simp [Session.step, Debugger.clearAll, Registry.clear, Registry.above,
        Registry.sourcesAbove, Tables.above, Session.new, Debugger.new, Registry.empty, Tables.none]
      cache := ⟨h.caching, rfl, .inl rfl⟩ }
  suspended := by simp [Session.step, hs, Session.new]

/-- **Clearing everything is a full reset.** When no check is suspended and everything
is cleared, all that follows is answered, asked for, evaluated, written and counted as
by a new debugger, at every step and also while checks are suspended, provided that
none of the old tables is used any more. New tables are told apart from old ones by
the number of the latter. -/
theorem clearAll_resets (config : Config) (pathOf : String → Option String)
    (before requests : List Request) (h : ((new config pathOf).served before).suspended = []) :
    let cleared := (((new config pathOf).served before).step .clearAll).session
    let offset := cleared.debugger.registry.tables.fresh.slot
    (new config pathOf).debugger.Alike offset cleared.debugger ∧
      List.Forall₂ (Outcome.Alike offset) ((new config pathOf).replies requests)
        (cleared.replies (requests.map (.above offset))) := by
  intro cleared offset
  have hmatches := matches_clearAll ((new config pathOf).sameSettings_served before) h
  exact ⟨hmatches.debugger.alike, hmatches.replies requests⟩

/-- Before, a line is reached again while its condition is evaluated, and its function
stays bound. Afterwards the function is bound again in the same epoch, to a new table,
which is checked once more on its own. -/
theorem clearAll_resets_nested :
    let frame := Frame.inFile "a" 1 3
    let holds : Request := .tell (.evaluated (.ok [.boolean true]))
    let before : List Request := [.add (fun _ => true) (.path "a") 3 { condition := some "x" },
      .tell (.line frame), .tell (.line frame), holds, .lookup (.path "b"), holds]
    let requests : List Request := [.tell (.call frame),
      .add (fun _ => true) (.path "a") 3 { condition := some "y" }, .tell (.line frame), holds,
      .check .console ⟨0⟩ 3, holds]
    let cleared := (((new {} chunkPath).served before).step .clearAll).session
    let offset := cleared.debugger.registry.tables.fresh.slot
    ((new {} chunkPath).served before).suspended = [] ∧ offset = 2 ∧
      List.Forall₂ (Outcome.Alike offset) ((new {} chunkPath).replies requests)
        (cleared.replies (requests.map (.above offset))) := by
  intro frame holds before requests cleared offset
  have hsuspended : ((new {} chunkPath).served before).suspended.length = 0 := by decide +kernel
  have hoffset : offset = 2 := by decide +kernel
  exact ⟨List.length_eq_zero_iff.1 hsuspended, hoffset,
    (clearAll_resets {} chunkPath before requests (List.length_eq_zero_iff.1 hsuspended)).2⟩

end Session

end Breakpoints

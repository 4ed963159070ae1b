import Breakpoints.Proofs.Debugger.Separation
import Breakpoints.Proofs.Dialogue.Scene
import Breakpoints.Proofs.Registry.Hits

/-!
# What a reached line is put down to

Which breakpoint a reached line is checked against goes through the counts, the cache with
its epoch, the marker in the description of the chunk, the path that the description is
looked up by, and the handle. In the end it is the breakpoint at the line of the source that
the frame is attributed to (`Frame.At`), and nothing else is written to: whatever is seen of
the line is what this breakpoint alone comes to, and it is hit at most once
(`line_attributed`).
-/

namespace Breakpoints

variable {σ : Type}

/-! ## The source of a frame -/

namespace Config

/-- The description starts with a marker. -/
def Marks (config : Config) (description : String) : Prop :=
  ∃ c ∈ config.markers, description.toList.head? = some c

/-- The source that a chunk is attributed to: a path, if its description is marked and there
is a path for it, or else its handle. -/
inductive Attributes (config : Config) (pathOf : String → Option String) (chunk : Chunk) :
    Source → Prop where
  | named {name : String} (marked : config.Marks chunk.description)
      (known : pathOf chunk.description = some name) : Attributes config pathOf chunk (.path name)
  | handled {id : Int} (unnamed : config.Marks chunk.description → pathOf chunk.description = none)
      (handle : chunk.handle = some id) : Attributes config pathOf chunk (.handle id)

theorem isNamed_iff {config : Config} {description : String} :
    config.isNamed description = true ↔ config.Marks description := by
  unfold isNamed Marks
  cases description.toList with
  | nil => simp
  | cons c cs => simp [eq_comm]

theorem sourceOf_eq_some_iff {config : Config} {pathOf : String → Option String} {chunk : Chunk}
    {s : Source} :
    config.sourceOf pathOf chunk = some s ↔ config.Attributes pathOf chunk s := by
  have hpath : (if config.isNamed chunk.description then pathOf chunk.description else none) =
      none ↔ (config.Marks chunk.description → pathOf chunk.description = none) := by
    rw [ite_eq_right_iff, isNamed_iff]
  unfold sourceOf
  constructor
  · intro h
    split at h
    · next name hname =>
      cases h
      rw [Option.ite_none_right_eq_some, isNamed_iff] at hname
      exact .named hname.1 hname.2
    · next hnone =>
      obtain ⟨id, hid, rfl⟩ := Option.map_eq_some_iff.1 h
      exact .handled (hpath.1 hnone) hid
  · rintro (⟨marked, known⟩ | ⟨unnamed, handle⟩)
    · rw [if_pos (isNamed_iff.2 marked), known]
    · rw [hpath.2 unnamed, handle]
      rfl

end Config

/-- The host reports this line, a function, and a chunk that is attributed to this source. -/
structure Frame.At (config : Config) (pathOf : String → Option String) (s : Source) (line : Nat)
    (frame : Frame) : Prop where
  line : frame.line = some line
  function : frame.function.isSome = true
  chunk : ∃ chunk, frame.chunk = some chunk ∧ config.Attributes pathOf chunk s

theorem Frame.at_iff {config : Config} {pathOf : String → Option String} {s : Source} {line : Nat}
    {frame : Frame} :
    frame.At config pathOf s line ↔
      frame.line = some line ∧ frame.source? config pathOf = some s := by
  constructor
  · rintro ⟨hline, hfunction, chunk, hchunk, hattributed⟩
    obtain ⟨function, hfunction⟩ := Option.isSome_iff_exists.1 hfunction
    refine ⟨hline, ?_⟩
    simp only [source?, hfunction, hchunk, Option.bind_some]
    exact Config.sourceOf_eq_some_iff.2 hattributed
  · rintro ⟨hline, hs⟩
    obtain ⟨function, hfunction, hs⟩ := Option.bind_eq_some_iff.1 hs
    obtain ⟨chunk, hchunk, hs⟩ := Option.bind_eq_some_iff.1 hs
    exact ⟨hline, Option.isSome_iff_exists.2 ⟨function, hfunction⟩, chunk, hchunk,
      Config.sourceOf_eq_some_iff.1 hs⟩

/-! ## A breakpoint by itself -/

namespace Breakpoint

theorem hit_of_le {b : Breakpoint} (h : b.hits ≤ maxHits) :
    b.hit = b ∨ b.hit = { b with hits := b.hits + 1 } := by
  obtain hmax | hless : b.hits = maxHits ∨ b.hits < maxHits := Nat.eq_or_lt_of_le h
  · left
    rw [hit, hmax, Nat.min_eq_right (Nat.le_succ maxHits), ← hmax]
  · right
    rw [hit, Nat.min_eq_left hless]

/-- A check hits its breakpoint at most once. -/
theorem tables_run_check (channel : Channel) (b : Breakpoint) (g : Dialogue.Guest σ)
    (id : TableId) (line : Nat) (ts : Tables) (state : σ) :
    ((b.check channel line).run g id line ts state).tables = ts ∨
      ((b.check channel line).run g id line ts state).tables =
        (Dialogue.countHit id line ts).2 := by
  let e := (Dialogue.holdsIfAny b.condition).run g id line ts state
  have htables : e.tables = ts := (Dialogue.onlyShows_holdsIfAny b.condition).tables_run ts state
  have hcheck : ((b.check channel line).run g id line ts state).tables =
      ((b.checkOnceHeld channel line e.result).run g id line ts e.guest).tables := by
    rw [check_eq_bind, Dialogue.run_bind]
    exact congrArg (fun ts => (Dialogue.run g id line _ ts _).tables) htables
  rw [hcheck]
  cases e.result with
  | false => exact .inl rfl
  | true =>
    right
    simp only [checkOnceHeld, Dialogue.run]
    cases (Dialogue.countHit id line ts).1 with
    | none => rfl
    | some hits => exact (b.onlyShows_checkHit channel line hits).tables_run _ _

/-- Checks a breakpoint as if there were no other. -/
def checkAlone (channel : Channel) (line : Nat) (b : Breakpoint) (g : Dialogue.Guest σ)
    (state : σ) : Dialogue.Ending σ Bool :=
  (b.check channel line).run g ⟨0⟩ line ⟨[Table.empty.set line b]⟩ state

end Breakpoint

namespace Table

variable {t : Table} {frame : Frame} {line : Nat} {b : Breakpoint}

/-- The other breakpoints of a table make no difference to a line. -/
theorem runLine_related (channel : Channel) (hline : frame.line = some line)
    (hb : t.get? line = some b) (g : Dialogue.Guest σ) (state : σ) :
    (t.runLine channel frame g state).Related
      (fun ts ts' => (ts.get ⟨0⟩).get? line = (ts'.get ⟨0⟩).get? line)
      (b.checkAlone channel line g state) := by
  have hrun : t.runLine channel frame g state =
      (b.check channel line).run g ⟨0⟩ line ⟨[t]⟩ state := by
    simp only [runLine, hline, check, hb]
  rw [hrun]
  apply Dialogue.run_related_get?
  show t.get? line = (Table.empty.set line b).get? line
  rw [hb, get?_set, if_pos rfl]

/-- The table stays as it is, but for one hit at most. -/
theorem get_tables_runLine (channel : Channel) (hline : frame.line = some line)
    (g : Dialogue.Guest σ) (state : σ) :
    (t.runLine channel frame g state).tables.get ⟨0⟩ = t ∨
      (t.runLine channel frame g state).tables.get ⟨0⟩ = t.hit line := by
  simp only [runLine, hline, check]
  cases hb : t.get? line with
  | none => exact .inl rfl
  | some b =>
    rcases b.tables_run_check channel g ⟨0⟩ line ⟨[t]⟩ state with htables | htables
    · left
      rw [htables]
      rfl
    · right
      rw [htables, Tables.get_countHit, if_pos rfl]
      rfl

end Table

/-! ## Debuggers that are reached -/

theorem LineCounts.lt_sizeLimit_of_cover? {room : Nat → Bool} {line : Nat} {c c' : LineCounts}
    (hsize : c.size < sizeLimit) (h : c.cover? room line = some c') : line + 1 < sizeLimit := by
  unfold cover? at h
  split at h
  · omega
  · split at h
    · next hroom => exact of_decide_eq_true (Bool.and_eq_true_iff.1 hroom).1
    · cases h

namespace Registry

variable {r : Registry} {history : List Event}

/-- There is a limit to how far the counts can reach. -/
theorem Arises.size_lt (h : Arises history r) : r.counts.size < LineCounts.sizeLimit := by
  induction h with
  | refl => exact Nat.two_pow_pos 64
  | @step _ _ r _ before h ih =>
    cases h with
    | add room s line d =>
      cases hc : r.counts.cover? room line with
      | none => rwa [add_of_cover?_eq_none hc]
      | some c =>
        rw [size_counts_add hc]
        exact max_lt ih (LineCounts.lt_sizeLimit_of_cover? ih hc)
    | clearSource s => rwa [size_counts_clearSource]
    | clear => exact Nat.two_pow_pos 64
    | lookup s => rwa [counts_intern]
    | hit held => exact ih
    | silent h => exact ih

/-- If there is always room, whatever is counted could be counted. -/
theorem Arises.sound (h : Arises history r) : r.Sound fun _ => true := by
  refine ⟨h.wellFormed, h.exact, fun line hline => ?_⟩
  have hsize := h.size_lt
  simp only [LineCounts.fits, Bool.and_true, decide_eq_true_eq]
  omega

end Registry

namespace Debugger

variable {describe : Nat → Nat → Option Chunk} {d : Debugger} {frame : Frame}

/-- If no bindings are remembered, any description will do. -/
theorem exists_describes {config : Config} {frames : List Frame}
    (pathOf : String → Option String)
    (h : config.caching = .never ∨ ∃ describe, ∀ f ∈ frames, f.DescribedBy describe) :
    ∃ describe, ∀ f ∈ frames, (new config pathOf).Describes describe f := by
  rcases h with hnever | ⟨describe, hdescribe⟩
  · refine ⟨fun _ _ => none, fun f _ hper => ?_⟩
    rw [new, hnever] at hper
    cases hper
  · exact ⟨describe, fun f hf _ => hdescribe f hf⟩

theorem Coherent.locate (h : d.Coherent describe) (hf : d.Describes describe frame) :
    (d.locate frame).debugger.Coherent describe := by
  rcases d.locate_debugger frame with hlocated | hlocated <;> rw [hlocated]
  · exact h
  · exact (h.resolved hf).2.2

end Debugger

namespace Session

variable {describe : Nat → Nat → Option Chunk} {s : Session}

theorem coherent_proceed {d : Debugger} (h : d.Coherent describe) (outer : List SuspendedCheck)
    (place : Debugger.Place) (check : Dialogue Bool) :
    (proceed d outer place check).session.debugger.Coherent describe := by
  rw [debugger_proceed]
  exact h.withTables _

theorem coherent_step (h : s.debugger.Coherent describe) {input : Input}
    (hf : ∀ frame, input.frame? = some frame → s.debugger.Describes describe frame) :
    (s.step input).session.debugger.Coherent describe := by
  have hanswer (hinput : input.isAnswer = true) :
      (s.step input).session.debugger.Coherent describe := by
    rcases s.step_answer hinput with ⟨check, outer, d, -, -, hstep⟩ | ⟨-, hstep⟩ <;> rw [hstep]
    · exact coherent_proceed h ..
    · exact h
  cases input with
  | setBreakpoints room source placed => exact h.setBreakpoints room source placed
  | clearSource source => exact h.clearSource source
  | clearAll => exact h.clearAll
  | call frame => exact (h.resolved (hf frame rfl)).2.2
  | line frame =>
    have hlocated := h.locate (hf frame rfl)
    cases hplace : (s.debugger.locate frame).place with
    | none =>
      rw [step_line_of_none hplace]
      exact hlocated
    | some place =>
      rw [step_line_of_some hplace]
      exact coherent_proceed hlocated ..
  | evaluated | displayed => exact hanswer rfl

theorem sameSettings_after (s : Session) (inputs : List Input) :
    s.debugger.SameSettings (s.after inputs).debugger :=
  after_induction (P := fun s' => s.debugger.SameSettings s'.debugger)
    (fun s' input h => h.trans (s'.sameSettings_step input)) (.refl _) inputs

theorem coherent_after (h : s.debugger.Coherent describe) {inputs : List Input}
    (hf : ∀ frame ∈ inputs.filterMap Input.frame?, s.debugger.Describes describe frame) :
    (s.after inputs).debugger.Coherent describe := by
  induction inputs generalizing s with
  | nil => exact h
  | cons input rest ih =>
    apply ih
    · exact coherent_step h fun frame hframe =>
        hf frame (List.mem_filterMap.2 ⟨input, List.mem_cons_self, hframe⟩)
    · intro frame hframe
      obtain ⟨later, hlater, hframe⟩ := List.mem_filterMap.1 hframe
      rw [Debugger.Describes, (s.sameSettings_step input).config]
      exact hf frame (List.mem_filterMap.2 ⟨later, List.mem_cons_of_mem _ hlater, hframe⟩)

end Session

/-! ## The frame of a line -/

namespace Debugger

variable {describe : Nat → Nat → Option Chunk} {d : Debugger} {frame : Frame}

theorem counts_runLine (d : Debugger) (frame : Frame) (g : Dialogue.Guest σ) (state : σ) :
    (d.runLine g frame state).debugger.registry.counts = d.registry.counts := by
  obtain ⟨source?, hbound⟩ := d.registry_locate frame
  have hlocated : (d.locate frame).debugger.registry.counts = d.registry.counts := by
    rw [hbound, Registry.counts_bind]
  cases hplace : (d.locate frame).place with
  | none => rw [runLine_of_none hplace, hlocated]
  | some place =>
    rw [runLine_of_some hplace]
    exact hlocated

theorem sources_runLine (d : Debugger) (frame : Frame) (g : Dialogue.Guest σ) (state : σ) :
    (d.runLine g frame state).debugger.registry.sources =
      (d.locate frame).debugger.registry.sources := by
  cases hplace : (d.locate frame).place with
  | none => rw [runLine_of_none hplace]
  | some place =>
    rw [runLine_of_some hplace]
    rfl

/-- A source is given a table only if the frame is attributed to it. -/
theorem Coherent.sources_locate (h : d.Coherent describe) (hf : d.Describes describe frame) :
    (d.locate frame).debugger.registry.sources = d.registry.sources ∨
      ∃ s line id, frame.At d.config d.pathOf s line ∧ d.registry.find? s = none ∧
        (d.locate frame).debugger.registry.sources = d.registry.sources ++ [(s, id)] := by
  obtain ⟨hregistry, -, -⟩ := h.resolved hf
  unfold Debugger.locate
  cases hline : frame.line with
  | none => exact .inl rfl
  | some line =>
    dsimp only
    split
    · cases hs : frame.source? d.config d.pathOf with
      | none =>
        left
        rw [hregistry, hs]
        rfl
      | some s =>
        rw [hregistry, hs]
        cases hfind : d.registry.find? s with
        | some id =>
          left
          simp only [Registry.bind, Registry.fst_intern hfind]
        | none =>
          right
          refine ⟨s, line, d.registry.tables.fresh, Frame.at_iff.2 ⟨hline, hs⟩, hfind, ?_⟩
          simp only [Registry.bind, Registry.intern_of_find?_eq_none hfind]
    · exact .inl rfl

section Sound

variable {s : Source} {line : Nat} {b : Breakpoint}
  (h : d.Sound describe fun _ => true) (hf : d.Describes describe frame)
include h hf

theorem Sound.contents_runLine_of_ne (hs : frame.source? d.config d.pathOf ≠ some s)
    (g : Dialogue.Guest σ) (state : σ) :
    (d.runLine g frame state).debugger.registry.contents s = d.registry.contents s := by
  have hconcerns : (Command.line frame g state).concerns d.config d.pathOf s = false :=
    decide_eq_false hs
  refine h.contents_obey ?_ hconcerns
  rintro _ ⟨⟩
  exact hf

/-- **A line where the source of the frame has a breakpoint** comes to what this breakpoint
alone comes to. -/
theorem Sound.runLine_at (hat : frame.At d.config d.pathOf s line)
    (hb : (d.registry.contents s).get? line = some b) (hhits : b.hits ≤ Breakpoint.maxHits)
    (g : Dialogue.Guest σ) (state : σ) :
    let o := d.runLine g frame state
    let contents := o.debugger.registry.contents
    let alone := b.checkAlone d.config.channel line g state
    (o.pause = alone.result ∧ o.guest = alone.guest ∧
        o.events.filter Event.shown = alone.events.filter Event.shown ∧
        (contents s).get? line = (alone.tables.get ⟨0⟩).get? line) ∧
      ((contents s).get? line = some b ∨
        (contents s).get? line = some { b with hits := b.hits + 1 }) ∧
      ∀ s' l, (s', l) ≠ (s, line) → (contents s').get? l = (d.registry.contents s').get? l := by
  obtain ⟨hline, hs⟩ := Frame.at_iff.1 hat
  intro o contents alone
  obtain ⟨hpause, hguest, hshown, hcontents⟩ := h.runLine_self hf hs g state
  have halone := Table.runLine_related d.config.channel hline hb g state
  have htable : contents s = d.registry.contents s ∨
      contents s = (d.registry.contents s).hit line := by
    rw [show contents s = _ from hcontents]
    exact Table.get_tables_runLine d.config.channel hline g state
  refine ⟨⟨hpause.trans halone.result, hguest.trans halone.guest, hshown.trans halone.shown, ?_⟩,
    ?_, ?_⟩
  · rw [show contents s = _ from hcontents]
    exact halone.tables
  · rcases htable with htable | htable <;> rw [htable]
    · exact .inl hb
    · rw [Table.get?_hit, if_pos rfl, hb, Option.map_some]
      exact (b.hit_of_le hhits).imp (congrArg some) (congrArg some)
  · intro s' l hne
    by_cases hs' : s' = s
    · subst hs'
      have hl : l ≠ line := fun hl => hne (hl ▸ rfl)
      rcases htable with htable | htable <;> rw [htable]
      rw [Table.get?_hit, if_neg hl]
    · have hother : frame.source? d.config d.pathOf ≠ some s' := fun hs'' =>
        hs' (Option.some.inj (hs''.symm.trans hs))
      rw [show contents s' = _ from h.contents_runLine_of_ne hf hother g state]

/-- **A line without a breakpoint** in the source of the frame comes to nothing, and so does
one that has no source. -/
theorem Sound.runLine_elsewhere (g : Dialogue.Guest σ) (state : σ)
    (hnone : ¬∃ s line, frame.At d.config d.pathOf s line ∧
      (d.registry.contents s).holds line = true) :
    let o := d.runLine g frame state
    o.pause = false ∧ o.guest = state ∧ o.events.filter Event.shown = [] ∧
      ∀ s, o.debugger.registry.contents s = d.registry.contents s := by
  intro o
  cases hs : frame.source? d.config d.pathOf with
  | none =>
    have hplace : (d.locate frame).place = none := by
      cases hplace : (d.locate frame).place with
      | none => rfl
      | some place =>
        obtain ⟨-, -, s, hsome, -⟩ := h.place_locate hf hplace
        rw [hs] at hsome
        cases hsome
    simp only [o, runLine_of_none hplace]
    exact ⟨trivial, trivial, d.filter_shown_locate frame, d.contents_locate frame⟩
  | some s =>
    have hget : ∀ line, frame.line = some line → (d.registry.contents s).get? line = none := by
      intro line hline
      rw [← Option.not_isSome_iff_eq_none]
      exact fun hholds => hnone ⟨s, line, Frame.at_iff.2 ⟨hline, hs⟩, hholds⟩
    obtain ⟨hpause, hguest, hshown, hcontents⟩ := h.runLine_self hf hs g state
    rw [Table.runLine_of_get?_eq_none hget] at hpause hguest hshown hcontents
    refine ⟨hpause, hguest, hshown, fun s' => ?_⟩
    by_cases hs' : s' = s
    · rw [hs']
      exact hcontents
    · exact h.contents_runLine_of_ne hf (fun h => hs' (Option.some.inj (h.symm.trans hs))) g state

/-- The source of the frame may be given a table, which then holds nothing. -/
theorem Sound.sources_runLine (g : Dialogue.Guest σ) (state : σ) :
    let r' := (d.runLine g frame state).debugger.registry
    r'.sources = d.registry.sources ∨
      ∃ s line id, frame.At d.config d.pathOf s line ∧ d.registry.find? s = none ∧
        r'.sources = d.registry.sources ++ [(s, id)] ∧ r'.tables.get id = .empty := by
  intro r'
  have hsources : r'.sources = _ := d.sources_runLine frame g state
  rcases h.coherent.sources_locate hf with hsame | ⟨s, line, id, hat, hfind, hnew⟩
  · exact .inl (hsources.trans hsame)
  -- The table is new, so the source had no breakpoint and still has none.
  have hempty : d.registry.contents s = .empty := Registry.contents_of_find?_eq_none hfind
  have hnone : ¬∃ s line, frame.At d.config d.pathOf s line ∧
      (d.registry.contents s).holds line = true := by
    rintro ⟨s', line', hat', hholds⟩
    obtain rfl : s' = s :=
      Option.some.inj ((Frame.at_iff.1 hat').2.symm.trans (Frame.at_iff.1 hat).2)
    rw [hempty] at hholds
    cases hholds
  have hfound : r'.find? s = some id := by
    have hlookup : d.registry.sources.lookup s = none := hfind
    rw [Registry.find?, hsources, hnew, Registry.lookup_append_singleton, if_pos rfl]
    exact congrArg (Option.or · (some id)) hlookup
  refine .inr ⟨s, line, id, hat, hfind, hsources.trans hnew, ?_⟩
  rw [← Registry.contents_of_find? hfound, (h.runLine_elsewhere hf g state hnone).2.2.2 s, hempty]

end Sound

end Debugger

namespace Session

/-- **A line is put down to one breakpoint.** Take a debugger that was told anything before,
also one whose checks are suspended, and a frame in which a line is reached while the guest
leaves the debugger alone. Let the debugger remember no bindings, or the host say the same
of a function throughout an epoch. If the source that the frame is attributed to has a
breakpoint at the line, then whether to pause, what is evaluated, displayed and printed and
how often the breakpoint is hit is what this breakpoint alone comes to, and nothing changes
but that it may have been hit once more. Otherwise, also if the line, the function, the
chunk or the source is missing, there is no pause, nothing is seen and no breakpoint
changes. The counts are the same in any case, and at most the source of the frame is given
a table, which is empty. -/
theorem line_attributed (config : Config) (pathOf : String → Option String) (inputs : List Input)
    (frame : Frame) (g : Dialogue.Guest σ) (state : σ)
    (h : config.caching = .never ∨
      ∃ describe, ∀ f ∈ frame :: inputs.filterMap Input.frame?, f.DescribedBy describe) :
    let d := ((new config pathOf).after inputs).debugger
    let o := d.runLine g frame state
    let r := d.registry
    let r' := o.debugger.registry
    (∀ s line b, frame.At config pathOf s line → (r.contents s).get? line = some b →
      let alone := b.checkAlone config.channel line g state
      (o.pause = alone.result ∧ o.guest = alone.guest ∧
          o.events.filter Event.shown = alone.events.filter Event.shown ∧
          (r'.contents s).get? line = (alone.tables.get ⟨0⟩).get? line) ∧
        ((r'.contents s).get? line = some b ∨
          (r'.contents s).get? line = some { b with hits := b.hits + 1 }) ∧
        ∀ s' l, (s', l) ≠ (s, line) → (r'.contents s').get? l = (r.contents s').get? l) ∧
    ((¬∃ s line, frame.At config pathOf s line ∧ (r.contents s).holds line = true) →
      o.pause = false ∧ o.guest = state ∧ o.events.filter Event.shown = [] ∧
        ∀ s, r'.contents s = r.contents s) ∧
    r'.counts = r.counts ∧
    (r'.sources = r.sources ∨
      ∃ s line id, frame.At config pathOf s line ∧ r.find? s = none ∧
        r'.sources = r.sources ++ [(s, id)] ∧ r'.tables.get id = .empty) := by
  intro d o r r'
  obtain ⟨describe, hdescribe⟩ := Debugger.exists_describes pathOf h
  obtain ⟨hframe, hinputs⟩ := List.forall_mem_cons.1 hdescribe
  have hsettings := sameSettings_after (new config pathOf) inputs
  have hconfig : d.config = config := hsettings.config
  have hpathOf : d.pathOf = pathOf := hsettings.pathOf
  have hf : d.Describes describe frame := by
    rw [Debugger.Describes, hconfig]
    exact hframe
  have ha : Registry.Arises ((new config pathOf).history inputs) r :=
    (recorded_after config pathOf inputs).arises
  have hsound : d.Sound describe fun _ => true :=
    ⟨ha.sound, coherent_after (Debugger.coherent_new config pathOf) hinputs⟩
  rw [← hconfig, ← hpathOf]
  refine ⟨fun s line b hat hb => ?_, hsound.runLine_elsewhere hf g state,
    d.counts_runLine frame g state, hsound.sources_runLine hf g state⟩
  obtain ⟨id, hid, -⟩ := Registry.exists_find?_of_contents_ne_empty (Table.ne_empty_of_get? hb)
  have hhits : b.hits ≤ Breakpoint.maxHits := by
    rw [ha.accounts hid hb]
    exact Nat.min_le_right ..
  exact hsound.runLine_at hf hat hb hhits g state

/-- Two sources have a breakpoint at the line. The function was bound when it was called, and
only the breakpoint of its own source is hit. -/
theorem line_attributed_shared_line :
    let room : Nat → Bool := fun n => n ≤ 100
    let guest : Dialogue.Guest Unit := ⟨fun _ s => (.ok [.boolean true], s), fun _ s => (.ok "", s)⟩
    let frame := Frame.inFile "a" 1 3
    let inputs : List Input :=
      [.setBreakpoints room (.handle 5) [(3, {})],
        .setBreakpoints room (.path "a") [(3, { condition := some "x" }), (4, {})], .call frame]
    let d := ((new {} chunkPath).after inputs).debugger
    let o := d.runLine guest frame ()
    (∃ describe, ∀ f ∈ frame :: inputs.filterMap Input.frame?, f.DescribedBy describe) ∧
      frame.At {} chunkPath (.path "a") 3 ∧
      (∀ s l, (s, l) ≠ (.path "a", 3) →
        (o.debugger.registry.contents s).get? l = (d.registry.contents s).get? l) ∧
      o.debugger.registry.counts = d.registry.counts ∧ o.pause = true ∧
      o.debugger.breakpoints (.path "a") =
        [(3, ⟨some "x", none, none, 1⟩), (4, ⟨none, none, none, 0⟩)] := by
  intro room guest frame inputs d o
  have hdescribed : ∃ describe, ∀ f ∈ frame :: inputs.filterMap Input.frame?,
      f.DescribedBy describe := by
    refine ⟨fun _ _ => frame.chunk, ?_⟩
    have hframes : frame :: inputs.filterMap Input.frame? = [frame, frame] := rfl
    rw [hframes]
    simp only [List.mem_cons, List.not_mem_nil, or_false, or_self]
    rintro f rfl epoch function - -
    rfl
  have hat : frame.At {} chunkPath (.path "a") 3 := Frame.at_iff.2 ⟨rfl, by decide +kernel⟩
  obtain ⟨hheld, -, hcounts, -⟩ :=
    line_attributed {} chunkPath inputs frame guest () (.inr hdescribed)
  have hb : (d.registry.contents (.path "a")).get? 3 = some ⟨some "x", none, none, 0⟩ := by
    decide +kernel
  obtain ⟨-, -, hothers⟩ := hheld (.path "a") 3 _ hat hb
  refine ⟨hdescribed, hat, ?_, ?_, by decide +kernel, by decide +kernel⟩
  · unfold o d
    exact hothers
  · unfold o d
    exact hcounts

end Session

end Breakpoints

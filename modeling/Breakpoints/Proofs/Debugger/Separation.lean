import Breakpoints.Proofs.Caching
import Breakpoints.Proofs.Debugger.Commands
import Breakpoints.Proofs.Session.Reports

/-!
# Sources are kept apart

All sources share the counts of lines, the remembered bindings and the epoch. Still, a line
in a frame of a source is checked as if the table of this source were the only one
(`Debugger.Sound.runLine_self`), breakpoints are set in no other table than that of their
source, and a command that does not concern a source leaves its table as it is
(`Debugger.Sound.contents_obey`).
-/

namespace Breakpoints

variable {σ : Type} {room : Nat → Bool}

/-! ## Lines that fit -/

namespace LineCounts

/-- Whether a line can be counted, as far as this is a matter of the line alone. -/
def fits (room : Nat → Bool) (line : Nat) : Bool := line + 1 < sizeLimit && room (line + 1)

/-- Where there is room for so many counts, there is room for fewer. -/
def RoomForFewer (room : Nat → Bool) : Prop := ∀ m n, m ≤ n → room n = true → room m = true

/-- Only lines that fit are covered. -/
def Fitting (room : Nat → Bool) (c : LineCounts) : Prop := ∀ line < c.size, fits room line = true

variable {c c' : LineCounts} {line : Nat}

theorem fits_of_le (hroom : RoomForFewer room) {l : Nat} (h : fits room line = true)
    (hle : l ≤ line) : fits room l = true := by
  simp only [fits, Bool.and_eq_true, decide_eq_true_eq] at h ⊢
  exact ⟨by omega, hroom _ _ (by omega) h.2⟩

/-- Whether a line is covered on demand does not depend on what is covered already. -/
theorem Fitting.isSome_cover? (h : c.Fitting room) (line : Nat) :
    (c.cover? room line).isSome = fits room line := by
  unfold cover?
  split
  · next hcovered => rw [h line hcovered]; rfl
  · unfold fits
    split
    · next hroom => rw [hroom]; rfl
    · next hroom => rw [Bool.not_eq_true] at hroom; rw [hroom]; rfl

theorem Fitting.cover {room' : Nat → Bool} (hroom : RoomForFewer room) (hle : room' ≤ room)
    (h : c.Fitting room) (hc : c.cover? room' line = some c') : c'.Fitting room := by
  have hline : fits room line = true := by
    unfold cover? at hc
    split at hc
    · next hcovered => exact h line hcovered
    · split at hc
      · next hfits =>
        rw [Bool.and_eq_true] at hfits
        exact Bool.and_eq_true_iff.2 ⟨hfits.1, hle _ hfits.2⟩
      · cases hc
  intro l hl
  rw [size_cover? hc] at hl
  by_cases hold : l < c.size
  · exact h l hold
  · exact fits_of_le hroom hline (by omega)

theorem Fitting.of_size (h : c.Fitting room) (hsize : c'.size = c.size) : c'.Fitting room :=
  fun line hline => h line (hsize ▸ hline)

end LineCounts

open LineCounts (fits RoomForFewer)

/-- Sets breakpoints one after the other, as far as their lines fit. -/
def Table.defineAll (room : Nat → Bool) (placed : List (Nat × Definition)) (t : Table) : Table :=
  placed.foldl (fun t p => if fits room p.1 then t.define p.1 p.2 else t) t

/-! ## Registries -/

namespace Registry

variable {r : Registry}

/-- What every registry keeps to in which only fitting lines were covered. -/
structure Sound (room : Nat → Bool) (r : Registry) : Prop where
  wellFormed : r.WellFormed
  exact : r.Exact
  fitting : r.counts.Fitting room

theorem sound_empty : empty.Sound room :=
  ⟨wellFormed_empty, exact_empty, fun line hline => absurd hline (Nat.not_lt_zero line)⟩

/-- There must not be room for more counts than are taken to fit. -/
theorem Sound.add {room' : Nat → Bool} (hroom : RoomForFewer room) (hle : room' ≤ room)
    (h : r.Sound room) (s : Source) (line : Nat) (d : Definition) :
    (r.add room' s line d).Sound room := by
  refine ⟨h.wellFormed.add room' s line d, h.exact.add h.wellFormed room' s line d, ?_⟩
  cases hc : r.counts.cover? room' line with
  | none =>
    rw [add_of_cover?_eq_none hc]
    exact h.fitting
  | some c =>
    have hsize : (r.add room' s line d).counts.size = c.size :=
      (size_counts_add hc s d).trans (LineCounts.size_cover? hc).symm
    exact (h.fitting.cover hroom hle hc).of_size hsize

theorem Sound.contents_add (h : r.Sound room) (s : Source) (line : Nat) (d : Definition)
    (s' : Source) :
    (r.add room s line d).contents s' =
      if s' = s then (r.contents s).defineAll room [(line, d)] else r.contents s' := by
  rw [h.wellFormed.contents_add, h.fitting.isSome_cover?]
  by_cases hs : s' = s <;> simp [hs, Table.defineAll]

theorem Sound.setAll {room' : Nat → Bool} (hroom : RoomForFewer room) (hle : room' ≤ room)
    (h : r.Sound room) (s : Source) (placed : List (Nat × Definition)) :
    (placed.foldl (fun r p => r.add room' s p.1 p.2) r).Sound room := by
  induction placed generalizing r with
  | nil => exact h
  | cons p rest ih => exact ih (h.add hroom hle s p.1 p.2)

/-- Only the table of the source is written to, and only at lines that fit. -/
theorem Sound.contents_setAll (hroom : RoomForFewer room) (h : r.Sound room) (s : Source)
    (placed : List (Nat × Definition)) (s' : Source) :
    (placed.foldl (fun r p => r.add room s p.1 p.2) r).contents s' =
      if s' = s then (r.contents s).defineAll room placed else r.contents s' := by
  induction placed generalizing r with
  | nil =>
    split
    · next hs => rw [hs]; rfl
    · rfl
  | cons p rest ih =>
    rw [List.foldl_cons, ih (h.add hroom le_rfl s p.1 p.2), h.contents_add, h.contents_add,
      if_pos rfl]
    split <;> rfl

/-- No other table is written to, whatever room there is. -/
theorem WellFormed.contents_setAll_of_ne {s s' : Source} (h : r.WellFormed) (hne : s' ≠ s)
    (room : Nat → Bool) (placed : List (Nat × Definition)) :
    (placed.foldl (fun r p => r.add room s p.1 p.2) r).contents s' = r.contents s' := by
  induction placed generalizing r with
  | nil => rfl
  | cons p rest ih =>
    rw [List.foldl_cons, ih (h.add room s p.1 p.2), h.contents_add, if_neg fun hs => hne hs.2]

theorem Sound.clearSource (h : r.Sound room) (s : Source) : (r.clearSource s).Sound room :=
  ⟨h.wellFormed.clearSource s, h.exact.clearSource h.wellFormed s,
    h.fitting.of_size (size_counts_clearSource r s)⟩

theorem Sound.clear (h : r.Sound room) : r.clear.Sound room :=
  ⟨h.wellFormed.clear, exact_clear r, fun line hline => absurd hline (Nat.not_lt_zero line)⟩

theorem Sound.hit (h : r.Sound room) (id : TableId) (line : Nat) : (r.hit id line).Sound room :=
  ⟨h.wellFormed.hit id line, h.exact.hit id line, h.fitting⟩

theorem Sound.bind (h : r.Sound room) (source? : Option Source) :
    (r.bind source?).2.Sound room := by
  cases source? with
  | none => exact h
  | some s =>
    refine ⟨h.wellFormed.intern s, h.exact.intern s, h.fitting.of_size ?_⟩
    exact congrArg LineCounts.size (counts_intern r s)

/-- Binding anew to a source gives its table, if the source has a breakpoint. -/
theorem live_bind (r : Registry) (s : Source) :
    (r.bind (some s)).2.live (r.bind (some s)).1 =
      if (r.contents s).isEmpty then none else some ⟨s, (r.intern s).1⟩ := by
  have hget : (r.intern s).2.tables.get (r.intern s).1 = r.contents s := by
    rw [← contents_of_find? (find?_intern_self r s), contents_intern]
  simp only [bind, live, Option.filter_some, hget]
  cases (r.contents s).isEmpty <;> rfl

/-- A check of a line only counts hits. -/
theorem Sound.run {α : Type} (h : r.Sound room) (g : Dialogue.Guest σ) (id : TableId)
    (line : Nat) (d : Dialogue α) (state : σ) :
    Sound room { r with tables := (d.run g id line r.tables state).tables } :=
  Dialogue.run_induction g id line (P := fun ts => Sound room { r with tables := ts })
    (fun _ hts => hts.hit id line) d h state

/-- A check against the table of one source is not seen in another. -/
theorem WellFormed.contents_run {α : Type} {s s' : Source} {id : TableId} (h : r.WellFormed)
    (hs : r.find? s = some id) (hne : s' ≠ s) (g : Dialogue.Guest σ) (line : Nat) (d : Dialogue α)
    (state : σ) :
    contents { r with tables := (d.run g id line r.tables state).tables } s' = r.contents s' := by
  obtain ⟨r', hr'⟩ :
      ∃ r', r' = { r with tables := (d.run g id line r.tables state).tables } := ⟨_, rfl⟩
  have hsources : r'.find? s' = r.find? s' := by rw [hr']; rfl
  rw [← hr']
  cases hs' : r.find? s' with
  | none => rw [contents_of_find?_eq_none hs', contents_of_find?_eq_none (hsources.trans hs')]
  | some id' =>
    have hid : id' ≠ id := by
      rintro rfl
      exact hne (h.unshared hs' hs)
    rw [contents_of_find? hs', contents_of_find? (hsources.trans hs'), hr']
    exact Dialogue.get_run_of_ne g id line hid d r.tables state

end Registry

/-! ## Debuggers -/

namespace Debugger

variable {describe : Nat → Nat → Option Chunk} {d : Debugger} {frame : Frame} {s : Source}

/-- What every debugger keeps to whose frames are described consistently. -/
structure Sound (describe : Nat → Nat → Option Chunk) (room : Nat → Bool) (d : Debugger) :
    Prop where
  registry : d.registry.Sound room
  coherent : d.Coherent describe

theorem sound_new (config : Config) (pathOf : String → Option String) :
    (new config pathOf).Sound describe room :=
  ⟨Registry.sound_empty, coherent_new config pathOf⟩

/-- The frame is described consistently, if bindings are remembered at all. -/
abbrev Describes (describe : Nat → Nat → Option Chunk) (d : Debugger) (frame : Frame) : Prop :=
  d.config.caching = .perEpoch → frame.DescribedBy describe

theorem SameSettings.describes {d' : Debugger} (h : d.SameSettings d')
    (hf : d.Describes describe frame) : d'.Describes describe frame := by
  rw [Describes, h.config]
  exact hf

theorem Sound.resolved (h : d.Sound describe room) (hf : d.Describes describe frame) :
    (d.resolved frame).Sound describe room := by
  obtain ⟨hregistry, -, hcoherent⟩ := h.coherent.resolved hf
  refine ⟨?_, hcoherent⟩
  rw [hregistry]
  exact h.registry.bind _

theorem Sound.locate (h : d.Sound describe room) (hf : d.Describes describe frame) :
    (d.locate frame).debugger.Sound describe room := by
  rcases d.locate_debugger frame with hlocated | hlocated <;> rw [hlocated]
  · exact h
  · exact h.resolved hf

theorem Sound.runLine (h : d.Sound describe room) (hf : d.Describes describe frame)
    (g : Dialogue.Guest σ) (state : σ) :
    (d.runLine g frame state).debugger.Sound describe room := by
  have hlocated := h.locate hf
  cases hplace : (d.locate frame).place with
  | none =>
    rw [runLine_of_none hplace]
    exact hlocated
  | some place =>
    rw [runLine_of_some hplace]
    exact ⟨hlocated.registry.run .., hlocated.coherent.withTables _⟩

theorem Sound.obey (hroom : RoomForFewer room) (h : d.Sound describe room) (c : Command σ)
    (hle : ∀ room', c.room? = some room' → room' ≤ room)
    (hf : ∀ frame, c.frame? = some frame → d.Describes describe frame) :
    (d.obey c).debugger.Sound describe room := by
  cases c with
  | setBreakpoints room' s placed =>
    exact ⟨h.registry.setAll hroom (hle room' rfl) s placed,
      h.coherent.setBreakpoints room' s placed⟩
  | clearSource s => exact ⟨h.registry.clearSource s, h.coherent.clearSource s⟩
  | clearAll => exact ⟨h.registry.clear, h.coherent.clearAll⟩
  | line frame g state => exact h.runLine (hf frame rfl) g state
  | call frame => exact h.resolved (hf frame rfl)

theorem sameSettings_obey (d : Debugger) (c : Command σ) :
    d.SameSettings (d.obey c).debugger := by
  cases c with
  | setBreakpoints | clearSource | clearAll => exact ⟨rfl, rfl, rfl⟩
  | call frame => exact d.sameSettings_resolved frame
  | line frame g state =>
    have hlocated := d.sameSettings_locate frame
    simp only [obey]
    cases hplace : (d.locate frame).place with
    | none =>
      rw [runLine_of_none hplace]
      exact hlocated
    | some place =>
      rw [runLine_of_some hplace]
      exact hlocated.trans ⟨rfl, rfl, rfl⟩

/-! ## Where a line is checked -/

/-- Finding out where a line is checked changes no breakpoint and no count. -/
theorem contents_locate (frame : Frame) (d : Debugger) (s : Source) :
    (d.locate frame).debugger.registry.contents s = d.registry.contents s := by
  obtain ⟨source?, hbound⟩ := d.registry_locate frame
  rw [hbound, Registry.contents_bind]

theorem admits_locate (frame : Frame) (d : Debugger) (line : Nat) :
    (d.locate frame).debugger.registry.admits line = d.registry.admits line := by
  obtain ⟨source?, hbound⟩ := d.registry_locate frame
  rw [Registry.admits, hbound, Registry.counts_bind]
  rfl

/-- A line is checked against the table of the source that the frame belongs to. -/
theorem Sound.place_locate (h : d.Sound describe room) (hf : d.Describes describe frame)
    {place : Place} (hplace : (d.locate frame).place = some place) :
    frame.line = some place.line ∧ d.registry.admits place.line = true ∧
      ∃ s, frame.source? d.config d.pathOf = some s ∧
        (d.locate frame).debugger.registry.find? s = some place.table := by
  obtain ⟨hregistry, hbinding, -⟩ := h.coherent.resolved hf
  unfold Debugger.locate at hplace ⊢
  cases hline : frame.line with
  | none =>
    simp only [hline] at hplace
    cases hplace
  | some line =>
    simp only [hline] at hplace ⊢
    cases hadmits : d.registry.admits line with
    | false =>
      rw [hadmits] at hplace
      cases hplace
    | true =>
      simp only [hadmits, if_true] at hplace ⊢
      obtain ⟨b, hb, rfl⟩ := Option.map_eq_some_iff.1 hplace
      rw [hbinding] at hb
      rw [hregistry]
      cases hsource : frame.source? d.config d.pathOf with
      | none =>
        rw [hsource] at hb
        cases hb
      | some s =>
        rw [hsource, Registry.live_bind] at hb
        split at hb
        · cases hb
        · cases hb
          exact ⟨rfl, hadmits, s, rfl, Registry.find?_intern_self d.registry s⟩

/-- If a line is not checked, its source has no breakpoint there. -/
theorem Sound.get?_of_unplaced (h : d.Sound describe room) (hf : d.Describes describe frame)
    (hplace : (d.locate frame).place = none) {line : Nat} (hline : frame.line = some line)
    (hs : frame.source? d.config d.pathOf = some s) :
    (d.registry.contents s).get? line = none := by
  obtain ⟨-, hbinding, -⟩ := h.coherent.resolved hf
  cases hadmits : d.registry.admits line with
  | false =>
    by_contra hheld
    have hholds : (d.registry.contents s).holds line = true := Option.isSome_iff_ne_none.2 hheld
    rw [h.registry.exact.admits_iff.2 ⟨s, hholds⟩] at hadmits
    cases hadmits
  | true =>
    simp only [Debugger.locate, hline, hadmits, if_true, Option.map_eq_none_iff] at hplace
    rw [hbinding, hs, Registry.live_bind] at hplace
    split at hplace
    · next hempty => exact Table.isEmpty_iff_get?.1 hempty line
    · cases hplace

end Debugger

/-! ## Lines of one source -/

/-- Whether a command says anything about the source: it sets or clears breakpoints there,
or its frame belongs to the source. -/
def Command.concerns (config : Config) (pathOf : String → Option String) (s : Source) :
    Command σ → Bool
  | .setBreakpoints _ s' _ | .clearSource s' => s' = s
  | .clearAll => true
  | .line frame _ _ | .call frame => frame.source? config pathOf = some s

namespace Table

/-- Checks a reached line against this table and no other. -/
def runLine (channel : Channel) (frame : Frame) (g : Dialogue.Guest σ) (state : σ) (t : Table) :
    Dialogue.Ending σ Bool :=
  match frame.line with
  | none => ⟨false, ⟨[t]⟩, state, []⟩
  | some line => (t.check channel line).run g ⟨0⟩ line ⟨[t]⟩ state

theorem runLine_of_get?_eq_none {t : Table} {frame : Frame}
    (h : ∀ line, frame.line = some line → t.get? line = none) (channel : Channel)
    (g : Dialogue.Guest σ) (state : σ) :
    t.runLine channel frame g state = ⟨false, ⟨[t]⟩, state, []⟩ := by
  unfold runLine
  split
  · rfl
  · next line hline => simp only [check, h line hline, Dialogue.run]

end Table

namespace Debugger

variable {describe : Nat → Nat → Option Chunk} {d : Debugger} {frame : Frame} {s : Source}

theorem SameSettings.concerns_eq {d' : Debugger} (h : d.SameSettings d') (c : Command σ)
    (s : Source) : c.concerns d'.config d'.pathOf s = c.concerns d.config d.pathOf s := by
  rw [h.config, h.pathOf]

/-- A line in a frame of the source is checked as if there were no other table. -/
theorem Sound.runLine_self (h : d.Sound describe room) (hf : d.Describes describe frame)
    (hs : frame.source? d.config d.pathOf = some s) (g : Dialogue.Guest σ) (state : σ) :
    let outcome := d.runLine g frame state
    let ending := (d.registry.contents s).runLine d.config.channel frame g state
    outcome.pause = ending.result ∧ outcome.guest = ending.guest ∧
      outcome.events.filter Event.shown = ending.events.filter Event.shown ∧
      outcome.debugger.registry.contents s = ending.tables.get ⟨0⟩ := by
  intro outcome ending
  have hshown := d.filter_shown_locate frame
  have hcontents := d.contents_locate frame s
  cases hplace : (d.locate frame).place with
  | none =>
    have hending : ending = ⟨false, ⟨[d.registry.contents s]⟩, state, []⟩ :=
      Table.runLine_of_get?_eq_none (fun _ hline => h.get?_of_unplaced hf hplace hline hs) ..
    simp only [outcome, runLine_of_none hplace, hending]
    exact ⟨trivial, trivial, hshown, hcontents⟩
  | some place =>
    obtain ⟨hline, hadmits, s', hs', hfind⟩ := h.place_locate hf hplace
    obtain rfl : s' = s := Option.some.inj (hs'.symm.trans hs)
    have htable : (d.locate frame).debugger.registry.tables.get place.table =
        d.registry.contents s' := by
      rw [← hcontents, Registry.contents_of_find? hfind]
    have hcheck : (d.locate frame).debugger.check place =
        (d.registry.contents s').check d.config.channel place.line := by
      rw [check, Registry.check, admits_locate, hadmits, if_pos rfl, htable,
        (d.sameSettings_locate frame).config]
    have hending : ending = ((d.registry.contents s').check d.config.channel place.line).run g ⟨0⟩
        place.line ⟨[d.registry.contents s']⟩ state := by
      simp only [ending, Table.runLine, hline]
    have hsame :
        (((d.registry.contents s').check d.config.channel place.line).run g place.table place.line
          (d.locate frame).debugger.registry.tables state).Same place.table ⟨0⟩
          (((d.registry.contents s').check d.config.channel place.line).run g ⟨0⟩ place.line
            ⟨[d.registry.contents s']⟩ state) := Dialogue.run_same g _ htable state
    simp only [outcome, runLine_of_some hplace, hcheck, hending]
    refine ⟨hsame.result, hsame.guest, ?_, ?_⟩
    · rw [List.filter_append, hshown, List.nil_append, hsame.shown]
    · rw [← hsame.table]
      exact Registry.contents_of_find? hfind

/-- **A command that does not concern a source** leaves the breakpoints of the source as
they are. -/
theorem Sound.contents_obey (h : d.Sound describe room) {c : Command σ}
    (hf : ∀ frame, c.frame? = some frame → d.Describes describe frame)
    (hc : c.concerns d.config d.pathOf s = false) :
    (d.obey c).debugger.registry.contents s = d.registry.contents s := by
  cases c with
  | setBreakpoints room' s' placed =>
    have hne : s ≠ s' := Ne.symm (of_decide_eq_false hc)
    exact h.registry.wellFormed.contents_setAll_of_ne hne room' placed
  | clearSource s' =>
    have hne : s ≠ s' := Ne.symm (of_decide_eq_false hc)
    exact (h.registry.wellFormed.contents_clearSource s' s).trans (if_neg hne)
  | clearAll => cases hc
  | line frame g state =>
    have hother : frame.source? d.config d.pathOf ≠ some s := of_decide_eq_false hc
    rw [← d.contents_locate frame s]
    cases hplace : (d.locate frame).place with
    | none => simp only [Debugger.obey, runLine_of_none hplace]
    | some place =>
      obtain ⟨-, -, s', hs', hfind⟩ := h.place_locate (hf frame rfl) hplace
      have hne : s ≠ s' := by
        rintro rfl
        exact hother hs'
      simp only [Debugger.obey, runLine_of_some hplace, withTables]
      exact (h.locate (hf frame rfl)).registry.wellFormed.contents_run hfind hne ..
  | call frame =>
    obtain ⟨source?, hbound⟩ := d.registry_resolved frame
    simp only [Debugger.obey, hbound, Registry.contents_bind]

end Debugger

end Breakpoints

import Breakpoints.Proofs.Session.Sharing
import Breakpoints.Proofs.Workbench
import Mathlib.Logic.Function.Basic

/-!
# References to tables

A lookup hands out the table of a source, and so does a binding to that source. A
ledger notes all tables that are handed out while a session and any number of other
caches use one registry. Those handed out since the registry was last cleared are the
tables that their sources have now; all older ones are empty and stay so
(`references_shared`). What carries this is that no table ever changes hands: a table
belongs to the source that it was made for, or to none (`Registry.Reserved`).
-/

namespace Breakpoints

/-- What is done with a registry by a session or by somebody else. -/
inductive Use where
  | ask (request : Request)
  /-- The table of a source is looked for, but not made. -/
  | get (source : Source)
  /-- A hit is recorded in a table, which need not be that of a source. -/
  | hit (table : TableId) (line : Nat)
  /-- A function is resolved with one of the other caches. -/
  | resolve (cache : Nat) (config : Config) (pathOf : String → Option String) (frame : Frame)
  /-- One of the other caches forgets its bindings. -/
  | forget (cache : Nat)

def Request.clears : Request → Bool
  | .tell input => input.clears
  | .clear => true
  | _ => false

/-- Whether the registry is cleared. -/
def Use.clears : Use → Bool
  | .ask request => request.clears
  | _ => false

/-- A table that was handed out for a source, and how often the registry had been
cleared by then. -/
structure Reference extends Binding where
  clearings : Nat

/-- The binding that a reached line is checked by. -/
def Debugger.lineBinding (frame : Frame) (d : Debugger) : Option Binding :=
  match frame.line with
  | none => none
  | some line => if d.registry.admits line then (d.resolve frame).binding else none

/-- A reached line is checked in the table of its binding. -/
theorem Debugger.place_locate (frame : Frame) (d : Debugger) :
    (d.locate frame).place =
      (d.lineBinding frame).bind fun b => frame.line.map fun line => ⟨b.table, line⟩ := by
  unfold locate lineBinding
  cases frame.line with
  | none => rfl
  | some line =>
    dsimp only
    split
    · cases (d.resolve frame).binding <;> rfl
    · rfl

theorem Debugger.locate_of_lineBinding {frame : Frame} {d : Debugger} {b : Binding}
    (h : d.lineBinding frame = some b) :
    (d.locate frame).debugger = d.resolved frame ∧ (d.resolve frame).binding = some b := by
  unfold lineBinding at h
  unfold locate
  cases hline : frame.line with
  | none =>
    rw [hline] at h
    cases h
  | some line =>
    rw [hline] at h
    dsimp only at h ⊢
    split at h
    · next hadmits =>
      rw [if_pos hadmits]
      exact ⟨rfl, h⟩
    · cases h

/-- A session, other caches that share its registry, and the tables that were handed
out. -/
structure Ledger where
  session : Session
  caches : Nat → BindingCache
  clearings : Nat
  references : List Reference

namespace Ledger

def new (config : Config) (pathOf : String → Option String) (modes : Nat → Caching) : Ledger where
  session := .new config pathOf
  caches := fun cache => .empty (modes cache)
  clearings := 0
  references := []

abbrev registry (l : Ledger) : Registry := l.session.debugger.registry

/-- The resolution of a function with one of the other caches. -/
def resolution (l : Ledger) (cache : Nat) (config : Config) (pathOf : String → Option String)
    (frame : Frame) : BindingCache.Resolution :=
  (l.caches cache).resolve config pathOf frame l.registry

/-- The table that is handed out, if any is, with the source that it is handed out for. -/
def handed? (l : Ledger) : Use → Option Binding
  | .ask (.lookup source) => some ⟨source, (l.registry.intern source).1⟩
  | .ask (.tell (.line frame)) => l.session.debugger.lineBinding frame
  | .ask (.tell (.call frame)) => (l.session.debugger.resolve frame).binding
  | .get source => (l.registry.find? source).map (Binding.mk source)
  | .resolve cache config pathOf frame => (l.resolution cache config pathOf frame).binding
  | _ => none

def step (l : Ledger) (use : Use) : Ledger where
  session :=
    match use with
    | .ask request => (l.session.serve request).session
    | .hit table line => l.session.withRegistry (l.registry.hit table line)
    | .resolve cache config pathOf frame =>
      l.session.withRegistry (l.resolution cache config pathOf frame).registry
    | .get _ | .forget _ => l.session
  caches :=
    match use with
    | .resolve cache config pathOf frame =>
      Function.update l.caches cache (l.resolution cache config pathOf frame).cache
    | .forget cache => Function.update l.caches cache (l.caches cache).forget
    | _ => l.caches
  clearings := if use.clears then l.clearings + 1 else l.clearings
  references := l.references ++ ((l.handed? use).map fun b => ⟨b, l.clearings⟩).toList

/-- The ledger after some uses. -/
def after (l : Ledger) (uses : List Use) : Ledger := uses.foldl step l

end Ledger

/-! ## Tables that are reserved for a source, and tables that nobody has -/

namespace Registry

variable {r r' : Registry} {s s' : Source} {id id' : TableId} {b : Binding}

/-- The table belongs to no other source. -/
structure Reserved (r : Registry) (b : Binding) : Prop where
  made : r.tables.Has b.table
  owner : ∀ {s}, r.find? s = some b.table → s = b.source

theorem Reserved.mono (h : r.Reserved b) (hp : r.Precedes r') : r'.Reserved b where
  made := hp.made h.made
  owner := fun hs => h.owner (hp.owner h.made hs)

theorem WellFormed.reserved (h : r.WellFormed) (hb : r.find? b.source = some b.table) :
    r.Reserved b where
  made := h.made hb
  owner := fun hs => h.unshared hs hb

/-- The table was made, and no source has it any more. -/
structure Abandoned (r : Registry) (id : TableId) : Prop where
  made : r.tables.Has id
  bare : ∀ s, r.find? s ≠ some id

theorem Abandoned.mono (h : r.Abandoned id) (hp : r.Precedes r') : r'.Abandoned id where
  made := hp.made h.made
  bare := fun s hs => h.bare s (hp.owner h.made hs)

theorem abandoned_clear (h : r.tables.Has id) : r.clear.Abandoned id where
  made := (precedes_clear r).made h
  bare := fun s hs => by cases hs

/-- Sources have the same table only if they are the same. -/
theorem WellFormed.table_eq_iff (h : r.WellFormed) (hs : r.find? s = some id)
    (hs' : r.find? s' = some id') : id = id' ↔ s = s' := by
  constructor
  · rintro rfl
    exact h.unshared hs hs'
  · rintro rfl
    exact Option.some.inj (hs.symm.trans hs')

theorem hit_of_get?_eq_none {line : Nat} (h : (r.tables.get id).get? line = none) :
    r.hit id line = r := by
  rw [hit, countHit_of_get?_eq_none id line h]

theorem Evolves.hit {start : Registry} {history : List Event} (h : start.Evolves history r)
    (id : TableId) (line : Nat) : ∃ history', start.Evolves history' (r.hit id line) := by
  cases hb : (r.tables.get id).get? line with
  | none => exact ⟨history, by rwa [hit_of_get?_eq_none hb]⟩
  | some b => exact ⟨_, h.step (.hit hb)⟩

end Registry

namespace BindingCache

variable {config : Config} {pathOf : String → Option String} {frame : Frame} {r : Registry}
  {c : BindingCache}

theorem extends_resolve (config : Config) (pathOf : String → Option String) (frame : Frame)
    (r : Registry) (c : BindingCache) : r.Extends (c.resolve config pathOf frame r).registry := by
  obtain ⟨source?, hbound⟩ := registry_resolve config pathOf frame r c
  rw [hbound]
  exact Registry.extends_bind r source?

/-- Resolving keeps tables reserved, and answers with the table that the source has: it
is not empty, so it belongs to a source. -/
theorem Remembers.resolve_reserved (h : c.Remembers r.Reserved)
    (hw : (c.resolve config pathOf frame r).registry.WellFormed) :
    (c.resolve config pathOf frame r).cache.Remembers
        (c.resolve config pathOf frame r).registry.Reserved ∧
      ∀ b, (c.resolve config pathOf frame r).binding = some b →
        (c.resolve config pathOf frame r).registry.find? b.source = some b.table := by
  have hkept := h.mono fun b hb => hb.mono (extends_resolve config pathOf frame r c).precedes
  have hbound (source? : Option Source) (b : Binding)
      (hregistry : (c.resolve config pathOf frame r).registry = (r.bind source?).2)
      (hb : (r.bind source?).1 = some b) :
      (c.resolve config pathOf frame r).registry.Reserved b := by
    rw [hregistry] at hw ⊢
    exact hw.reserved (Registry.find?_of_bind hb)
  obtain ⟨hcache, hbinding⟩ := hkept.resolve hbound
  refine ⟨hcache, fun b hb => ?_⟩
  obtain ⟨hreserved, hnonempty⟩ := hbinding b hb
  obtain ⟨s, hs⟩ := hw.exists_source hnonempty
  rw [← hreserved.owner hs]
  exact hs

end BindingCache

/-! ## What a use does -/

theorem Session.extends_serve {request : Request} (s : Session) (h : request.clears = false) :
    s.debugger.registry.Extends (s.serve request).session.debugger.registry := by
  cases request with
  | tell input => exact s.extends_step h
  | add => exact Registry.extends_add ..
  | clearSource => exact Registry.extends_clearSource ..
  | clear => cases h
  | lookup => exact Registry.extends_intern ..
  | check => exact extends_proceed ..

theorem Session.registry_serve_of_clears {request : Request} (s : Session)
    (h : request.clears = true) :
    (s.serve request).session.debugger.registry = s.debugger.registry.clear := by
  cases request with
  | tell input =>
    cases input with
    | clearAll => rfl
    | _ => cases h
  | clear => rfl
  | _ => cases h

namespace Ledger

variable {l : Ledger} {use : Use} {ref ref' : Reference} {b : Binding}

theorem extends_step (l : Ledger) (h : use.clears = false) :
    l.registry.Extends (l.step use).registry := by
  cases use with
  | ask request => exact l.session.extends_serve h
  | get | forget => exact ⟨.refl _, .refl _⟩
  | hit table line => exact Registry.extends_hit ..
  | resolve => exact BindingCache.extends_resolve ..

theorem registry_step_of_clears (l : Ledger) (h : use.clears = true) :
    (l.step use).registry = l.registry.clear := by
  cases use with
  | ask request => exact l.session.registry_serve_of_clears h
  | _ => cases h

theorem precedes_step (l : Ledger) (use : Use) : l.registry.Precedes (l.step use).registry := by
  cases h : use.clears with
  | false => exact (l.extends_step h).precedes
  | true =>
    rw [l.registry_step_of_clears h]
    exact Registry.precedes_clear l.registry

theorem handed?_of_clears (h : use.clears = true) : l.handed? use = none := by
  cases use with
  | ask request =>
    cases request with
    | tell input =>
      cases input with
      | clearAll => rfl
      | _ => cases h
    | clear => rfl
    | _ => cases h
  | _ => cases h

theorem mem_references_step :
    ref ∈ (l.step use).references ↔
      ref ∈ l.references ∨ ∃ b, l.handed? use = some b ∧ ref = ⟨b, l.clearings⟩ := by
  have hnew : ref ∈ ((l.handed? use).map fun b => (⟨b, l.clearings⟩ : Reference)).toList ↔
      ∃ b, l.handed? use = some b ∧ ref = ⟨b, l.clearings⟩ := by
    rw [Option.mem_toList, Option.map_eq_some_iff]
    simp only [eq_comm]
  rw [← hnew]
  exact List.mem_append

/-- Of the tables that were handed out, those of before the last clearing belong to
nobody, and the others to the sources that they were handed out for. -/
inductive Valid (l : Ledger) (ref : Reference) : Prop where
  | current (clearings : ref.clearings = l.clearings)
    (owner : l.registry.find? ref.source = some ref.table)
  | stale (clearings : ref.clearings < l.clearings) (abandoned : l.registry.Abandoned ref.table)

structure Sound (l : Ledger) : Prop where
  recorded : ∃ history, l.session.Recorded .empty history
  reserved : l.session.debugger.cache.Remembers l.registry.Reserved
  reserved_caches : ∀ cache, (l.caches cache).Remembers l.registry.Reserved
  valid : ∀ ref ∈ l.references, l.Valid ref
  apart : ∀ ref ∈ l.references, ∀ ref' ∈ l.references, ref.clearings = ref'.clearings →
    (ref.table = ref'.table ↔ ref.source = ref'.source)

theorem Sound.wellFormed (h : l.Sound) : l.registry.WellFormed := by
  obtain ⟨history, hrecorded⟩ := h.recorded
  exact hrecorded.arises.wellFormed

theorem sound_new (config : Config) (pathOf : String → Option String) (modes : Nat → Caching) :
    (new config pathOf modes).Sound where
  recorded := ⟨[], Session.recorded_new config pathOf⟩
  reserved := BindingCache.remembers_empty _
  reserved_caches := fun _ => BindingCache.remembers_empty _
  valid := fun _ h => by cases h
  apart := fun _ h => by cases h

theorem Sound.recorded_step (h : l.Sound) (use : Use) :
    ∃ history, (l.step use).session.Recorded .empty history := by
  obtain ⟨history, hrecorded⟩ := h.recorded
  cases use with
  | ask request => exact ⟨_, hrecorded.serve request⟩
  | get | forget => exact ⟨history, hrecorded⟩
  | hit table line =>
    obtain ⟨history', hevolves⟩ := hrecorded.evolves.hit table line
    exact ⟨history', hevolves, hrecorded.checks⟩
  | resolve cache config pathOf frame =>
    obtain ⟨source?, hbound⟩ :=
      BindingCache.registry_resolve config pathOf frame l.registry (l.caches cache)
    refine ⟨history, ?_, hrecorded.checks⟩
    have hevolves := hrecorded.evolves.bind source?
    rw [← hbound] at hevolves
    exact hevolves

theorem Sound.wellFormed_step (h : l.Sound) (use : Use) : (l.step use).registry.WellFormed := by
  obtain ⟨history, hrecorded⟩ := h.recorded_step use
  exact hrecorded.arises.wellFormed

theorem Sound.reserved_step (h : l.Sound) (use : Use) :
    (l.step use).session.debugger.cache.Remembers (l.step use).registry.Reserved := by
  have hkept : l.session.debugger.cache.Remembers (l.step use).registry.Reserved :=
    h.reserved.mono fun _ hb => hb.mono (l.precedes_step use)
  cases use with
  | ask request =>
    cases request with
    | tell input =>
      refine Session.remembers_step h.reserved (fun he hb => hb.mono he.precedes) ?_ input
      intro source? b hb
      have hw : (l.registry.bind source?).2.WellFormed := by
        cases source? with
        | none => exact h.wellFormed
        | some s => exact h.wellFormed.intern s
      exact hw.reserved (Registry.find?_of_bind hb)
    | check channel table line =>
      have hsame : (l.step (.ask (.check channel table line))).session.debugger.cache =
          l.session.debugger.cache := Session.cache_proceed ..
      rw [hsame]
      exact hkept
    | _ => exact hkept
  | _ => exact hkept

theorem Sound.reserved_caches_step (h : l.Sound) (use : Use) (cache : Nat) :
    ((l.step use).caches cache).Remembers (l.step use).registry.Reserved := by
  have hkept (cache : Nat) : (l.caches cache).Remembers (l.step use).registry.Reserved :=
    (h.reserved_caches cache).mono fun _ hb => hb.mono (l.precedes_step use)
  cases use with
  | resolve touched config pathOf frame =>
    have hresolved := (h.reserved_caches touched).resolve_reserved
      (h.wellFormed_step (.resolve touched config pathOf frame))
    by_cases hc : cache = touched
    · subst hc
      simp only [step, Function.update_self]
      exact hresolved.1
    · simp only [step, Function.update_of_ne hc]
      exact hkept cache
  | forget touched =>
    by_cases hc : cache = touched
    · subst hc
      simp only [step, Function.update_self]
      exact BindingCache.remembers_forget _
    · simp only [step, Function.update_of_ne hc]
      exact hkept cache
  | _ => exact hkept cache

/-- What is handed out for a source is the table that the source has afterwards. -/
theorem Sound.find?_of_handed? (h : l.Sound) (hb : l.handed? use = some b) :
    (l.step use).registry.find? b.source = some b.table := by
  have hresolve (frame : Frame) (hb : (l.session.debugger.resolve frame).binding = some b) :
      (l.session.debugger.resolved frame).registry.find? b.source = some b.table :=
    (h.reserved.resolve_reserved (h.wellFormed_step (.ask (.tell (.call frame))))).2 b hb
  cases use with
  | ask request =>
    cases request with
    | lookup source =>
      cases hb
      exact Registry.find?_intern_self ..
    | tell input =>
      cases input with
      | call frame => exact hresolve frame hb
      | line frame =>
        obtain ⟨hlocated, hbinding⟩ := Debugger.locate_of_lineBinding hb
        apply (l.session.line_debugger frame).1.keeps
        rw [hlocated]
        exact hresolve frame hbinding
      | _ => cases hb
    | _ => cases hb
  | get source =>
    obtain ⟨id, hid, rfl⟩ := Option.map_eq_some_iff.1 hb
    exact hid
  | resolve cache config pathOf frame =>
    have hresolved := (h.reserved_caches cache).resolve_reserved
      (h.wellFormed_step (.resolve cache config pathOf frame))
    exact hresolved.2 b hb
  | _ => cases hb

theorem Valid.step (h : l.Valid ref) (hw : l.registry.WellFormed) (use : Use) :
    (l.step use).Valid ref := by
  cases hclears : use.clears with
  | false =>
    have hsame : (l.step use).clearings = l.clearings := by simp [Ledger.step, hclears]
    have hextends := l.extends_step hclears
    cases h with
    | current hstretch howner => exact .current (hstretch.trans hsame.symm) (hextends.keeps _ _ howner)
    | stale hstretch habandoned =>
      exact .stale (hsame ▸ hstretch) (habandoned.mono hextends.precedes)
  | true =>
    have hmore : (l.step use).clearings = l.clearings + 1 := by simp [Ledger.step, hclears]
    have hcleared := l.registry_step_of_clears hclears
    cases h with
    | current hstretch howner =>
      exact .stale (by omega) (hcleared ▸ Registry.abandoned_clear (hw.made howner))
    | stale hstretch habandoned =>
      exact .stale (by omega) (habandoned.mono (l.precedes_step use))

/-- A use that hands out a table does not clear. -/
theorem clearings_step_of_handed? (hb : l.handed? use = some b) :
    (l.step use).clearings = l.clearings := by
  cases hclears : use.clears with
  | false => simp [step, hclears]
  | true =>
    rw [handed?_of_clears hclears] at hb
    cases hb

theorem Sound.valid_step (h : l.Sound) (use : Use) (href : ref ∈ (l.step use).references) :
    (l.step use).Valid ref := by
  rcases mem_references_step.1 href with hold | ⟨b, hb, rfl⟩
  · exact (h.valid ref hold).step h.wellFormed use
  · exact .current (clearings_step_of_handed? hb).symm (h.find?_of_handed? hb)

/-- Tables of the present stretch are told apart by their sources. -/
theorem Sound.table_eq_iff_of_current (h : l.registry.WellFormed) (href : l.Valid ref)
    (href' : l.Valid ref') (hc : ref.clearings = l.clearings) (hc' : ref'.clearings = l.clearings) :
    ref.table = ref'.table ↔ ref.source = ref'.source := by
  cases href with
  | stale hless => omega
  | current _ howner =>
    cases href' with
    | stale hless => omega
    | current _ howner' => exact h.table_eq_iff howner howner'

theorem Sound.step (h : l.Sound) (use : Use) : (l.step use).Sound where
  recorded := h.recorded_step use
  reserved := h.reserved_step use
  reserved_caches := h.reserved_caches_step use
  valid := fun _ href => h.valid_step use href
  apart := by
    intro ref href ref' href' hsame
    have hcurrent {b : Binding} (hb : l.handed? use = some b)
        (hc : ref.clearings = l.clearings) : ref.table = ref'.table ↔ ref.source = ref'.source := by
      have hstep := clearings_step_of_handed? hb
      exact table_eq_iff_of_current (h.wellFormed_step use) (h.valid_step use href)
        (h.valid_step use href') (hc.trans hstep.symm) (hsame.symm.trans (hc.trans hstep.symm))
    rcases mem_references_step.1 href with hold | ⟨b, hb, rfl⟩
    · rcases mem_references_step.1 href' with hold' | ⟨b, hb, rfl⟩
      · exact h.apart ref hold ref' hold' hsame
      · exact hcurrent hb hsame
    · exact hcurrent hb rfl

theorem Sound.after (h : l.Sound) (uses : List Use) : (l.after uses).Sound := by
  induction uses generalizing l with
  | nil => exact h
  | cons use rest ih => exact ih (h.step use)

/-- **Tables that were handed out.** A table that was handed out for a source since the
registry was last cleared is the one that looking the source up gives now, so it holds
what the source holds. A table that was handed out earlier is empty. Between two
clearings the same table is handed out exactly for the same source. So a debugger
remembers a source with the table that the source has, whenever guest code runs. -/
theorem references_shared (config : Config) (pathOf : String → Option String)
    (modes : Nat → Caching) :
    (∀ uses : List Use, let l := (new config pathOf modes).after uses
      (∀ ref ∈ l.references, ref.clearings ≤ l.clearings ∧
        (ref.clearings = l.clearings →
          l.registry.find? ref.source = some ref.table ∧
          l.registry.intern ref.source = (ref.table, l.registry) ∧
          l.registry.tables.get ref.table = l.registry.contents ref.source) ∧
        (ref.clearings < l.clearings → l.registry.tables.get ref.table = .empty)) ∧
      ∀ ref ∈ l.references, ∀ ref' ∈ l.references, ref.clearings = ref'.clearings →
        (ref.table = ref'.table ↔ ref.source = ref'.source)) ∧
    ∀ inputs : List Input, let d := ((Session.new config pathOf).after inputs).debugger
      ∀ function b, d.cache.remembered? function = some (some b) →
        d.registry.find? b.source = some b.table := by
  constructor
  · intro uses l
    have hsound : l.Sound := (sound_new config pathOf modes).after uses
    refine ⟨fun ref href => ?_, hsound.apart⟩
    cases hsound.valid ref href with
    | current hstretch howner =>
      refine ⟨hstretch.le, fun _ => ⟨howner, Registry.fst_intern howner, ?_⟩, fun hless => ?_⟩
      · exact (Registry.contents_of_find? howner).symm
      · omega
    | stale hstretch habandoned =>
      refine ⟨hstretch.le, fun hsame => ?_, fun _ => hsound.wellFormed.bare habandoned.bare⟩
      omega
  · intro inputs d function b hb
    exact Session.remembers_after config pathOf inputs function b hb

/-- A breakpoint that is set after the registry was cleared is seen through the newer
reference only. -/
example :
    let l := (new {} chunkPath fun _ => .perEpoch).after
      [.ask (.lookup (.path "a")), .ask .clear,
        .ask (.add (fun _ => true) (.path "a") 3 {}), .get (.path "a")]
    l.references.map (fun ref => (ref.clearings, (l.registry.tables.get ref.table).size)) =
      [(0, 0), (1, 1)] := by
  decide +kernel

end Ledger

end Breakpoints

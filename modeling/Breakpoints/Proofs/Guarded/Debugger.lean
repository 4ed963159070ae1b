import Breakpoints.Proofs.Guarded.Check
import Breakpoints.Proofs.Resolution

/-!
# The debugger's work as programs

Resolving a function holds the store and the cache together while the host is asked, and
looks the table up for a moment (`runs_resolve`). With this, whatever the host asks of the
debugger is a program, and so is each question about what it holds (`Query.program`).
-/

namespace Breakpoints

namespace Guarded

variable {loans : List Loan}

/-! ## Resolving -/

/-- Forgets all bindings. -/
def forget (c : BindingCache) : Guarded BindingCache := do
  say (c.forgetNotices.map .noted)
  return c.forget

/-- Forgets all bindings if the host reports another epoch than the last one, and tells
whether bindings may be remembered. -/
def sync (epoch? : Option Nat) (c : BindingCache) : Guarded (Bool × BindingCache) :=
  match c.caching with
  | .never => return (false, c)
  | .perEpoch => do
    say [.asked .epoch]
    match epoch? with
    | none => return (false, c)
    | some epoch =>
      if c.epoch = some epoch then return (true, c)
      else
        let forgotten ← forget c
        return (true, { forgotten with epoch := some epoch })

/-- Binds to a source, which gets a table unless it has one. -/
def bindTo (source? : Option Source) (st : Store) : Guarded (Option Binding × Store) :=
  match source? with
  | none => return (none, st)
  | some s => do
    let (id, st) ← lookup s st
    return (some ⟨s, id⟩, st)

/-- The binding, if its table holds a breakpoint. -/
def live (binding? : Option Binding) : Guarded (Option Binding) :=
  match binding? with
  | none => return none
  | some b => do
    if ← ask b.table Table.isEmpty then return none else return some b

/-- Binds by what the host says about the chunk, and remembers it if that is of use. -/
def bindAnew (config : Config) (pathOf : String → Option String) (frame : Frame) (function : Nat)
    (usable : Bool) (st : Store) (c : BindingCache) :
    Guarded (Option Binding × Store × BindingCache) := do
  say [.asked .chunk]
  match frame.chunk with
  | none => return (none, st, c)
  | some chunk =>
    let source? := config.sourceOf pathOf chunk
    say (if config.isNamed chunk.description then [.lookedUp chunk.description] else [])
    let (binding?, st) ← bindTo source? st
    say [.noted (.resolved function source?)]
    return (← live binding?, st, if usable then c.remember function binding? else c)

/-- The binding of the running function. -/
def resolve (config : Config) (pathOf : String → Option String) (frame : Frame) (st : Store)
    (c : BindingCache) : Guarded (Option Binding × Store × BindingCache) := do
  say [.asked .function]
  match frame.function with
  | none => return (none, st, c)
  | some function =>
    let (usable, c) ← sync frame.epoch c
    match if usable then c.remembered? function else none with
    | some binding? => return (← live binding?, st, c)
    | none => bindAnew config pathOf frame function usable st c

theorem runs_forget (loans : List Loan) (d : Debugger) (c : BindingCache) :
    (forget c).Runs loans d c.forget d (sightings loans (c.forgetNotices.map .noted)) :=
  (runs_say ..).map fun _ => c.forget

theorem runs_sync (loans : List Loan) (d : Debugger) (epoch? : Option Nat) (c : BindingCache) :
    (sync epoch? c).Runs loans d (c.usable epoch?, c.sync epoch?) d
      (sightings loans (c.syncEvents epoch?)) := by
  unfold sync
  cases hmode : c.caching with
  | never =>
    have husable : c.usable epoch? = false := by simp [BindingCache.usable, hmode]
    simp [BindingCache.sync, BindingCache.syncEvents, husable, hmode, runs_done]
  | perEpoch =>
    have husable : c.usable epoch? = epoch?.isSome := by simp [BindingCache.usable, hmode]
    simp only [BindingCache.sync, BindingCache.syncEvents, husable, hmode, if_true,
      sightings_append]
    refine (runs_say loans d [.asked .epoch]).bind ?_
    cases epoch? with
    | none => exact runs_done ..
    | some epoch =>
      by_cases hsame : c.epoch = some epoch
      · simp [hsame, runs_done]
      · simp only [hsame, if_false, Option.isSome_some, Bool.true_and, bne_iff_ne, ne_eq,
          not_false_eq_true, if_true]
        exact (runs_forget loans d c).map fun forgotten =>
          (true, { forgotten with epoch := some epoch })

theorem runs_bindTo (loans : List Loan) (d : Debugger) (source? : Option Source) (r : Registry) :
    (bindTo source? r.store).Runs loans (d.withTables r.tables)
      ((r.bind source?).1, (r.bind source?).2.store)
      (d.withTables (r.bind source?).2.tables) [] := by
  cases source? with
  | none => exact runs_done ..
  | some s =>
    exact (runs_lookup loans d s r).map fun found => (some (Binding.mk s found.1), found.2)

theorem runs_live (hL : NoTable loans) (d : Debugger) (binding? : Option Binding) :
    (live binding?).Runs loans d (d.registry.live binding?) d [] := by
  cases binding? with
  | none => exact runs_done ..
  | some b =>
    refine (runs_ask hL d b.table Table.isEmpty).bind ?_
    simp only [Registry.live, Option.filter_some]
    cases (d.registry.tables.get b.table).isEmpty <;> exact runs_done ..

theorem runs_bindAnew (hL : NoTable loans) (d : Debugger) (config : Config)
    (pathOf : String → Option String) {frame : Frame} {chunk : Chunk}
    (hchunk : frame.chunk = some chunk) (function : Nat) (usable : Bool) (r : Registry)
    (c : BindingCache) :
    let source? := config.sourceOf pathOf chunk
    let bound := r.bind source?
    (bindAnew config pathOf frame function usable r.store c).Runs loans (d.withTables r.tables)
      (bound.2.live bound.1, bound.2.store, if usable then c.remember function bound.1 else c)
      (d.withTables bound.2.tables)
      (sightings loans (.asked .chunk ::
        (if config.isNamed chunk.description then [.lookedUp chunk.description] else []) ++
          [.noted (.resolved function source?)])) := by
  intro source? bound
  have hlive := (runs_live hL (d.withTables bound.2.tables) bound.1).map fun live =>
    (live, bound.2.store, if usable then c.remember function bound.1 else c)
  simp only [bindAnew, hchunk, bind_eq]
  refine Runs.saying (.andThen (runs_say ..) ?_) [.asked .chunk]
  have hbind : (bindTo source? r.store).Runs loans (d.withTables r.tables)
      (bound.1, bound.2.store) (d.withTables bound.2.tables) (sightings loans []) :=
    runs_bindTo loans d source? r
  exact hbind.andThen (.saying hlive [.noted (.resolved function source?)])

/-- **Resolving a function** comes to what the cache resolves it to. -/
theorem runs_resolve (hL : NoTable loans) (d : Debugger) (config : Config)
    (pathOf : String → Option String) (frame : Frame) (r : Registry) (c : BindingCache) :
    let resolution := c.resolve config pathOf frame r
    (resolve config pathOf frame r.store c).Runs loans (d.withTables r.tables)
      (resolution.binding, resolution.registry.store, resolution.cache)
      (d.withTables resolution.registry.tables) (sightings loans resolution.events) := by
  have hasked := runs_say loans (d.withTables r.tables) [.asked .function]
  have hsync := runs_sync loans (d.withTables r.tables) frame.epoch c
  intro resolution
  unfold resolve
  cases hfun : frame.function with
  | none =>
    simp only [resolution, BindingCache.resolve_of_unknown hfun]
    exact hasked.bind (runs_done ..)
  | some function =>
    cases hrec : c.known? frame.epoch function with
    | some binding? =>
      have hknown : (if c.usable frame.epoch then (c.sync frame.epoch).remembered? function
          else none) = some binding? := hrec
      have hlive := runs_live hL (d.withTables r.tables) binding?
      have hrest := hlive.map fun live => (live, r.store, c.sync frame.epoch)
      simp only [resolution, BindingCache.resolve_of_recalled hfun hrec, bind_eq]
      rw [← List.append_nil (c.syncEvents frame.epoch)]
      refine hasked.andThen (hsync.andThen ?_)
      simp only [hknown]
      exact hrest
    | none =>
      have hknown : (if c.usable frame.epoch then (c.sync frame.epoch).remembered? function
          else none) = none := hrec
      cases hchunk : frame.chunk with
      | none =>
        simp only [resolution, BindingCache.resolve_of_undescribed hfun hrec hchunk, bind_eq]
        refine hasked.andThen (hsync.andThen ?_)
        simp only [hknown, bindAnew, hchunk]
        exact (runs_say ..).map fun _ => (none, r.store, c.sync frame.epoch)
      | some chunk =>
        have hbound := runs_bindAnew hL d config pathOf hchunk function (c.usable frame.epoch) r
          (c.sync frame.epoch)
        simp only [resolution, BindingCache.resolve_of_described hfun hrec hchunk, bind_eq,
          List.append_assoc]
        refine hasked.andThen (hsync.andThen ?_)
        simp only [hknown]
        exact hbound

/-- What is lent while the host is asked about the running function. -/
def whileResolving : List Loan := [⟨.cache, .exclusive⟩, ⟨.store, .exclusive⟩]

/-- Resolves the running function. -/
def resolveFunction (config : Config) (pathOf : String → Option String) (frame : Frame) :
    Guarded (Option Binding) :=
  holding .store fun st => holding .cache fun c => do
    let (binding?, st, c) ← resolve config pathOf frame st c
    return ((binding?, st), c)

theorem runs_resolveFunction (d : Debugger) (frame : Frame) :
    (resolveFunction d.config d.pathOf frame).Runs [] d (d.resolve frame).binding
      (d.resolved frame) (sightings whileResolving (d.resolve frame).events) := by
  have hL : NoTable whileResolving := by simp [NoTable, whileResolving]
  have hresolve := (runs_resolve hL d d.config d.pathOf frame d.registry d.cache).map
    fun found => ((found.1, found.2.1), found.2.2)
  have hcacheFree : ∀ mode, (⟨.cache, mode⟩ : Loan) ∉ [⟨.store, .exclusive⟩] := by simp
  have hstoreFree : ∀ mode, (⟨.store, mode⟩ : Loan) ∉ [] := fun _ => List.not_mem_nil
  exact Runs.holding hstoreFree (Runs.holding hcacheFree hresolve rfl) rfl

/-! ## Setting and clearing -/

/-- What is lent while breakpoints are set or cleared. -/
def whileChanging : List Loan := [⟨.store, .exclusive⟩]

theorem noTable_whileChanging : NoTable whileChanging := by simp [NoTable, whileChanging]

/-- Changes the store while it is held. -/
def changing (f : Store → Guarded Store) : Guarded Unit :=
  holding .store fun st => (f st).bind fun st => done ((), st)

theorem Runs.changing {d : Debugger} {f : Store → Guarded Store} {r : Registry}
    {seen : List Sighting}
    (h : (f d.registry.store).Runs whileChanging (d.withTables d.registry.tables) r.store
      (d.withTables r.tables) seen) :
    (Guarded.changing f).Runs [] d () { d with registry := r } seen :=
  Runs.holding (fun _ => List.not_mem_nil) (h.map fun st => ((), st)) rfl

def setBreakpoints (room : Nat → Bool) (s : Source) (placed : List (Nat × Definition)) :
    Guarded Unit := changing (setAll room s placed)

def clearSourceOf (s : Source) : Guarded Unit := changing (clearSource s)

/-- The bindings are forgotten once the store was given back. -/
def clearAll : Guarded Unit := do
  changing clear
  holding .cache fun c => (forget c).bind fun c => done ((), c)

theorem runs_setBreakpoints {d : Debugger} (hw : d.registry.WellFormed) (he : d.registry.Exact)
    (room : Nat → Bool) (s : Source) (placed : List (Nat × Definition))
    (hmany : (d.setBreakpoints room s placed).sourceCount < LineCounts.countLimit) :
    (setBreakpoints room s placed).Runs [] d () (d.setBreakpoints room s placed)
      (sightings whileChanging ((Debugger.setNotices room s placed d.registry).map .noted)) :=
  .changing (runs_setAll noTable_whileChanging d hw he hmany)

theorem runs_clearSourceOf {d : Debugger} (he : d.registry.Exact) (s : Source) :
    (clearSourceOf s).Runs [] d () (d.clearSource s)
      (sightings whileChanging ((d.registry.clearSourceNotices s).map .noted)) :=
  .changing (runs_clearSource noTable_whileChanging d he s)

theorem runs_clearAll (d : Debugger) :
    clearAll.Runs [] d () d.clearAll
      (sightings whileChanging [.noted .allCleared] ++
        sightings [⟨.cache, .exclusive⟩] (d.cache.forgetNotices.map .noted)) := by
  have hclear := Runs.changing (runs_clear noTable_whileChanging d d.registry)
  have hforget := (runs_forget [⟨.cache, .exclusive⟩] { d with registry := d.registry.clear }
    d.cache).map fun c => ((), c)
  exact hclear.bind (Runs.holding (fun _ => List.not_mem_nil) hforget rfl)

/-! ## Lines -/

/-- A line is reached. -/
def line (config : Config) (pathOf : String → Option String) (frame : Frame) : Guarded Bool := do
  say [.asked .line]
  match frame.line with
  | none => return false
  | some line =>
    if ← admits line then
      match ← resolveFunction config pathOf frame with
      | none => return false
      | some b => check config.channel b.table line
    else return false

/-- A reached line is located, and then checked if there is a place to check it against. -/
theorem proceed_line (d : Debugger) (frame : Frame) :
    ∃ seen : List Sighting, seen.map (·.event) = (d.locate frame).events ∧
      match (d.locate frame).place with
      | none => (line d.config d.pathOf frame).Runs [] d false (d.locate frame).debugger seen
      | some place =>
        (line d.config d.pathOf frame).proceed ⟨d, []⟩ =
          seenBefore seen ((check d.config.channel place.table place.line).proceed
            ⟨(d.locate frame).debugger, []⟩) := by
  have hasked := runs_say [] d [.asked .line]
  unfold line Debugger.locate
  cases hline : frame.line with
  | none => exact ⟨sightings [] [.asked .line], event_sightings .., hasked.map fun _ => false⟩
  | some line =>
    have hfree : (⟨.store, .exclusive⟩ : Loan) ∉ [] := List.not_mem_nil
    have hadmits := runs_admits hfree d line
    cases hadmitted : d.registry.admits line with
    | false =>
      rw [hadmitted] at hadmits
      simp only [hadmitted, Bool.false_eq_true, if_false]
      refine ⟨sightings [] [.asked .line], event_sightings .., hasked.bind ?_⟩
      exact hadmits.bind (runs_done ..)
    | true =>
      rw [hadmitted] at hadmits
      have hresolve := runs_resolveFunction d frame
      obtain ⟨seen, hseen⟩ : ∃ seen, seen = sightings [] [.asked .line] ++
        sightings whileResolving (d.resolve frame).events := ⟨_, rfl⟩
      have hgoesOn (f : Option Binding → Guarded Bool) :
          ((say [.asked .line]).bind fun _ => (admits line).bind fun held =>
            if held then (resolveFunction d.config d.pathOf frame).bind f
            else done false).proceed ⟨d, []⟩ =
            seenBefore seen ((f (d.resolve frame).binding).proceed ⟨d.resolved frame, []⟩) := by
        rw [proceed_bind hasked, proceed_bind hadmits, if_pos rfl, proceed_bind hresolve,
          seenBefore_nil, seenBefore_seenBefore, hseen]
      simp only [hadmitted, if_true]
      refine ⟨seen, by simp [hseen], ?_⟩
      cases hbinding : (d.resolve frame).binding with
      | none =>
        refine (hgoesOn _).trans ?_
        rw [hbinding]
        exact congrArg Except.ok (congrArg₂ _ (List.append_nil _) rfl)
      | some b =>
        refine (hgoesOn _).trans ?_
        rw [hbinding]

end Guarded

/-! ## Questions -/

/-- What the debugger can be asked about itself. -/
inductive Query where
  | admits (line : Nat)
  | hits (source : Source) (line : Nat)
  | breakpoints (source : Source)
  /-- What a table holds that a binding gives. -/
  | entries (id : TableId)
  | sourceCount
  | cachedCount
  | isEmpty

inductive Finding where
  | flag (b : Bool)
  | hits (hits? : Option Nat)
  | breakpoints (entries : List (Nat × Breakpoint))
  | count (n : Nat)
  deriving DecidableEq, Repr

def Source.isPath : Source → Bool
  | path _ => true
  | handle _ => false

/-- What the debugger answers. -/
def Query.finding (d : Debugger) : Query → Finding
  | admits line => .flag (d.registry.admits line)
  | hits s line => .hits (d.hits? s line)
  | breakpoints s => .breakpoints (d.breakpoints s)
  | entries id => .breakpoints (d.registry.tables.get id).entries
  | sourceCount => .count d.sourceCount
  | cachedCount => .count d.cachedCount
  | isEmpty => .flag d.isEmpty

namespace Guarded

/-- Asks the table of a source, if there is one, while the store is shared. -/
def askSource (s : Source) (f : Table → Finding) : Guarded Finding :=
  sharing .store fun st =>
    match st.sources.lookup s with
    | none => done (f .empty)
    | some id => ask id f

end Guarded

/-- A question as a program. Sources known by path and those known by handle are counted
apart, and their numbers added. -/
def Query.program : Query → Guarded Finding
  | admits line => (Guarded.admits line).bind fun b => .done (.flag b)
  | hits s line => Guarded.askSource s fun t => .hits (t.hits? line)
  | breakpoints s => Guarded.askSource s fun t => .breakpoints t.entries
  | entries id => Guarded.ask id fun t => .breakpoints t.entries
  | sourceCount => Guarded.sharing .store fun st =>
    let paths := st.sources.countP (·.1.isPath)
    let handles := st.sources.countP (!·.1.isPath)
    (Guarded.ofExcept (checkedSum (LineCounts.sizeLimit - 1) paths handles)).bind fun n =>
      .done (.count n)
  | cachedCount => Guarded.sharing .cache fun c => .done (.count c.size)
  | isEmpty => Guarded.sharing .store fun st => .done (.flag st.counts.allZero)

namespace Guarded

theorem runs_askSource (d : Debugger) (s : Source) (f : Table → Finding) :
    (askSource s f).Runs [] d (f (d.registry.contents s)) d [] := by
  refine Runs.sharing List.not_mem_nil ?_
  have hL : NoTable [⟨.store, .shared⟩] := by simp [NoTable]
  cases hs : d.registry.find? s with
  | none =>
    have hlookup : d.registry.store.sources.lookup s = none := hs
    simp only [Debugger.content, hlookup, Registry.contents_of_find?_eq_none hs]
    exact runs_done ..
  | some id =>
    have hlookup : d.registry.store.sources.lookup s = some id := hs
    simp only [Debugger.content, hlookup, Registry.contents_of_find? hs]
    exact runs_ask hL d id f

/-- **A question** changes nothing, and is answered as long as the sources can be counted. -/
theorem runs_query (d : Debugger) (hmany : d.sourceCount < LineCounts.countLimit) (q : Query) :
    q.program.Runs [] d (q.finding d) d [] := by
  have hfree (c : Cell) : (⟨c, .exclusive⟩ : Loan) ∉ [] := List.not_mem_nil
  cases q with
  | admits line => exact (runs_admits (hfree .store) d line).map _
  | hits s line => exact runs_askSource d s fun t => .hits (t.hits? line)
  | breakpoints s => exact runs_askSource d s fun t => .breakpoints t.entries
  | entries id => exact runs_ask noTable_nil d id fun t => Finding.breakpoints t.entries
  | sourceCount =>
    obtain ⟨sources, hsources⟩ : ∃ sources, sources = d.registry.sources := ⟨_, rfl⟩
    have hparts : sources.countP (·.1.isPath) + sources.countP (!·.1.isPath) = sources.length := by
      have hsplit := List.length_eq_countP_add_countP (fun e : Source × TableId => e.1.isPath)
        (l := sources)
      simpa using hsplit.symm
    have hlimit : sources.length ≤ LineCounts.sizeLimit - 1 := by
      have hfew : sources.length < LineCounts.countLimit := hsources ▸ hmany
      simp only [LineCounts.countLimit, LineCounts.sizeLimit] at hfew ⊢
      omega
    have hsum := checkedSum_eq (hparts.trans_le hlimit)
    refine Runs.sharing (hfree .store) ?_
    simp only [Debugger.content, Registry.store, ← hsources, hsum, hparts, ofExcept, done_bind,
      Query.finding, Debugger.sourceCount]
    exact runs_done ..
  | cachedCount => exact Runs.sharing (hfree .cache) (runs_done ..)
  | isEmpty => exact Runs.sharing (hfree .store) (runs_done ..)

end Guarded

end Breakpoints

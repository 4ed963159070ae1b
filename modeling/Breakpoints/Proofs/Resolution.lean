import Breakpoints.Proofs.Registry.History

/-!
# Resolving a function

What a resolution does to the registry is at most to give one source a table
(`registry_resolve`), and what is seen of it concerns the host
and the log only (`resolving_resolve`).

A cache is coherent if every remembered binding is what binding anew would give
(`BindingCache.Coherent`). It stays so whatever the registry does as long as no
source loses its table, and for frames that are described consistently a coherent
cache cannot be told from none: resolving gives the binding of the source that the
frame belongs to (`Coherent.resolve`).

Resolving the same function again gives the same binding and changes nothing, whatever
the cache holds (`resolve_resolve`).
-/

namespace Breakpoints

namespace Registry

variable {r r' : Registry} {source? : Option Source} {binding? : Option Binding}

/-- The binding is what binding to the source gives, and the source has its table
already. -/
def Binds (r : Registry) : Option Source → Option Binding → Prop
  | none, binding? => binding? = none
  | some s, binding? => ∃ id, r.find? s = some id ∧ binding? = some ⟨s, id⟩

theorem Binds.bind_eq (h : r.Binds source? binding?) : r.bind source? = (binding?, r) := by
  cases source? with
  | none => cases h; rfl
  | some s =>
    obtain ⟨id, hs, rfl⟩ := h
    simp only [bind, fst_intern hs]

theorem binds_bind (r : Registry) (source? : Option Source) :
    (r.bind source?).2.Binds source? (r.bind source?).1 := by
  cases source? with
  | none => rfl
  | some s => exact ⟨_, find?_intern_self r s, rfl⟩

theorem keeps_bind (r : Registry) (source? : Option Source) : r.Keeps (r.bind source?).2 := by
  cases source? with
  | none => exact .refl r
  | some s => exact keeps_intern r s

@[simp] theorem contents_bind (r : Registry) (source? : Option Source) (s : Source) :
    (r.bind source?).2.contents s = r.contents s := by
  cases source? with
  | none => rfl
  | some s' => exact contents_intern r s' s

@[simp] theorem counts_bind (r : Registry) (source? : Option Source) :
    (r.bind source?).2.counts = r.counts := by
  cases source? with
  | none => rfl
  | some s => exact counts_intern r s

theorem Evolves.bind {start : Registry} {history : List Event} (h : start.Evolves history r)
    (source? : Option Source) : start.Evolves history (r.bind source?).2 := by
  cases source? with
  | none => exact h
  | some s => exact h.lookup s

theorem precedes_bind (r : Registry) (source? : Option Source) :
    r.Precedes (r.bind source?).2 := by
  cases source? with
  | none => exact .refl r
  | some s => exact precedes_intern r s

theorem extends_bind (r : Registry) (source? : Option Source) : r.Extends (r.bind source?).2 :=
  ⟨precedes_bind r source?, keeps_bind r source?⟩

theorem Binds.mono (h : r.Binds source? binding?) (hk : r.Keeps r') :
    r'.Binds source? binding? := by
  cases source? with
  | none => exact h
  | some s =>
    obtain ⟨id, hs, hb⟩ := h
    exact ⟨id, hk s id hs, hb⟩

end Registry

namespace Event

/-- Whether an event belongs to the resolving of a function. -/
def resolving : Event → Bool
  | .asked _ | .lookedUp _ | .noted (.bindingsForgotten _) | .noted (.resolved ..) => true
  | _ => false

variable {e : Event}

theorem silent_of_resolving (h : e.resolving = true) : e.silent = true := by
  cases e with
  | asked | lookedUp => rfl
  | noted notice =>
    cases notice with
    | bindingsForgotten | resolved => rfl
    | _ => cases h
  | _ => cases h

theorem shown_of_resolving (h : e.resolving = true) : e.shown = false := by
  cases e with
  | evaluated | displayed | printed => cases h
  | _ => rfl

end Event

/-- The source that a frame belongs to by what the host says of it. -/
def Frame.source? (config : Config) (pathOf : String → Option String) (frame : Frame) :
    Option Source :=
  frame.function.bind fun _ => frame.chunk.bind (config.sourceOf pathOf)

/-- If the frame reports an epoch, its chunk is what `describe` says of the epoch and
the function. -/
def Frame.DescribedBy (describe : Nat → Nat → Option Chunk) (frame : Frame) : Prop :=
  ∀ epoch function, frame.epoch = some epoch → frame.function = some function →
    frame.chunk = describe epoch function

namespace BindingCache

variable {config : Config} {pathOf : String → Option String} {frame : Frame} {r r' : Registry}
  {c : BindingCache} {describe : Nat → Nat → Option Chunk}

/-! ## The ways a resolution goes -/

/-- What is remembered of a function, as far as it may be used for a frame that
reports this epoch. -/
def known? (c : BindingCache) (epoch? : Option Nat) (function : Nat) : Option (Option Binding) :=
  if c.usable epoch? then (c.sync epoch?).remembered? function else none

theorem resolve_of_unknown (h : frame.function = none) :
    c.resolve config pathOf frame r = ⟨none, c, r, [.asked .function]⟩ := by
  simp only [resolve, h]

variable {function : Nat}

theorem resolve_of_recalled {binding? : Option Binding} (hfun : frame.function = some function)
    (hrec : c.known? frame.epoch function = some binding?) :
    c.resolve config pathOf frame r =
      ⟨r.live binding?, c.sync frame.epoch, r, .asked .function :: c.syncEvents frame.epoch⟩ := by
  unfold known? at hrec
  simp only [resolve, hfun, hrec]

theorem resolve_of_undescribed (hfun : frame.function = some function)
    (hrec : c.known? frame.epoch function = none) (hchunk : frame.chunk = none) :
    c.resolve config pathOf frame r =
      ⟨none, c.sync frame.epoch, r,
        .asked .function :: c.syncEvents frame.epoch ++ [.asked .chunk]⟩ := by
  unfold known? at hrec
  simp only [resolve, hfun, hrec, hchunk]

theorem resolve_of_described {chunk : Chunk} (hfun : frame.function = some function)
    (hrec : c.known? frame.epoch function = none) (hchunk : frame.chunk = some chunk) :
    c.resolve config pathOf frame r =
      { binding := (r.bind (config.sourceOf pathOf chunk)).2.live
          (r.bind (config.sourceOf pathOf chunk)).1
        cache :=
          if c.usable frame.epoch then
            (c.sync frame.epoch).remember function (r.bind (config.sourceOf pathOf chunk)).1
          else c.sync frame.epoch
        registry := (r.bind (config.sourceOf pathOf chunk)).2
        events := .asked .function :: c.syncEvents frame.epoch ++ .asked .chunk ::
          (if config.isNamed chunk.description then [.lookedUp chunk.description] else []) ++
            [.noted (.resolved function (config.sourceOf pathOf chunk))] } := by
  unfold known? at hrec
  simp only [resolve, hfun, hrec, hchunk]

/-! ## What is seen and what is done -/

theorem resolving_forgetNotices (c : BindingCache) :
    ∀ e ∈ c.forgetNotices.map Event.noted, e.resolving = true := by
  intro e he
  obtain ⟨notice, hn, rfl⟩ := List.mem_map.1 he
  unfold forgetNotices at hn
  split at hn
  · cases hn
  · rw [List.mem_singleton.1 hn]
    rfl

theorem resolving_syncEvents (c : BindingCache) (epoch? : Option Nat) :
    ∀ e ∈ c.syncEvents epoch?, e.resolving = true := by
  intro e he
  rcases List.mem_append.1 he with he | he
  · split at he
    · rw [List.mem_singleton.1 he]
      rfl
    · cases he
  · split at he
    · exact c.resolving_forgetNotices e he
    · cases he

theorem resolving_resolve (config : Config) (pathOf : String → Option String) (frame : Frame)
    (r : Registry) (c : BindingCache) :
    ∀ e ∈ (c.resolve config pathOf frame r).events, e.resolving = true := by
  cases hfun : frame.function with
  | none =>
    rw [resolve_of_unknown hfun]
    simp [Event.resolving]
  | some function =>
    have hsync := c.resolving_syncEvents frame.epoch
    cases hrec : c.known? frame.epoch function with
    | some binding? =>
      rw [resolve_of_recalled hfun hrec]
      simpa [Event.resolving] using hsync
    | none =>
      cases hchunk : frame.chunk with
      | none =>
        rw [resolve_of_undescribed hfun hrec hchunk]
        simpa [Event.resolving, or_imp, forall_and] using hsync
      | some chunk =>
        rw [resolve_of_described hfun hrec hchunk]
        split <;> simpa [Event.resolving, or_imp, forall_and] using hsync

/-- The running function is asked for in any case. -/
theorem asked_function_mem_events (config : Config) (pathOf : String → Option String)
    (frame : Frame) (r : Registry) (c : BindingCache) :
    .asked .function ∈ (c.resolve config pathOf frame r).events := by
  cases hfun : frame.function with
  | none =>
    rw [resolve_of_unknown hfun]
    exact List.mem_cons_self
  | some function =>
    cases hrec : c.known? frame.epoch function with
    | some binding? =>
      rw [resolve_of_recalled hfun hrec]
      exact List.mem_cons_self
    | none =>
      cases hchunk : frame.chunk with
      | none =>
        rw [resolve_of_undescribed hfun hrec hchunk]
        exact List.mem_cons_self
      | some chunk =>
        rw [resolve_of_described hfun hrec hchunk]
        exact List.mem_cons_self

theorem silent_resolve (config : Config) (pathOf : String → Option String) (frame : Frame)
    (r : Registry) (c : BindingCache) :
    ∀ e ∈ (c.resolve config pathOf frame r).events, e.silent = true :=
  fun e he => Event.silent_of_resolving (resolving_resolve config pathOf frame r c e he)

theorem registry_resolve (config : Config) (pathOf : String → Option String) (frame : Frame)
    (r : Registry) (c : BindingCache) :
    ∃ source?, (c.resolve config pathOf frame r).registry = (r.bind source?).2 := by
  cases hfun : frame.function with
  | none => exact ⟨none, by rw [resolve_of_unknown hfun]; rfl⟩
  | some function =>
    cases hrec : c.known? frame.epoch function with
    | some binding? => exact ⟨none, by rw [resolve_of_recalled hfun hrec]; rfl⟩
    | none =>
      cases hchunk : frame.chunk with
      | none => exact ⟨none, by rw [resolve_of_undescribed hfun hrec hchunk]; rfl⟩
      | some chunk =>
        exact ⟨config.sourceOf pathOf chunk, by rw [resolve_of_described hfun hrec hchunk]⟩

theorem live_eq_some_iff {r : Registry} {binding? : Option Binding} {b : Binding} :
    r.live binding? = some b ↔ binding? = some b ∧ (r.tables.get b.table).isEmpty = false := by
  simp [Registry.live, Option.filter_eq_some_iff]

/-- A function whose source has no breakpoints is not bound. -/
theorem isEmpty_of_binding_resolve {b : Binding}
    (h : (c.resolve config pathOf frame r).binding = some b) :
    ((c.resolve config pathOf frame r).registry.tables.get b.table).isEmpty = false := by
  cases hfun : frame.function with
  | none =>
    rw [resolve_of_unknown hfun] at h
    cases h
  | some function =>
    cases hrec : c.known? frame.epoch function with
    | some binding? =>
      rw [resolve_of_recalled hfun hrec] at h ⊢
      exact (live_eq_some_iff.1 h).2
    | none =>
      cases hchunk : frame.chunk with
      | none =>
        rw [resolve_of_undescribed hfun hrec hchunk] at h
        cases h
      | some chunk =>
        rw [resolve_of_described hfun hrec hchunk] at h ⊢
        exact (live_eq_some_iff.1 h).2

/-! ## Coherence -/

/-- Every remembered binding is that of the source which the chunk of the function
belongs to. -/
def Coherent (config : Config) (pathOf : String → Option String)
    (describe : Nat → Nat → Option Chunk) (r : Registry) (c : BindingCache) : Prop :=
  ∀ function binding?, c.remembered? function = some binding? →
    ∃ epoch chunk, c.epoch = some epoch ∧ describe epoch function = some chunk ∧
      r.Binds (config.sourceOf pathOf chunk) binding?

theorem coherent_empty (caching : Caching) : (empty caching).Coherent config pathOf describe r :=
  fun _ _ h => by cases h

theorem coherent_forget (c : BindingCache) : c.forget.Coherent config pathOf describe r :=
  fun _ _ h => by cases h

theorem Coherent.mono (h : c.Coherent config pathOf describe r) (hk : r.Keeps r') :
    c.Coherent config pathOf describe r' := by
  intro function binding? hrem
  obtain ⟨epoch, chunk, hepoch, hchunk, hbinds⟩ := h function binding? hrem
  exact ⟨epoch, chunk, hepoch, hchunk, hbinds.mono hk⟩

theorem Coherent.sync (h : c.Coherent config pathOf describe r) (epoch? : Option Nat) :
    (c.sync epoch?).Coherent config pathOf describe r := by
  unfold BindingCache.sync
  split
  · exact fun _ _ hrem => by cases hrem
  · exact h

/-- A synced cache that may be used is one of the epoch that the frame reports. -/
theorem epoch_sync {epoch? : Option Nat} (h : c.usable epoch? = true) :
    (c.sync epoch?).epoch = epoch? := by
  unfold sync
  split
  · rfl
  · next hne =>
    rw [h, Bool.true_and, bne_iff_ne, not_not] at hne
    exact hne

theorem exists_epoch_of_usable (h : c.usable frame.epoch = true) :
    c.caching = .perEpoch ∧ ∃ epoch, frame.epoch = some epoch := by
  simp only [usable, Bool.and_eq_true, beq_iff_eq, Option.isSome_iff_exists] at h
  exact h

theorem known?_eq_some {binding? : Option Binding}
    (h : c.known? frame.epoch function = some binding?) :
    c.usable frame.epoch = true ∧ (c.sync frame.epoch).remembered? function = some binding? := by
  unfold known? at h
  split at h
  · next husable => exact ⟨husable, h⟩
  · cases h

theorem caching_sync (c : BindingCache) (epoch? : Option Nat) :
    (c.sync epoch?).caching = c.caching := by
  unfold sync
  split <;> rfl

theorem caching_resolve (config : Config) (pathOf : String → Option String) (frame : Frame)
    (r : Registry) (c : BindingCache) :
    (c.resolve config pathOf frame r).cache.caching = c.caching := by
  cases hfun : frame.function with
  | none => rw [resolve_of_unknown hfun]
  | some function =>
    cases hrec : c.known? frame.epoch function with
    | some binding? => rw [resolve_of_recalled hfun hrec, caching_sync]
    | none =>
      cases hchunk : frame.chunk with
      | none => rw [resolve_of_undescribed hfun hrec hchunk, caching_sync]
      | some chunk =>
        rw [resolve_of_described hfun hrec hchunk, ← c.caching_sync frame.epoch]
        split <;> rfl

theorem Coherent.remember {epoch : Nat} {chunk : Chunk} {binding? : Option Binding}
    (h : c.Coherent config pathOf describe r) (hepoch : c.epoch = some epoch)
    (hchunk : describe epoch function = some chunk)
    (hbinds : r.Binds (config.sourceOf pathOf chunk) binding?) :
    (c.remember function binding?).Coherent config pathOf describe r := by
  intro other found? hrem
  by_cases ho : other = function
  · subst ho
    rw [remembered?_remember_self, Option.some_inj] at hrem
    exact hrem ▸ ⟨epoch, chunk, hepoch, hchunk, hbinds⟩
  · rw [remembered?_remember_of_ne ho] at hrem
    exact h other found? hrem

/-- **Resolving with a coherent cache** is binding to the source that the frame
belongs to, and leaves the cache coherent. Only a cache that remembers anything
needs frames which are described consistently. -/
theorem Coherent.resolve (h : c.Coherent config pathOf describe r)
    (hf : c.caching = .perEpoch → frame.DescribedBy describe) :
    let resolution := c.resolve config pathOf frame r
    let bound := r.bind (frame.source? config pathOf)
    resolution.registry = bound.2 ∧ resolution.binding = bound.2.live bound.1 ∧
      resolution.cache.Coherent config pathOf describe bound.2 := by
  intro resolution bound
  have hsync := h.sync frame.epoch
  cases hfun : frame.function with
  | none =>
    have hsource : frame.source? config pathOf = none := by simp [Frame.source?, hfun]
    simp only [resolution, bound, hsource, resolve_of_unknown hfun]
    exact ⟨rfl, rfl, h⟩
  | some function =>
    have hsource : frame.source? config pathOf = frame.chunk.bind (config.sourceOf pathOf) := by
      simp [Frame.source?, hfun]
    cases hrec : c.known? frame.epoch function with
    | some binding? =>
      -- What is recalled is of the epoch that the frame reports, so it speaks of its chunk.
      obtain ⟨husable, hrem⟩ := known?_eq_some hrec
      obtain ⟨epoch, chunk, hepoch, hchunk, hbinds⟩ := hsync function binding? hrem
      rw [epoch_sync husable] at hepoch
      have hframe : frame.chunk = some chunk :=
        (hf (exists_epoch_of_usable husable).1 epoch function hepoch hfun).trans hchunk
      have hbound : bound = (binding?, r) := by
        simp only [bound, hsource, hframe, Option.bind_some]
        exact hbinds.bind_eq
      rw [hbound]
      simp only [resolution, resolve_of_recalled hfun hrec]
      exact ⟨trivial, trivial, hsync⟩
    | none =>
      cases hchunk : frame.chunk with
      | none =>
        have hnone : frame.source? config pathOf = none := by simp [hsource, hchunk]
        simp only [resolution, bound, hnone, resolve_of_undescribed hfun hrec hchunk]
        exact ⟨rfl, rfl, hsync⟩
      | some chunk =>
        have hsome : frame.source? config pathOf = config.sourceOf pathOf chunk := by
          simp [hsource, hchunk]
        have hkept := hsync.mono (Registry.keeps_bind r (config.sourceOf pathOf chunk))
        simp only [resolution, bound, hsome, resolve_of_described hfun hrec hchunk]
        refine ⟨trivial, trivial, ?_⟩
        split
        · next husable =>
          obtain ⟨hmode, epoch, hepoch⟩ := exists_epoch_of_usable husable
          have hdescribed : describe epoch function = some chunk :=
            (hf hmode epoch function hepoch hfun).symm.trans hchunk
          exact hkept.remember ((epoch_sync husable).trans hepoch) hdescribed
            (Registry.binds_bind r _)
        · exact hkept

/-! ## Resolving twice -/

@[simp] theorem usable_sync (c : BindingCache) (epoch? epoch?' : Option Nat) :
    (c.sync epoch?).usable epoch?' = c.usable epoch?' := by
  simp only [usable, caching_sync]

@[simp] theorem sync_sync (c : BindingCache) (epoch? : Option Nat) :
    (c.sync epoch?).sync epoch? = c.sync epoch? := by
  rw [sync, usable_sync]
  split
  · next hstale =>
    -- A usable cache has taken over the epoch, so it is not stale.
    rw [Bool.and_eq_true] at hstale
    exact absurd (epoch_sync hstale.1) (bne_iff_ne.1 hstale.2)
  · rfl

theorem known?_sync (c : BindingCache) (epoch? : Option Nat) (function : Nat) :
    (c.sync epoch?).known? epoch? function = c.known? epoch? function := by
  simp only [known?, usable_sync, sync_sync]

/-- Remembering leaves the epoch as it is. -/
theorem sync_remember {epoch? : Option Nat} (h : c.sync epoch? = c) (function : Nat)
    (binding? : Option Binding) :
    (c.remember function binding?).sync epoch? = c.remember function binding? := by
  unfold sync at h ⊢
  split
  · next hstale =>
    have hstale : (c.usable epoch? && c.epoch != epoch?) = true := hstale
    rw [if_pos hstale] at h
    have hepoch : c.epoch = epoch? := (congrArg BindingCache.epoch h).symm
    rw [hepoch, bne_self_eq_false, Bool.and_false] at hstale
    cases hstale
  · rfl

/-- **Resolving a function again** gives the same binding, and the first time has left
nothing to do: the epoch is known, the function is remembered if it can be, and its
source has a table. -/
theorem resolve_resolve (config : Config) (pathOf : String → Option String) (frame : Frame)
    (r : Registry) (c : BindingCache) :
    let first := c.resolve config pathOf frame r
    let again := first.cache.resolve config pathOf frame first.registry
    again.binding = first.binding ∧ again.cache = first.cache ∧
      again.registry = first.registry := by
  cases hfun : frame.function with
  | none => simp only [resolve_of_unknown hfun, and_self]
  | some function =>
    have hknown := c.known?_sync frame.epoch function
    cases hrec : c.known? frame.epoch function with
    | some binding? =>
      simp only [resolve_of_recalled hfun hrec, resolve_of_recalled hfun (hknown.trans hrec),
        sync_sync, and_self]
    | none =>
      cases hchunk : frame.chunk with
      | none =>
        simp only [resolve_of_undescribed hfun hrec hchunk,
          resolve_of_undescribed hfun (hknown.trans hrec) hchunk, sync_sync, and_self]
      | some chunk =>
        have hbound := (Registry.binds_bind r (config.sourceOf pathOf chunk)).bind_eq
        simp only [resolve_of_described hfun hrec hchunk]
        split
        · next husable =>
          have hsynced := sync_remember (c.sync_sync frame.epoch) function
            (r.bind (config.sourceOf pathOf chunk)).1
          have hrecalled : ((c.sync frame.epoch).remember function
              (r.bind (config.sourceOf pathOf chunk)).1).known? frame.epoch function =
                some (r.bind (config.sourceOf pathOf chunk)).1 := by
            unfold known?
            rw [hsynced, remembered?_remember_self, if_pos]
            exact (c.usable_sync ..).trans husable
          simp only [resolve_of_recalled hfun hrecalled, hsynced, and_self]
        · next hunusable =>
          simp only [resolve_of_described hfun (hknown.trans hrec) hchunk, hbound, usable_sync,
            sync_sync, if_neg hunusable, and_self]

end BindingCache

end Breakpoints

import Breakpoints.Proofs.Resolution
import Mathlib.Data.Set.Card

/-!
# What a cache remembers

A cache that remembers bindings forgets them all now and then: when it is told to, and
when another epoch is reported than the last time. What is done to it in between is a
stretch. Whatever the host answers, and however inconsistently, what the cache remembers
of a function is the binding that was made the first time in the current stretch that
both an epoch and a chunk were reported for it (`Faithful.remembered`). Every act keeps
this so (`Faithful.perform`), and what a resolution gives follows from it.
-/

namespace Breakpoints.BindingCache

/-! ## Acts and stretches -/

/-- What a resolution goes by: what the host answers, how descriptions are turned into
paths, and the registry as it is then. -/
structure Query where
  config : Config
  pathOf : String → Option String
  frame : Frame
  registry : Registry

/-- The binding that is made from what the host says of the chunk. -/
def Query.bound? (q : Query) : Option (Option Binding) :=
  q.frame.chunk.map fun chunk => (q.registry.bind (q.config.sourceOf q.pathOf chunk)).1

/-- What can be done to a cache. -/
inductive Act where
  | resolve (q : Query)
  | forget

/-- What a cache answers. -/
def answer (c : BindingCache) (q : Query) : Resolution :=
  c.resolve q.config q.pathOf q.frame q.registry

def perform (c : BindingCache) : Act → BindingCache
  | .resolve q => (c.answer q).cache
  | .forget => c.forget

/-- A cache that remembers bindings after some acts, the latest first. -/
def performed : List Act → BindingCache
  | [] => .empty .perEpoch
  | act :: past => (performed past).perform act

namespace Act

/-- The epoch that is reported. It is not asked for unless the function is known. -/
def epoch? : Act → Option Nat
  | .resolve q => q.frame.function.bind fun _ => q.frame.epoch
  | .forget => none

/-- The binding that is made for a function, if the host reports an epoch and a chunk. -/
def made? (function : Nat) : Act → Option (Option Binding)
  | .resolve q => if q.frame.function = some function ∧ q.frame.epoch ≠ none then q.bound? else none
  | .forget => none

/-- The last epoch that was reported. -/
def lastEpoch? (past : List Act) : Option Nat := past.findSome? epoch?

/-- Whether a stretch begins with the act that comes after these. -/
def begins (past : List Act) : Act → Bool
  | .forget => true
  | .resolve q =>
    (resolve q).epoch?.isSome && (resolve q).epoch? != lastEpoch? past

/-- The acts of the current stretch, the latest first. -/
def stretch : List Act → List Act
  | [] => []
  | act :: past => act :: if act.begins past then [] else stretch past

/-- The binding that was made first. -/
def first? (function : Nat) (acts : List Act) : Option (Option Binding) :=
  acts.reverse.findSome? (made? function)

theorem first?_cons (function : Nat) (act : Act) (past : List Act) :
    first? function (act :: past) = (first? function past).or (act.made? function) := by
  cases h : act.made? function <;> simp [first?, List.findSome?_append, h]

end Act

open Act

variable {c : BindingCache} {past : List Act} {q : Query} {function epoch : Nat}

/-- The cache remembers what it should after these acts. -/
structure Faithful (past : List Act) (c : BindingCache) : Prop where
  caching : c.caching = .perEpoch
  epoch : c.epoch = lastEpoch? past
  remembered : ∀ function, c.remembered? function = first? function (stretch past)
  /-- Every function is remembered once. -/
  nodup : (c.bindings.map Prod.fst).Nodup

theorem faithful_empty : Faithful [] (.empty .perEpoch) where
  caching := rfl
  epoch := rfl
  remembered _ := rfl
  nodup := List.nodup_nil

theorem Faithful.forget (h : c.Faithful past) : c.forget.Faithful (.forget :: past) where
  caching := h.caching
  epoch := h.epoch
  remembered _ := rfl
  nodup := List.nodup_nil

/-! ## Resolving -/

section Resolving

variable (hfun : q.frame.function = some function) (hepoch : q.frame.epoch = some epoch)

include hfun hepoch

theorem epoch?_resolve : (Act.resolve q).epoch? = some epoch := by
  simp [epoch?, hfun, hepoch]

theorem made?_resolve (other : Nat) :
    (Act.resolve q).made? other = if other = function then q.bound? else none := by
  simp [made?, hfun, hepoch, eq_comm]

omit hfun in
theorem Faithful.usable (h : c.Faithful past) : c.usable q.frame.epoch = true := by
  simp [BindingCache.usable, h.caching, hepoch]

/-- Once it is synced, the cache remembers what was made earlier in the stretch. -/
theorem Faithful.sync (h : c.Faithful past) :
    (∀ other, (c.sync q.frame.epoch).remembered? other =
      first? other (stretch (.resolve q :: past)).tail) ∧
      ((c.sync q.frame.epoch).bindings.map Prod.fst).Nodup := by
  have hbegins : (Act.resolve q).begins past = (c.epoch != q.frame.epoch) := by
    rw [begins, epoch?_resolve hfun hepoch, h.epoch, hepoch, bne_comm]
    rfl
  simp only [stretch, List.tail_cons, hbegins, BindingCache.sync, h.usable hepoch,
    Bool.true_and]
  split
  · exact ⟨fun _ => rfl, List.nodup_nil⟩
  · exact ⟨h.remembered, h.nodup⟩

/-- What it may use is what was made earlier in the stretch. -/
theorem Faithful.known? (h : c.Faithful past) :
    c.known? q.frame.epoch function = first? function (stretch (.resolve q :: past)).tail := by
  rw [BindingCache.known?, if_pos (h.usable hepoch), (h.sync hfun hepoch).1]

end Resolving

/-- Without an epoch, or for a function that is not known, nothing is made. -/
theorem made?_of_epoch?_eq_none (h : (Act.resolve q).epoch? = none) (other : Nat) :
    (Act.resolve q).made? other = none := by
  refine if_neg ?_
  rintro ⟨hfun, hepoch⟩
  simp only [epoch?, hfun, Option.bind_some] at h
  exact hepoch h

/-- The stretch goes on then, and nothing changes. -/
theorem Faithful.idle (h : c.Faithful past) (hepoch : (Act.resolve q).epoch? = none) :
    c.Faithful (.resolve q :: past) where
  caching := h.caching
  epoch := by rw [h.epoch, lastEpoch?, lastEpoch?, List.findSome?_cons, hepoch]
  remembered other := by
    rw [h.remembered, stretch, begins, hepoch, Option.isSome_none, Bool.false_and, if_neg nofun,
      first?_cons, made?_of_epoch?_eq_none hepoch, Option.or_none]
  nodup := h.nodup

/-- Without an epoch nothing is recalled, and the cache stays as it is. -/
theorem unused_of_epoch_eq_none (c : BindingCache) (hepoch : q.frame.epoch = none)
    (function : Nat) :
    c.usable q.frame.epoch = false ∧ c.sync q.frame.epoch = c ∧
      c.known? q.frame.epoch function = none := by
  have husable : c.usable q.frame.epoch = false := by simp [BindingCache.usable, hepoch]
  exact ⟨husable, by simp [BindingCache.sync, husable], by simp [BindingCache.known?, husable]⟩

theorem answer_of_epoch_eq_none (hfun : q.frame.function = some function)
    (hepoch : q.frame.epoch = none) :
    (c.answer q).cache = c ∧ (c.answer q).binding = (c.answer q).registry.live q.bound?.join := by
  obtain ⟨husable, hsync, hknown⟩ := c.unused_of_epoch_eq_none hepoch function
  unfold BindingCache.answer Query.bound?
  cases hchunk : q.frame.chunk with
  | none =>
    rw [resolve_of_undescribed hfun hknown hchunk]
    exact ⟨hsync, rfl⟩
  | some chunk =>
    rw [resolve_of_described hfun hknown hchunk, husable, hsync]
    exact ⟨rfl, rfl⟩

/-- What is remembered makes no difference then. -/
theorem answer_same_of_epoch_eq_none {c' : BindingCache} (hcaching : c'.caching = c.caching)
    (hfun : q.frame.function = some function) (hepoch : q.frame.epoch = none) :
    c'.answer q = { c.answer q with cache := c' } := by
  obtain ⟨husable, hsync, hknown⟩ := c.unused_of_epoch_eq_none hepoch function
  obtain ⟨husable', hsync', hknown'⟩ := c'.unused_of_epoch_eq_none hepoch function
  have hevents : c'.syncEvents q.frame.epoch = c.syncEvents q.frame.epoch := by
    simp [syncEvents, husable, husable', hcaching]
  unfold BindingCache.answer
  cases hchunk : q.frame.chunk with
  | none =>
    rw [resolve_of_undescribed hfun hknown hchunk, resolve_of_undescribed hfun hknown' hchunk,
      hevents, hsync']
  | some chunk =>
    rw [resolve_of_described hfun hknown hchunk, resolve_of_described hfun hknown' hchunk,
      hevents, hsync', husable', if_neg Bool.false_ne_true]

/-- A function that was not remembered is no second entry. -/
theorem nodup_remember (h : (c.bindings.map Prod.fst).Nodup) (hnew : c.remembered? function = none)
    (binding? : Option Binding) :
    ((c.remember function binding?).bindings.map Prod.fst).Nodup := by
  refine List.nodup_cons.2 ⟨fun hmem => ?_, h⟩
  obtain ⟨entry, hentry, rfl⟩ := List.mem_map.1 hmem
  have hne := List.lookup_eq_none_iff.1 hnew entry hentry
  rw [bne_self_eq_false] at hne
  cases hne

/-- With an epoch, the function is remembered if it was not, and its chunk is reported. -/
theorem Faithful.remembered?_answer (h : c.Faithful past) (hfun : q.frame.function = some function)
    (hepoch : q.frame.epoch = some epoch) :
    (∀ other, (c.answer q).cache.remembered? other =
      first? other (stretch (.resolve q :: past))) ∧
      ((c.answer q).cache.bindings.map Prod.fst).Nodup := by
  obtain ⟨hearlier, hnodup⟩ := h.sync hfun hepoch
  have hknown := h.known? hfun hepoch
  have hfirst (other : Nat) : first? other (stretch (.resolve q :: past)) =
      ((c.sync q.frame.epoch).remembered? other).or
        (if other = function then q.bound? else none) := by
    rw [hearlier, ← made?_resolve hfun hepoch, ← first?_cons]
    rfl
  simp only [hfirst]
  rw [← hearlier] at hknown
  unfold BindingCache.answer Query.bound?
  cases hremembered : (c.sync q.frame.epoch).remembered? function with
  | some binding? =>
    -- Whatever chunk is reported, it comes after the one that the binding was made from.
    rw [resolve_of_recalled hfun (hknown.trans hremembered)]
    refine ⟨fun other => ?_, hnodup⟩
    by_cases hother : other = function
    · rw [hother, hremembered]
      rfl
    · rw [if_neg hother, Option.or_none]
  | none =>
    cases hchunk : q.frame.chunk with
    | none =>
      rw [resolve_of_undescribed hfun (hknown.trans hremembered) hchunk]
      exact ⟨fun other => by simp, hnodup⟩
    | some chunk =>
      rw [resolve_of_described hfun (hknown.trans hremembered) hchunk, h.usable hepoch]
      refine ⟨fun other => ?_, nodup_remember hnodup hremembered _⟩
      by_cases hother : other = function
      · rw [hother, hremembered, if_pos rfl, if_pos rfl]
        exact remembered?_remember_self ..
      · rw [if_neg hother, Option.or_none]
        exact remembered?_remember_of_ne hother

/-- With an epoch, this is the last one. -/
theorem epoch_answer (hfun : q.frame.function = some function)
    (husable : c.usable q.frame.epoch = true) : (c.answer q).cache.epoch = q.frame.epoch := by
  have hsynced := epoch_sync husable
  unfold BindingCache.answer
  cases hknown : c.known? q.frame.epoch function with
  | some binding? => rw [resolve_of_recalled hfun hknown, hsynced]
  | none =>
    cases hchunk : q.frame.chunk with
    | none => rw [resolve_of_undescribed hfun hknown hchunk, hsynced]
    | some chunk =>
      rw [resolve_of_described hfun hknown hchunk, husable]
      exact hsynced

/-- **Resolving keeps a cache faithful.** -/
theorem Faithful.answer (h : c.Faithful past) (q : Query) :
    (c.answer q).cache.Faithful (.resolve q :: past) := by
  cases hfun : q.frame.function with
  | none =>
    have hsame : (c.answer q).cache = c := by rw [BindingCache.answer, resolve_of_unknown hfun]
    rw [hsame]
    exact h.idle (by simp [epoch?, hfun])
  | some function =>
    cases hepoch : q.frame.epoch with
    | none =>
      rw [(answer_of_epoch_eq_none hfun hepoch).1]
      exact h.idle (by simp [epoch?, hfun, hepoch])
    | some epoch =>
      obtain ⟨hremembered, hnodup⟩ := h.remembered?_answer hfun hepoch
      refine ⟨(caching_resolve ..).trans h.caching, ?_, hremembered, hnodup⟩
      rw [epoch_answer hfun (h.usable hepoch), lastEpoch?, List.findSome?_cons,
        epoch?_resolve hfun hepoch, hepoch]

/-- **A cache is faithful** after any acts. -/
theorem faithful_performed (past : List Act) : (performed past).Faithful past := by
  induction past with
  | nil => exact faithful_empty
  | cons act past ih =>
    cases act with
    | resolve q => exact ih.answer q
    | forget => exact ih.forget

/-! ## What a resolution gives -/

theorem of_mem_syncEvents {epoch? : Option Nat} {e : Event} (he : e ∈ c.syncEvents epoch?) :
    e = .asked .epoch ∨ ∃ notice, e = .noted notice := by
  rcases List.mem_append.1 he with he | he
  · split at he
    · exact .inl (List.mem_singleton.1 he)
    · cases he
  · split at he
    · obtain ⟨notice, -, rfl⟩ := List.mem_map.1 he
      exact .inr ⟨notice, rfl⟩
    · cases he

/-- A function that is recalled is not asked about. -/
theorem notMem_events_of_recalled {binding? : Option Binding} (hfun : q.frame.function = some function)
    (hknown : c.known? q.frame.epoch function = some binding?) :
    .asked .chunk ∉ (c.answer q).events ∧ ∀ description, .lookedUp description ∉ (c.answer q).events := by
  rw [BindingCache.answer, resolve_of_recalled hfun hknown]
  constructor
  · intro he
    rcases List.mem_cons.1 he with he | he
    · cases he
    · rcases of_mem_syncEvents he with he | ⟨notice, he⟩ <;> cases he
  · intro description he
    rcases List.mem_cons.1 he with he | he
    · cases he
    · rcases of_mem_syncEvents he with he | ⟨notice, he⟩ <;> cases he

/-- One that is not recalled is. -/
theorem mem_events_of_not_recalled (hfun : q.frame.function = some function)
    (hknown : c.known? q.frame.epoch function = none) : .asked .chunk ∈ (c.answer q).events := by
  unfold BindingCache.answer
  cases hchunk : q.frame.chunk with
  | none =>
    rw [resolve_of_undescribed hfun hknown hchunk]
    exact List.mem_append_right _ (List.mem_singleton_self _)
  | some chunk =>
    rw [resolve_of_described hfun hknown hchunk]
    simp

/-- The binding that is used is the one that was made first in the stretch. -/
theorem Faithful.binding_answer (h : c.Faithful past) (hfun : q.frame.function = some function)
    (hepoch : q.frame.epoch = some epoch) :
    (c.answer q).binding =
      (c.answer q).registry.live (first? function (stretch (.resolve q :: past))).join := by
  have hknown := h.known? hfun hepoch
  rw [stretch, first?_cons, made?_resolve hfun hepoch, if_pos rfl]
  rw [stretch, List.tail_cons] at hknown
  rw [← hknown]
  unfold BindingCache.answer Query.bound?
  cases hrecalled : c.known? q.frame.epoch function with
  | some binding? =>
    rw [resolve_of_recalled hfun hrecalled]
    rfl
  | none =>
    cases hchunk : q.frame.chunk with
    | none =>
      rw [resolve_of_undescribed hfun hrecalled hchunk]
      rfl
    | some chunk =>
      rw [resolve_of_described hfun hrecalled hchunk]
      rfl

/-- The source of a function is asked for and bound only if nothing was made for it
earlier in the stretch. -/
theorem Faithful.asked_answer (h : c.Faithful past) (hfun : q.frame.function = some function)
    (hepoch : q.frame.epoch = some epoch) :
    let earlier := first? function (stretch (.resolve q :: past)).tail
    (.asked .chunk ∈ (c.answer q).events ↔ earlier = none) ∧
      (∀ description, .lookedUp description ∈ (c.answer q).events → earlier = none) ∧
      (earlier ≠ none → (c.answer q).registry = q.registry) := by
  intro earlier
  have hknown : c.known? q.frame.epoch function = earlier := h.known? hfun hepoch
  cases hearlier : earlier with
  | none =>
    have hasked := mem_events_of_not_recalled hfun (hknown.trans hearlier)
    exact ⟨iff_of_true hasked rfl, fun _ _ => rfl, fun hne => absurd rfl hne⟩
  | some binding? =>
    obtain ⟨hchunk, hlookup⟩ := notMem_events_of_recalled hfun (hknown.trans hearlier)
    refine ⟨iff_of_false hchunk nofun, fun description he => absurd he (hlookup description), ?_⟩
    intro _
    rw [BindingCache.answer, resolve_of_recalled hfun (hknown.trans hearlier)]

/-- The size is the number of functions that are remembered. -/
theorem encard_remembered (h : (c.bindings.map Prod.fst).Nodup) :
    {function | c.remembered? function ≠ none}.encard = c.size := by
  have hset : {function | c.remembered? function ≠ none} =
      ((c.bindings.map Prod.fst).toFinset : Set Nat) := by
    ext function
    rw [Set.mem_ofPred_eq, ne_eq, remembered?, List.lookup_eq_none_iff]
    simp
  rw [hset, Set.encard_coe_eq_coe_finsetCard, List.toFinset_card_of_nodup h, List.length_map]
  rfl

/-- **What is remembered and what for.** After any acts, whatever the host answered, a
cache that remembers bindings remembers of each function the one that was made first in
the current stretch, and its size is the number of functions for which there is one. If a
known function is resolved and an epoch reported, this is the binding that is used, where
this act counts as well; the host is asked for the chunk, and a path looked up, only if
there was none earlier in the stretch. Without an epoch, what the host says of the chunk
is used, and it makes no difference what the cache remembers, nor does that change. The
answer is the binding that is used, as long as its table is not empty. Without a known
function there is no answer and nothing changes. -/
theorem memo_law (past : List Act) :
    let c := performed past
    (∀ function, c.remembered? function = first? function (stretch past)) ∧
    (c.size : ℕ∞) = {function | first? function (stretch past) ≠ none}.encard ∧
    ∀ q : Query,
      let r := c.answer q
      (∀ function epoch, q.frame.function = some function → q.frame.epoch = some epoch →
        let used := first? function (stretch (.resolve q :: past))
        let earlier := first? function (stretch (.resolve q :: past)).tail
        (∀ b, r.binding = some b ↔
          used = some (some b) ∧ (r.registry.tables.get b.table).isEmpty = false) ∧
        (.asked .chunk ∈ r.events ↔ earlier = none) ∧
        (∀ description, .lookedUp description ∈ r.events → earlier = none) ∧
        (earlier ≠ none → r.registry = q.registry)) ∧
      (∀ function, q.frame.function = some function → q.frame.epoch = none →
        (∀ b, r.binding = some b ↔
          q.bound? = some (some b) ∧ (r.registry.tables.get b.table).isEmpty = false) ∧
        r.cache = c ∧
        ∀ past', let r' := (performed past').answer q
          r'.binding = r.binding ∧ r'.registry = r.registry ∧ r'.events = r.events) ∧
      (q.frame.function = none → r.binding = none ∧ r.cache = c ∧ r.registry = q.registry) := by
  intro c
  have h : c.Faithful past := faithful_performed past
  refine ⟨h.remembered, ?_, fun q => ⟨?_, ?_, ?_⟩⟩
  · simp only [← h.remembered]
    exact (encard_remembered h.nodup).symm
  · intro function epoch hfun hepoch used earlier
    refine ⟨fun b => ?_, h.asked_answer hfun hepoch⟩
    rw [h.binding_answer hfun hepoch, live_eq_some_iff, Option.join_eq_some_iff]
  · intro function hfun hepoch
    obtain ⟨hcache, hbinding⟩ := answer_of_epoch_eq_none (c := c) hfun hepoch
    refine ⟨fun b => ?_, hcache, fun past' => ?_⟩
    · rw [hbinding, live_eq_some_iff, Option.join_eq_some_iff]
    · have hcaching := (faithful_performed past').caching.trans h.caching.symm
      rw [answer_same_of_epoch_eq_none hcaching hfun hepoch]
      exact ⟨rfl, rfl, rfl⟩
  · intro hfun
    simp only [BindingCache.answer, resolve_of_unknown hfun, true_and]

end Breakpoints.BindingCache

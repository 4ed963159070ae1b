import Breakpoints.Proofs.Resolution

/-!
# Debuggers with coherent caches

Whatever a debugger does keeps its cache coherent, and as long as the frames are
described consistently, resolving a function gives what binding anew gives
(`Coherent.resolved`). A debugger that remembers nothing needs no such promise.
-/

namespace Breakpoints

/-- Frames that report the same epoch and the same function report the same chunk. -/
def Frame.Agrees (f g : Frame) : Prop :=
  ∀ epoch function, f.epoch = some epoch → g.epoch = some epoch →
    f.function = some function → g.function = some function → f.chunk = g.chunk

def Frame.reports (epoch function : Nat) (f : Frame) : Bool :=
  f.epoch == some epoch && f.function == some function

/-- Frames that agree with each other are described by the first that reports the
epoch and the function. -/
theorem exists_describedBy {frames : List Frame} (h : ∀ f ∈ frames, ∀ g ∈ frames, f.Agrees g) :
    ∃ describe, ∀ f ∈ frames, f.DescribedBy describe := by
  refine ⟨fun epoch function => (frames.find? (Frame.reports epoch function)).bind (·.chunk), ?_⟩
  intro f hf epoch function hepoch hfun
  have hreports : f.reports epoch function = true := by simp [Frame.reports, hepoch, hfun]
  cases hfind : frames.find? (Frame.reports epoch function) with
  | none => exact absurd hreports (List.find?_eq_none.1 hfind f hf)
  | some g =>
    have hg : g.epoch = some epoch ∧ g.function = some function := by
      simpa [Frame.reports] using List.find?_some hfind
    have hchunk : f.chunk = g.chunk :=
      h f hf g (List.mem_of_find?_eq_some hfind) epoch function hepoch hg.1 hfun hg.2
    simpa [hfind] using hchunk

namespace Debugger

variable {d : Debugger} {describe : Nat → Nat → Option Chunk} {frame : Frame}

/-- The bindings that are remembered are those that binding anew would give. -/
structure Coherent (describe : Nat → Nat → Option Chunk) (d : Debugger) : Prop where
  bindings : d.cache.Coherent d.config d.pathOf describe d.registry
  caching : d.cache.caching = d.config.caching

theorem coherent_new (config : Config) (pathOf : String → Option String) :
    (new config pathOf).Coherent describe :=
  ⟨BindingCache.coherent_empty config.caching, rfl⟩

theorem Coherent.setBreakpoints (h : d.Coherent describe) (room : Nat → Bool) (s : Source)
    (placed : List (Nat × Definition)) : (d.setBreakpoints room s placed).Coherent describe :=
  ⟨h.bindings.mono (Registry.keeps_setAll d.registry room s placed), h.caching⟩

theorem Coherent.clearSource (h : d.Coherent describe) (s : Source) :
    (d.clearSource s).Coherent describe :=
  ⟨h.bindings.mono (Registry.keeps_clearSource d.registry s), h.caching⟩

/-- Sources lose their tables, but the bindings to them are forgotten. -/
theorem Coherent.clearAll (h : d.Coherent describe) : d.clearAll.Coherent describe :=
  ⟨BindingCache.coherent_forget d.cache, h.caching⟩

theorem Coherent.withTables (h : d.Coherent describe) (ts : Tables) :
    (d.withTables ts).Coherent describe :=
  ⟨h.bindings.mono fun _ _ hs => hs, h.caching⟩

/-- **Resolving a function** gives what binding anew gives. -/
theorem Coherent.resolved (h : d.Coherent describe)
    (hf : d.config.caching = .perEpoch → frame.DescribedBy describe) :
    let bound := d.registry.bind (frame.source? d.config d.pathOf)
    (d.resolved frame).registry = bound.2 ∧ (d.resolve frame).binding = bound.2.live bound.1 ∧
      (d.resolved frame).Coherent describe := by
  intro bound
  obtain ⟨hregistry, hbinding, hcache⟩ :=
    h.bindings.resolve fun hmode => hf (h.caching.symm.trans hmode)
  refine ⟨hregistry, hbinding, ?_, ?_⟩
  · have hsame : (d.resolved frame).registry = bound.2 := hregistry
    rw [hsame]
    exact hcache
  · exact (BindingCache.caching_resolve ..).trans h.caching

end Debugger

end Breakpoints

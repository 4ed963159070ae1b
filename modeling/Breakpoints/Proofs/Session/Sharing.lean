import Breakpoints.Proofs.Registry.Agreement
import Breakpoints.Proofs.Session.History

/-!
# Tables shared with bindings

Only clearing everything takes tables away from sources: any other input leaves each
source the table it has and gives no table to another source (`extends_step`). So what
is true of a binding when it is made, and stays true as long as tables stay where they
are, is true of every binding that a debugger remembers (`Remembers.step`). In
particular a debugger remembers a source only with the table which that source has
(`remembers_after`).
-/

namespace Breakpoints

namespace Registry

theorem extends_intern (r : Registry) (s : Source) : r.Extends (r.intern s).2 :=
  ⟨precedes_intern r s, keeps_intern r s⟩

theorem extends_add (r : Registry) (room : Nat → Bool) (s : Source) (line : Nat) (d : Definition) :
    r.Extends (r.add room s line d) :=
  ⟨precedes_add r room s line d, keeps_add r room s line d⟩

theorem find?_of_bind {r : Registry} {source? : Option Source} {b : Binding}
    (h : (r.bind source?).1 = some b) : (r.bind source?).2.find? b.source = some b.table := by
  cases source? with
  | none => cases h
  | some s =>
    cases h
    exact find?_intern_self r s

end Registry

/-! ## What is remembered -/

namespace BindingCache

variable {config : Config} {pathOf : String → Option String} {frame : Frame} {r : Registry}
  {c : BindingCache} {P Q : Binding → Prop}

/-- Every remembered binding to a source satisfies `P`. -/
def Remembers (P : Binding → Prop) (c : BindingCache) : Prop :=
  ∀ function b, c.remembered? function = some (some b) → P b

theorem remembers_empty (caching : Caching) : (empty caching).Remembers P := fun _ _ h => by cases h

theorem remembers_forget (c : BindingCache) : c.forget.Remembers P := fun _ _ h => by cases h

theorem Remembers.mono (h : c.Remembers P) (hPQ : ∀ b, P b → Q b) : c.Remembers Q :=
  fun function b hb => hPQ b (h function b hb)

theorem Remembers.sync (h : c.Remembers P) (epoch? : Option Nat) :
    (c.sync epoch?).Remembers P := by
  unfold BindingCache.sync
  split
  · exact fun _ _ hb => by cases hb
  · exact h

theorem Remembers.remember (h : c.Remembers P) (function : Nat) {binding? : Option Binding}
    (hb : ∀ b, binding? = some b → P b) : (c.remember function binding?).Remembers P := by
  intro other b hrem
  by_cases ho : other = function
  · rw [ho, remembered?_remember_self] at hrem
    exact hb b (Option.some.inj hrem)
  · rw [remembered?_remember_of_ne ho] at hrem
    exact h other b hrem

/-- Resolving a function leads to a registry in which it was bound to a source, or to
none. Then the new binding is all that is remembered besides the old ones, and the
answer is one of them whose table is not empty. -/
theorem Remembers.resolve (h : c.Remembers P)
    (hbound : ∀ source? b, (c.resolve config pathOf frame r).registry = (r.bind source?).2 →
      (r.bind source?).1 = some b → P b) :
    (c.resolve config pathOf frame r).cache.Remembers P ∧
      ∀ b, (c.resolve config pathOf frame r).binding = some b →
        P b ∧ (c.resolve config pathOf frame r).registry.tables.get b.table ≠ .empty := by
  have hlive {r : Registry} {binding? : Option Binding} {b : Binding}
      (hb : r.live binding? = some b) : binding? = some b ∧ r.tables.get b.table ≠ .empty := by
    obtain ⟨hsome, hnonempty⟩ := Option.filter_eq_some_iff.1 hb
    refine ⟨hsome, fun hempty => ?_⟩
    rw [hempty] at hnonempty
    cases hnonempty
  cases hfun : frame.function with
  | none =>
    rw [resolve_of_unknown hfun]
    exact ⟨h, fun b hb => by cases hb⟩
  | some function =>
    cases hrec : c.known? frame.epoch function with
    | some binding? =>
      rw [resolve_of_recalled hfun hrec]
      refine ⟨h.sync frame.epoch, fun b hb => ?_⟩
      obtain ⟨rfl, hnonempty⟩ := hlive hb
      exact ⟨h.sync frame.epoch function b (known?_eq_some hrec).2, hnonempty⟩
    | none =>
      cases hchunk : frame.chunk with
      | none =>
        rw [resolve_of_undescribed hfun hrec hchunk]
        exact ⟨h.sync frame.epoch, fun b hb => by cases hb⟩
      | some chunk =>
        rw [resolve_of_described hfun hrec hchunk] at hbound ⊢
        have hnew (b : Binding) (hb : (r.bind (config.sourceOf pathOf chunk)).1 = some b) : P b :=
          hbound _ b rfl hb
        constructor
        · dsimp only
          split
          · exact (h.sync frame.epoch).remember function hnew
          · exact h.sync frame.epoch
        · intro b hb
          obtain ⟨hsome, hnonempty⟩ := hlive hb
          exact ⟨hnew b hsome, hnonempty⟩

end BindingCache

/-! ## Tables stay where they are -/

namespace Debugger

theorem extends_resolved (frame : Frame) (d : Debugger) :
    d.registry.Extends (d.resolved frame).registry := by
  obtain ⟨source?, hbound⟩ := d.registry_resolved frame
  rw [hbound]
  exact Registry.extends_bind ..

end Debugger

/-- Whether the input takes tables away from sources. -/
def Input.clears : Input → Bool
  | .clearAll => true
  | _ => false

namespace Session

variable {s : Session} {P : Registry → Binding → Prop}

theorem extends_proceed (d : Debugger) (suspended : List SuspendedCheck) (place : Debugger.Place)
    (dialogue : Dialogue Bool) :
    d.registry.Extends (proceed d suspended place dialogue).session.debugger.registry := by
  rw [debugger_proceed]
  exact Registry.extends_proceed ..

theorem cache_proceed (d : Debugger) (suspended : List SuspendedCheck) (place : Debugger.Place)
    (dialogue : Dialogue Bool) :
    (proceed d suspended place dialogue).session.debugger.cache = d.cache := by
  rw [debugger_proceed]
  rfl

/-- What a reached line does to the debugger besides counting a hit. -/
theorem line_debugger (s : Session) (frame : Frame) :
    (s.debugger.locate frame).debugger.registry.Extends
        (s.step (.line frame)).session.debugger.registry ∧
      (s.step (.line frame)).session.debugger.cache =
        (s.debugger.locate frame).debugger.cache := by
  cases hplace : (s.debugger.locate frame).place with
  | none =>
    rw [step_line_of_none hplace]
    exact ⟨⟨.refl _, .refl _⟩, rfl⟩
  | some place =>
    rw [step_line_of_some hplace]
    exact ⟨extends_proceed .., cache_proceed ..⟩

/-- An answer of the guest counts a hit at most. -/
theorem answer_debugger {input : Input} (s : Session) (h : input.isAnswer = true) :
    s.debugger.registry.Extends (s.step input).session.debugger.registry ∧
      (s.step input).session.debugger.cache = s.debugger.cache := by
  rcases s.step_answer h with ⟨check, outer, d, -, -, hstep⟩ | ⟨-, hstep⟩
  · rw [hstep]
    exact ⟨extends_proceed .., cache_proceed ..⟩
  · rw [hstep]
    exact ⟨⟨.refl _, .refl _⟩, rfl⟩

theorem extends_step {input : Input} (s : Session) (h : input.clears = false) :
    s.debugger.registry.Extends (s.step input).session.debugger.registry := by
  cases input with
  | setBreakpoints room source placed => exact Registry.extends_setAll ..
  | clearSource source => exact Registry.extends_clearSource ..
  | clearAll => cases h
  | line frame =>
    have hlocated : s.debugger.registry.Extends (s.debugger.locate frame).debugger.registry := by
      obtain ⟨source?, hbound⟩ := s.debugger.registry_locate frame
      rw [hbound]
      exact Registry.extends_bind ..
    exact hlocated.trans (s.line_debugger frame).1
  | call frame => exact s.debugger.extends_resolved frame
  | evaluated | displayed => exact (s.answer_debugger rfl).1

/-- What is true of new bindings, and stays true as long as tables stay where they
are, is true of all that are remembered. -/
theorem remembers_step (h : s.debugger.cache.Remembers (P s.debugger.registry))
    (hmono : ∀ {r r' b}, r.Extends r' → P r b → P r' b)
    (hbound : ∀ source? b, (s.debugger.registry.bind source?).1 = some b →
      P (s.debugger.registry.bind source?).2 b) (input : Input) :
    (s.step input).session.debugger.cache.Remembers
      (P (s.step input).session.debugger.registry) := by
  have hkept {r : Registry} (he : s.debugger.registry.Extends r) :
      s.debugger.cache.Remembers (P r) := h.mono fun _ => hmono he
  have hresolved (frame : Frame) :
      (s.debugger.resolved frame).cache.Remembers (P (s.debugger.resolved frame).registry) := by
    refine (BindingCache.Remembers.resolve (hkept (s.debugger.extends_resolved frame)) ?_).1
    intro source? b hregistry hb
    have hsame : (s.debugger.resolved frame).registry = (s.debugger.registry.bind source?).2 :=
      hregistry
    rw [hsame]
    exact hbound source? b hb
  have hanswer (hi : input.isAnswer = true) :
      (s.step input).session.debugger.cache.Remembers
        (P (s.step input).session.debugger.registry) := by
    obtain ⟨hextends, hcache⟩ := s.answer_debugger hi
    rw [hcache]
    exact hkept hextends
  cases input with
  | setBreakpoints room source placed => exact hkept (Registry.extends_setAll ..)
  | clearSource source => exact hkept (Registry.extends_clearSource ..)
  | clearAll => exact BindingCache.remembers_forget _
  | line frame =>
    obtain ⟨hextends, hcache⟩ := s.line_debugger frame
    rw [hcache]
    rcases s.debugger.locate_debugger frame with hlocated | hlocated
    · rw [hlocated] at hextends ⊢
      exact hkept hextends
    · rw [hlocated] at hextends ⊢
      exact (hresolved frame).mono fun _ => hmono hextends
  | call frame => exact hresolved frame
  | evaluated | displayed => exact hanswer rfl

/-- A debugger remembers a source only with the table that the source has. -/
theorem remembers_after (config : Config) (pathOf : String → Option String)
    (inputs : List Input) :
    let d := ((new config pathOf).after inputs).debugger
    d.cache.Remembers fun b => d.registry.find? b.source = some b.table := by
  refine after_induction
    (P := fun s => s.debugger.cache.Remembers fun b =>
      s.debugger.registry.find? b.source = some b.table) ?_ (BindingCache.remembers_empty _) inputs
  intro s input h
  exact remembers_step (P := fun r b => r.find? b.source = some b.table) h
    (fun he hb => he.keeps _ _ hb) (fun _ _ hb => Registry.find?_of_bind hb) input

end Session

end Breakpoints

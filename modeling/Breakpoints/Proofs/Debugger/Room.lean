import Breakpoints.Proofs.Debugger.Attribution
import Breakpoints.Proofs.Workbench.Refusals

/-!
# The room that commands have

Nothing is asked for a line that is covered. So the room that breakpoints have in the course of
a run is what they come with and what is covered by then, whichever source it was covered for
(`Debugger.grantingCovered`), and to say so outright makes no difference to the run
(`Debugger.obey_grantingCovered`). Where there is room for fewer counts whenever there is for
more, and no less than before, they come with that much room already
(`Debugger.Sound.grantsCovered`).

Where less is covered, but there is room for the rest, the same breakpoints are accepted
(`Registry.accepted_eq_of_catchesUp`).
-/

namespace Breakpoints

variable {σ : Type}

/-! ## Room for what is covered -/

namespace LineCounts

variable {room room' : Nat → Bool} {line : Nat} {c c' c₁ c₁' : LineCounts}

/-- There is room for the lines that are covered. -/
def GrantedBy (room : Nat → Bool) (c : LineCounts) : Prop := ∀ line < c.size, room (line + 1) = true

/-- The room that there is if what is covered is included. -/
def granting (room : Nat → Bool) (c : LineCounts) (n : Nat) : Bool :=
  (0 < n && n ≤ c.size) || room n

/-- The one covers no more than the other, and has room to catch up with it. -/
structure CatchesUp (room : Nat → Bool) (c' c : LineCounts) : Prop where
  size_le : c'.size ≤ c.size
  fits : ∀ line < c.size, c'.size ≤ line → fits room line = true

/-- Then both refuse the same lines. -/
theorem CatchesUp.refuses_iff (h : CatchesUp room c' c) (line : Nat) :
    c'.Refuses room line ↔ c.Refuses room line := by
  have hcovered := h.fits line
  have hle := h.size_le
  simp only [LineCounts.fits, Bool.and_eq_true, decide_eq_true_eq] at hcovered
  constructor
  · rintro ⟨hsize, hrefused⟩
    refine ⟨Nat.le_of_not_lt fun hline => ?_, hrefused⟩
    obtain ⟨hlimit, hroom⟩ := hcovered hline hsize
    rcases hrefused with hlarge | hnone
    · omega
    · rw [hroom] at hnone
      cases hnone
  · rintro ⟨hsize, hrefused⟩
    exact ⟨hle.trans hsize, hrefused⟩

theorem CatchesUp.cover (h : CatchesUp room c' c) (line : Nat)
    (hsize : c₁.size = max c.size (line + 1)) (hsize' : c₁'.size = max c'.size (line + 1)) :
    CatchesUp room c₁' c₁ where
  size_le := by
    rw [hsize, hsize']
    exact max_le_max_right _ h.size_le
  fits l hl hl' := by
    rw [hsize] at hl
    rw [hsize'] at hl'
    exact h.fits l (by omega) (by omega)

end LineCounts

namespace Registry

variable {room room' : Nat → Bool} {r r' : Registry} {s : Source}

theorem size_le_size_add (r : Registry) (room : Nat → Bool) (s : Source) (line : Nat)
    (d : Definition) : r.counts.size ≤ (r.add room s line d).counts.size := by
  cases hc : r.counts.cover? room line with
  | none => rw [add_of_cover?_eq_none hc]
  | some c =>
    rw [size_counts_add hc]
    exact Nat.le_max_left ..

theorem size_le_size_setAll (r : Registry) (room : Nat → Bool) (s : Source)
    (placed : List (Nat × Definition)) : r.counts.size ≤ (r.setAll room s placed).counts.size := by
  induction placed generalizing r with
  | nil => exact le_rfl
  | cons p rest ih => exact (r.size_le_size_add room s p.1 p.2).trans (ih _)

/-- What a source holds after breakpoints were set depends on what it held before and on which
of them were accepted. -/
theorem WellFormed.contents_setAll (h : r.WellFormed) (room : Nat → Bool) (s : Source)
    (placed : List (Nat × Definition)) :
    (r.setAll room s placed).contents s =
      (r.accepted room s placed).foldl (fun t p => t.define p.1 p.2) (r.contents s) := by
  induction placed generalizing r with
  | nil => rfl
  | cons p rest ih =>
    have hrest := ih (h.add room s p.1 p.2)
    rw [setAll, List.foldl_cons]
    refine hrest.trans ?_
    by_cases hr : r.counts.Refuses room p.1
    · rw [accepted_cons_of_refuses hr, add_of_refuses hr]
    · obtain ⟨c, hc⟩ := LineCounts.exists_cover?_of_not_refuses hr
      rw [accepted_cons_of_not_refuses hr, List.foldl_cons, h.contents_add, hc, if_pos ⟨rfl, rfl⟩]

theorem add_catchesUp (h : LineCounts.CatchesUp room r'.counts r.counts) (s : Source)
    (line : Nat) (d : Definition) :
    LineCounts.CatchesUp room (r'.add room s line d).counts (r.add room s line d).counts := by
  by_cases hr : r.counts.Refuses room line
  · rw [add_of_refuses hr, add_of_refuses ((h.refuses_iff line).2 hr)]
    exact h
  · obtain ⟨c, hc⟩ := LineCounts.exists_cover?_of_not_refuses hr
    obtain ⟨c', hc'⟩ := LineCounts.exists_cover?_of_not_refuses (mt (h.refuses_iff line).1 hr)
    exact h.cover line (size_counts_add hc s d) (size_counts_add hc' s d)

theorem setAll_catchesUp (h : LineCounts.CatchesUp room r'.counts r.counts) (s : Source)
    (placed : List (Nat × Definition)) :
    LineCounts.CatchesUp room (r'.setAll room s placed).counts (r.setAll room s placed).counts := by
  induction placed generalizing r r' with
  | nil => exact h
  | cons p rest ih => exact ih (add_catchesUp h s p.1 p.2)

/-- A registry that covers less accepts the same if it can catch up. -/
theorem accepted_eq_of_catchesUp (h : LineCounts.CatchesUp room r'.counts r.counts) (s : Source)
    (placed : List (Nat × Definition)) :
    r'.accepted room s placed = r.accepted room s placed := by
  induction placed generalizing r r' with
  | nil => rfl
  | cons p rest ih =>
    have hrest := ih (add_catchesUp h s p.1 p.2)
    by_cases hr : r.counts.Refuses room p.1
    · rw [accepted_cons_of_refuses hr, accepted_cons_of_refuses ((h.refuses_iff p.1).2 hr)]
      exact ih h
    · rw [accepted_cons_of_not_refuses hr,
        accepted_cons_of_not_refuses (mt (h.refuses_iff p.1).1 hr), hrest]

end Registry

/-! ## Commands that come with all the room there is -/

namespace Command

/-- There is room for what is covered when the command is carried out. -/
def GrantsCovered (counts : LineCounts) (c : Command σ) : Prop :=
  ∀ room, c.room? = some room → counts.GrantedBy room

/-- The command, with what is covered included in its room. -/
def grantingCovered (counts : LineCounts) : Command σ → Command σ
  | .setBreakpoints room s placed => .setBreakpoints (counts.granting room) s placed
  | c => c

/-- The command with another room. -/
def withRoom (room : Nat → Bool) : Command σ → Command σ
  | .setBreakpoints _ s placed => .setBreakpoints room s placed
  | c => c

/-- Commands that are the same but for the room they come with. -/
def SameButRoom (c c' : Command σ) : Prop := ∃ room, c' = c.withRoom room

variable {c c' : Command σ}

theorem SameButRoom.refl (c : Command σ) : c.SameButRoom c := by
  cases c with
  | setBreakpoints room s placed => exact ⟨room, rfl⟩
  | clearSource | clearAll | line | call => exact ⟨fun _ => true, rfl⟩

theorem SameButRoom.grantingCovered (h : c.SameButRoom c') (counts : LineCounts) :
    c.SameButRoom (c'.grantingCovered counts) := by
  obtain ⟨room, rfl⟩ := h
  cases c with
  | setBreakpoints => exact ⟨counts.granting room, rfl⟩
  | clearSource | clearAll | line | call => exact ⟨room, rfl⟩

theorem SameButRoom.concerns_eq (h : c.SameButRoom c') (config : Config)
    (pathOf : String → Option String) (s : Source) :
    c'.concerns config pathOf s = c.concerns config pathOf s := by
  obtain ⟨room, rfl⟩ := h
  cases c <;> rfl

end Command

namespace Debugger

variable {room : Nat → Bool} {d : Debugger} {commands : List (Command σ)}

/-- In the course of the run there is always room for what is covered. -/
def GrantsCovered (d : Debugger) : List (Command σ) → Prop
  | [] => True
  | c :: rest => c.GrantsCovered d.registry.counts ∧ (d.obey c).debugger.GrantsCovered rest

/-- The commands of a run, each with what is covered by then included in its room. -/
def grantingCovered (d : Debugger) : List (Command σ) → List (Command σ)
  | [] => []
  | c :: rest => c.grantingCovered d.registry.counts :: (d.obey c).debugger.grantingCovered rest

section

variable {describe : Nat → Nat → Option Chunk} {c : Command σ}

/-- Frames that are described consistently still are after a command. -/
theorem describes_cons {rest : List (Command σ)}
    (hf : ∀ frame ∈ (c :: rest).filterMap Command.frame?, d.Describes describe frame) :
    (∀ frame, c.frame? = some frame → d.Describes describe frame) ∧
      ∀ c' : Command σ, ∀ frame ∈ rest.filterMap Command.frame?,
        (d.obey c').debugger.Describes describe frame := by
  constructor
  · exact fun frame hframe => hf frame (List.mem_filterMap.2 ⟨c, List.mem_cons_self, hframe⟩)
  · intro c' frame hframe
    obtain ⟨later, hlater, hframe⟩ := List.mem_filterMap.1 hframe
    exact (d.sameSettings_obey c').describes
      (hf frame (List.mem_filterMap.2 ⟨later, List.mem_cons_of_mem c hlater, hframe⟩))

/-- Reached lines and calls cover no line. -/
theorem counts_obey_of_frame? {frame : Frame} (h : c.frame? = some frame) (d : Debugger) :
    (d.obey c).debugger.registry.counts = d.registry.counts := by
  cases c with
  | setBreakpoints | clearSource | clearAll => cases h
  | line frame g state => exact d.counts_runLine frame g state
  | call frame =>
    obtain ⟨source?, hbound⟩ := d.registry_resolved frame
    simp only [obey, hbound, Registry.counts_bind]

/-- Unless all breakpoints are cleared, what is covered stays covered. -/
theorem size_le_size_obey {s : Source} (hc : c.concerns d.config d.pathOf s = false) :
    d.registry.counts.size ≤ (d.obey c).debugger.registry.counts.size := by
  cases c with
  | setBreakpoints room s' placed => exact d.registry.size_le_size_setAll room s' placed
  | clearSource s' => exact (Registry.size_counts_clearSource d.registry s').ge
  | clearAll => cases hc
  | line | call => rw [counts_obey_of_frame? rfl]

/-- What fits stays fitting where there is more room. -/
theorem Sound.mono {room' : Nat → Bool} (h : d.Sound describe room) (hle : room ≤ room') :
    d.Sound describe room' := by
  refine ⟨⟨h.registry.wellFormed, h.registry.exact, fun line hline => ?_⟩, h.coherent⟩
  obtain ⟨hlimit, hroom⟩ := Bool.and_eq_true_iff.1 (h.registry.fitting line hline)
  exact Bool.and_eq_true_iff.2 ⟨hlimit, hle _ hroom⟩

end

end Debugger

end Breakpoints

import Breakpoints.Proofs.Debugger.Commands
import Breakpoints.Proofs.Workbench.Isolation

/-!
# Lines that need no check

There are two ways to tell that a reached line needs no check. One is the count of the
line: if no source has a breakpoint there, the host is asked for nothing but the line and
all stays as it is (`line_asked_iff`). The other is the answer to a call: resolving a
function again gives the same binding and changes nothing, so what a call has answered is
what the lines of the function come to right after it (`line_after_call`). Neither needs the
host to be consistent.
-/

namespace Breakpoints

namespace Debugger

variable {d : Debugger} {frame : Frame} {line : Nat}

/-- A line that no source has a breakpoint at, if the line is known at all. -/
theorem locate_of_not_admits (h : ∀ line, frame.line = some line → d.registry.admits line = false) :
    d.locate frame = ⟨none, d, [.asked .line]⟩ := by
  unfold locate
  cases hline : frame.line with
  | none => rfl
  | some line => simp only [h line hline, Bool.false_eq_true, if_false]

theorem locate_of_admits (hline : frame.line = some line) (h : d.registry.admits line = true) :
    d.locate frame =
      { place := (d.resolve frame).binding.map fun b => ⟨b.table, line⟩
        debugger := d.resolved frame
        events := .asked .line :: (d.resolve frame).events } := by
  simp only [locate, hline, h, if_true]

/-- Once the function is resolved, finding out where one of its lines is checked changes
nothing, and gives the table of the binding unless no source has a breakpoint at the line. -/
theorem locate_resolved (frame : Frame) (d : Debugger) (line : Nat) :
    let located := (d.resolved frame).locate { frame with line := some line }
    located.debugger = d.resolved frame ∧
      located.place =
        if (d.resolved frame).registry.admits line then
          (d.resolve frame).binding.map fun b => ⟨b.table, line⟩
        else none := by
  intro located
  obtain ⟨hbinding, hcache, hregistry⟩ :=
    BindingCache.resolve_resolve d.config d.pathOf frame d.registry d.cache
  cases hadmits : (d.resolved frame).registry.admits line with
  | false =>
    simp only [located, locate, hadmits, Bool.false_eq_true, if_false, and_self]
  | true =>
    have hresolved : (d.resolved frame).resolved { frame with line := some line } =
        d.resolved frame := congrArg₂ (Debugger.mk d.config d.pathOf) hregistry hcache
    simp only [located, locate, hadmits, if_true, hresolved, true_and]
    exact congrArg (Option.map fun b => Place.mk b.table line) hbinding

end Debugger

namespace Session

variable {s : Session} {frame : Frame} {line : Nat}

theorem step_line_of_not_admits
    (h : ∀ line, frame.line = some line → s.debugger.registry.admits line = false) :
    s.step (.line frame) = ⟨s, [.asked .line], some (.line false)⟩ := by
  have hlocate := Debugger.locate_of_not_admits h
  rw [step_line_of_none (by rw [hlocate]), hlocate]

/-- A line that is counted makes the debugger ask for the running function. -/
theorem mem_events_of_admits (hline : frame.line = some line)
    (h : s.debugger.registry.admits line = true) :
    .asked .function ∈ (s.step (.line frame)).events := by
  have hasked : .asked .function ∈ (s.debugger.locate frame).events := by
    rw [Debugger.locate_of_admits hline h]
    exact List.mem_cons_of_mem _ (BindingCache.asked_function_mem_events ..)
  cases hplace : (s.debugger.locate frame).place with
  | none =>
    rw [step_line_of_none hplace]
    exact hasked
  | some place =>
    rw [step_line_of_some hplace]
    exact List.mem_append_left _ hasked

theorem serve_check_of_not_admits (h : s.debugger.registry.admits line = false)
    (channel : Channel) (table : TableId) :
    s.serve (.check channel table line) = ⟨s, [], some (.line false)⟩ := by
  simp only [serve, Registry.check, h, Bool.false_eq_true, if_false]
  exact proceed_done ..

/-! ## By the count of the line -/

/-- **Lines without breakpoints cost nothing.** After any requests, also while checks are
suspended, a reached line makes the debugger ask the host for something beyond the line
itself exactly if some source has a breakpoint at the line that the host reports. If none
has one, the answer is not to pause, nothing is looked up, evaluated or printed, and the
session is what it was. -/
theorem line_asked_iff (config : Config) (pathOf : String → Option String)
    (requests : List Request) (frame : Frame) (rest : List Request) :
    let s := (new config pathOf).served requests
    let call : Request := .tell (.line frame)
    let held := ∃ line source, frame.line = some line ∧
      (s.debugger.registry.contents source).holds line = true
    ((∃ question, question ≠ .line ∧
        .asked question ∈ (s.seenOf call rest).flatMap Seen.events) ↔ held) ∧
      (¬held → s.serve call = ⟨s, [.asked .line], some (.line false)⟩ ∧
        s.seenOf call rest = [⟨[.asked .line], some (.line false)⟩]) := by
  intro s call held
  obtain ⟨history, hrecorded⟩ := (recorded_new config pathOf).served requests
  have hexact : s.debugger.registry.Exact := hrecorded.arises.exact
  have hidle (hnot : ¬held) : s.serve call = ⟨s, [.asked .line], some (.line false)⟩ ∧
      s.seenOf call rest = [⟨[.asked .line], some (.line false)⟩] := by
    have hstep : s.serve call = ⟨s, [.asked .line], some (.line false)⟩ := by
      refine step_line_of_not_admits fun line hline => ?_
      rw [← Bool.not_eq_true, hexact.admits_iff]
      rintro ⟨source, hheld⟩
      exact hnot ⟨line, source, hline, hheld⟩
    refine ⟨hstep, ?_⟩
    unfold seenOf turnsOf
    rw [hstep, resumptions_of_finished (Nat.le_refl _)]
    rfl
  constructor
  · constructor
    · rintro ⟨question, hquestion, hasked⟩
      by_contra hnot
      rw [(hidle hnot).2] at hasked
      exact hquestion (by simpa using hasked)
    · rintro ⟨line, source, hline, hheld⟩
      -- The line is counted, so the running function is asked for.
      have hasked : .asked .function ∈ (s.serve call).events :=
        mem_events_of_admits hline (hexact.admits_iff.2 ⟨source, hheld⟩)
      exact ⟨.function, nofun, List.mem_flatMap.2 ⟨_, List.mem_cons_self, hasked⟩⟩
  · exact hidle

/-! ## By the answer to a call -/

section Settled

variable (hsame : (s.debugger.locate frame).debugger = s.debugger)
include hsame

/-- A line without a place, where finding that out has changed nothing. -/
theorem step_line_of_settled_none (h : (s.debugger.locate frame).place = none) :
    s.step (.line frame) =
      ⟨s, (s.debugger.locate frame).events, some (.line false)⟩ := by
  rw [step_line_of_none h, hsame]

/-- A line with a place is checked in the table that was found. -/
theorem step_line_of_settled_some {table : TableId}
    (h : (s.debugger.locate frame).place = some ⟨table, line⟩) :
    s.step (.line frame) =
      (s.serve (.check s.debugger.config.channel table line)).after
        (s.debugger.locate frame).events := by
  rw [step_line_of_some h, hsame]
  rfl

end Settled

/-- **A call tells what the lines of its function come to.** If it answers that the
function has no binding, then right after it no line of the function pauses, nothing is
evaluated or printed, and the session stays as it is. If it answers a binding, the table is
not empty, and each line of the function is checked like the same line of that table, turn
by turn, apart from the questions that it takes to resolve the function once more. -/
theorem line_after_call (s : Session) (frame : Frame) :
    let called := s.step (.call frame)
    let line (n : Nat) : Request := .tell (.line { frame with line := some n })
    ∃ binding?, called.answer = some (.call binding?) ∧
      match binding? with
      | none => ∀ n, ∃ asked, (∀ e ∈ asked, e.resolving = true) ∧
          called.session.serve (line n) = ⟨called.session, asked, some (.line false)⟩
      | some b =>
        (called.session.debugger.registry.tables.get b.table).isEmpty = false ∧
          ∀ n, let check : Request := .check s.debugger.config.channel b.table n
            ∃ asked, (∀ e ∈ asked, e.resolving = true) ∧
              called.session.serve (line n) = (called.session.serve check).after asked ∧
              ∀ rest, called.session.turnsOf (line n) rest = called.session.turnsOf check rest := by
  intro called line
  refine ⟨(s.debugger.resolve frame).binding, rfl, ?_⟩
  have hlocated (n : Nat) := s.debugger.locate_resolved frame n
  have hresolving (n : Nat) :=
    called.session.debugger.resolving_locate { frame with line := some n }
  cases hbinding : (s.debugger.resolve frame).binding with
  | none =>
    intro n
    obtain ⟨hsame, hplace⟩ := hlocated n
    rw [hbinding, Option.map_none, ite_self] at hplace
    exact ⟨_, hresolving n, step_line_of_settled_none hsame hplace⟩
  | some b =>
    refine ⟨BindingCache.isEmpty_of_binding_resolve hbinding, fun n => ?_⟩
    intro check
    obtain ⟨hsame, hplace⟩ := hlocated n
    rw [hbinding, Option.map_some] at hplace
    have hline : called.session.serve (line n) = (called.session.serve check).after
        (called.session.debugger.locate { frame with line := some n }).events := by
      cases hadmits : (s.debugger.resolved frame).registry.admits n with
      | false =>
        -- The check looks at the count of the line as well.
        rw [hadmits, if_neg Bool.false_ne_true] at hplace
        rw [show called.session.serve check = _ from serve_check_of_not_admits hadmits ..]
        exact (step_line_of_settled_none hsame hplace).trans (by simp [Outcome.after])
      | true =>
        rw [hadmits, if_pos rfl] at hplace
        exact step_line_of_settled_some hsame hplace
    refine ⟨_, hresolving n, hline, fun rest => ?_⟩
    unfold turnsOf
    rw [hline]
    rfl

end Session

end Breakpoints

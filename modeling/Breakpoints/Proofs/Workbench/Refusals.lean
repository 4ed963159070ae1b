import Breakpoints.Proofs.Workbench.Definitions
import Breakpoints.Proofs.Workbench.References

/-!
# Lines that cannot be counted

A breakpoint at a line that cannot be counted is refused before anything is touched; not
even a table is made for its source. So a run comes to the same without the breakpoints that
were refused in it (`Session.served_accepted`), and how far the counts reach is a matter of
the others alone: they cover the lines up to the highest one at which a breakpoint was set
since all breakpoints were cleared (`Session.reaches_served`). Clearing a source makes no
difference to that, and neither does setting a breakpoint that is there already.
-/

namespace Breakpoints

namespace LineCounts

variable {room : Nat → Bool} {line : Nat} {c : LineCounts} {lines : List Nat}

/-- The line is not covered and cannot be: the number of lines would be too large, or there
is no room for so many counts. -/
def Refuses (room : Nat → Bool) (line : Nat) (c : LineCounts) : Prop :=
  c.size ≤ line ∧ (sizeLimit ≤ line + 1 ∨ room (line + 1) = false)

instance : Decidable (c.Refuses room line) := inferInstanceAs (Decidable (_ ∧ _))

theorem cover?_eq_none_iff : c.cover? room line = none ↔ c.Refuses room line := by
  unfold cover? Refuses
  split
  · next hcovered => simp [Nat.not_le_of_lt hcovered]
  · next hcovered =>
    rw [ite_eq_right_iff]
    simp [Nat.le_of_not_lt hcovered, imp_iff_not_or]

theorem exists_cover?_of_not_refuses (h : ¬c.Refuses room line) :
    ∃ c', c.cover? room line = some c' :=
  Option.ne_none_iff_exists'.1 (mt cover?_eq_none_iff.1 h)

/-- The covered lines are those up to the highest one of a list. -/
def Reaches (lines : List Nat) (c : LineCounts) : Prop :=
  ∀ line, line < c.size ↔ ∃ l ∈ lines, line ≤ l

theorem reaches_empty : empty.Reaches [] := fun line => by simp [empty, size]

/-- As far as before, with no line more. -/
theorem Reaches.of_size {c' : LineCounts} (h : c.Reaches lines) (hsize : c'.size = c.size) :
    c'.Reaches (lines ++ []) := by
  intro line
  rw [List.append_nil, hsize, h line]

theorem Reaches.concat {c' : LineCounts} (h : c.Reaches lines)
    (hsize : c'.size = max c.size (line + 1)) : c'.Reaches (lines ++ [line]) := by
  intro l
  rw [hsize, lt_max_iff, h l, Nat.lt_succ_iff]
  simp [or_and_right, exists_or]

theorem Reaches.size_eq_zero (h : c.Reaches []) : c.size = 0 := by
  by_contra hne
  obtain ⟨l, hl, -⟩ := (h 0).1 (Nat.pos_of_ne_zero hne)
  exact List.not_mem_nil hl

/-- There is one count more than the highest line has in front of it. -/
theorem Reaches.exists_highest (h : c.Reaches lines) (hne : lines ≠ []) :
    ∃ line ∈ lines, c.size = line + 1 ∧ ∀ l ∈ lines, l ≤ line := by
  have hcovered : ∀ l ∈ lines, l < c.size := fun l hl => (h l).2 ⟨l, hl, Nat.le_refl l⟩
  obtain ⟨first, hfirst⟩ := List.exists_mem_of_ne_nil lines hne
  have hpos : 0 < c.size := Nat.zero_lt_of_lt (hcovered first hfirst)
  obtain ⟨line, hline, hle⟩ := (h (c.size - 1)).1 (by omega)
  have hlast : c.size = line + 1 := by
    have hless := hcovered line hline
    omega
  refine ⟨line, hline, hlast, fun l hl => ?_⟩
  have hless := hcovered l hl
  omega

end LineCounts

/-! ## Registries -/

namespace Registry

variable {room : Nat → Bool} {r : Registry} {s : Source} {line : Nat} {lines : List Nat}

theorem add_of_refuses (h : r.counts.Refuses room line) (s : Source) (d : Definition) :
    r.add room s line d = r :=
  add_of_cover?_eq_none (LineCounts.cover?_eq_none_iff.2 h) s d

/-- A breakpoint that is not refused is there afterwards. -/
theorem WellFormed.get?_add_of_not_refuses (h : r.WellFormed) (hr : ¬r.counts.Refuses room line)
    (s : Source) (d : Definition) :
    ((r.add room s line d).contents s).get? line =
      some (.ofDefinition d (((r.contents s).hits? line).getD 0)) := by
  obtain ⟨c, hc⟩ := LineCounts.exists_cover?_of_not_refuses hr
  rw [h.contents_add, hc, if_pos ⟨rfl, rfl⟩, Table.get?_define, if_pos rfl]

/-- The breakpoints of a list that are not refused when their turn comes. -/
def accepted (room : Nat → Bool) (s : Source) :
    List (Nat × Definition) → Registry → List (Nat × Definition)
  | [], _ => []
  | p :: rest, r =>
    if r.counts.Refuses room p.1 then accepted room s rest r
    else p :: accepted room s rest (r.add room s p.1 p.2)

theorem accepted_cons_of_refuses {p : Nat × Definition} (h : r.counts.Refuses room p.1)
    (s : Source) (rest : List (Nat × Definition)) :
    r.accepted room s (p :: rest) = r.accepted room s rest := by
  rw [accepted, if_pos h]

theorem accepted_cons_of_not_refuses {p : Nat × Definition} (h : ¬r.counts.Refuses room p.1)
    (s : Source) (rest : List (Nat × Definition)) :
    r.accepted room s (p :: rest) = p :: (r.add room s p.1 p.2).accepted room s rest := by
  rw [accepted, if_neg h]

/-- The others leave nothing behind. -/
theorem setAll_accepted (room : Nat → Bool) (s : Source) (placed : List (Nat × Definition))
    (r : Registry) : r.setAll room s (r.accepted room s placed) = r.setAll room s placed := by
  induction placed generalizing r with
  | nil => rfl
  | cons p rest ih =>
    by_cases h : r.counts.Refuses room p.1
    · rw [accepted_cons_of_refuses h, ih, setAll, setAll, List.foldl_cons, add_of_refuses h]
    · rw [accepted_cons_of_not_refuses h]
      exact ih (r.add room s p.1 p.2)

theorem accepted_accepted (room : Nat → Bool) (s : Source) (placed : List (Nat × Definition))
    (r : Registry) :
    r.accepted room s (r.accepted room s placed) = r.accepted room s placed := by
  induction placed generalizing r with
  | nil => rfl
  | cons p rest ih =>
    by_cases h : r.counts.Refuses room p.1
    · rw [accepted_cons_of_refuses h, ih]
    · rw [accepted_cons_of_not_refuses h, accepted_cons_of_not_refuses h, ih]

/-- Setting a breakpoint covers its line, whether or not it was there before. -/
theorem reaches_add (h : r.counts.Reaches lines) (hr : ¬r.counts.Refuses room line) (s : Source)
    (d : Definition) : (r.add room s line d).counts.Reaches (lines ++ [line]) := by
  obtain ⟨c, hc⟩ := LineCounts.exists_cover?_of_not_refuses hr
  exact h.concat (size_counts_add hc s d)

theorem reaches_setAll (h : r.counts.Reaches lines) (s : Source)
    (placed : List (Nat × Definition)) :
    (r.setAll room s placed).counts.Reaches
      (lines ++ (r.accepted room s placed).map Prod.fst) := by
  induction placed generalizing r lines with
  | nil => simpa [accepted] using h
  | cons p rest ih =>
    rw [setAll, List.foldl_cons]
    by_cases hr : r.counts.Refuses room p.1
    · rw [accepted_cons_of_refuses hr, add_of_refuses hr]
      exact ih h
    · have hrest := ih (reaches_add h hr s p.2)
      rw [List.append_assoc] at hrest
      rwa [accepted_cons_of_not_refuses hr]

end Registry

/-! ## Runs -/

/-- The request without the breakpoints that are refused; a single one leaves nothing. -/
def Request.accepted (r : Registry) : Request → List Request
  | .add room s line d => if r.counts.Refuses room line then [] else [.add room s line d]
  | .tell (.setBreakpoints room s placed) =>
    [.tell (.setBreakpoints room s (r.accepted room s placed))]
  | request => [request]

/-- The lines that a request sets breakpoints at. -/
def Request.lines : Request → List Nat
  | .add _ _ line _ => [line]
  | .tell (.setBreakpoints _ _ placed) => placed.map Prod.fst
  | _ => []

/-- The lines that breakpoints were set at, once more requests were made. Those from before
all breakpoints were cleared do not count. -/
def linesOnceServed (lines : List Nat) (requests : List Request) : List Nat :=
  requests.foldl (fun lines request => if request.clears then [] else lines ++ request.lines) lines

namespace Session

variable {s : Session} {lines : List Nat}

/-- The requests without the breakpoints that are refused in the course of them. -/
def accepted (s : Session) : List Request → List Request
  | [] => []
  | request :: rest =>
    request.accepted s.debugger.registry ++ (s.serve request).session.accepted rest

theorem served_append (s : Session) (xs ys : List Request) :
    s.served (xs ++ ys) = (s.served xs).served ys :=
  List.foldl_append

theorem serve_add_of_refuses {room : Nat → Bool} {line : Nat}
    (h : s.debugger.registry.counts.Refuses room line) (source : Source) (d : Definition) :
    s.serve (.add room source line d) = ⟨s, [.noted (.outOfRange source line)], none⟩ := by
  have hc : s.debugger.registry.counts.cover? room line = none :=
    LineCounts.cover?_eq_none_iff.2 h
  simp only [serve, withRegistry, Registry.add_of_refuses h, Registry.addNotice, hc]

/-- A request comes to the same without what is refused. -/
theorem served_accepted_request (s : Session) (request : Request) :
    s.served (request.accepted s.debugger.registry) = (s.serve request).session := by
  cases request with
  | add room source line d =>
    by_cases h : s.debugger.registry.counts.Refuses room line
    · rw [Request.accepted, if_pos h, serve_add_of_refuses h]
      rfl
    · rw [Request.accepted, if_neg h]
      rfl
  | tell input =>
    cases input with
    | setBreakpoints room source placed =>
      have hsame : s.debugger.setBreakpoints room source
          (s.debugger.registry.accepted room source placed) =
            s.debugger.setBreakpoints room source placed :=
        congrArg (fun registry => { s.debugger with registry })
          (Registry.setAll_accepted room source placed s.debugger.registry)
      exact congrArg (fun debugger => { s with debugger }) hsame
    | _ => rfl
  | _ => rfl

/-- **A run comes to the same** without the breakpoints that are refused in it. -/
theorem served_accepted (s : Session) (requests : List Request) :
    s.served (s.accepted requests) = s.served requests := by
  induction requests generalizing s with
  | nil => rfl
  | cons request rest ih =>
    rw [accepted, served_append, served_accepted_request]
    exact ih _

theorem accepted_append (s : Session) (xs ys : List Request) :
    s.accepted (xs ++ ys) = s.accepted xs ++ (s.served xs).accepted ys := by
  induction xs generalizing s with
  | nil => rfl
  | cons request rest ih =>
    rw [List.cons_append, accepted, accepted, ih, List.append_assoc]
    rfl

theorem accepted_accepted_request (s : Session) (request : Request) :
    s.accepted (request.accepted s.debugger.registry) =
      request.accepted s.debugger.registry := by
  cases request with
  | add room source line d =>
    by_cases h : s.debugger.registry.counts.Refuses room line
    · rw [Request.accepted, if_pos h]
      rfl
    · simp only [Request.accepted, if_neg h, accepted, List.append_nil]
  | tell input =>
    cases input with
    | setBreakpoints room source placed =>
      simp only [Request.accepted, accepted, Registry.accepted_accepted, List.append_nil]
    | _ => rfl
  | _ => rfl

/-- Nothing is refused in what is left. -/
theorem accepted_accepted (s : Session) (requests : List Request) :
    s.accepted (s.accepted requests) = s.accepted requests := by
  induction requests generalizing s with
  | nil => rfl
  | cons request rest ih =>
    rw [accepted, accepted_append, accepted_accepted_request, served_accepted_request, ih]

/-! ## How far the counts reach -/

theorem counts_proceed (d : Debugger) (suspended : List SuspendedCheck) (place : Debugger.Place)
    (dialogue : Dialogue Bool) :
    (proceed d suspended place dialogue).session.debugger.registry.counts = d.registry.counts := by
  rw [debugger_proceed]
  rfl

/-- A reached line counts nothing. -/
theorem counts_step_line (s : Session) (frame : Frame) :
    (s.step (.line frame)).session.debugger.registry.counts = s.debugger.registry.counts := by
  obtain ⟨source?, hbound⟩ := s.debugger.registry_locate frame
  have hlocated : (s.debugger.locate frame).debugger.registry.counts =
      s.debugger.registry.counts := by rw [hbound, Registry.counts_bind]
  cases hplace : (s.debugger.locate frame).place with
  | none => rw [step_line_of_none hplace, hlocated]
  | some place => rw [step_line_of_some hplace, counts_proceed, hlocated]

theorem counts_step_call (s : Session) (frame : Frame) :
    (s.step (.call frame)).session.debugger.registry.counts = s.debugger.registry.counts := by
  obtain ⟨source?, hbound⟩ := s.debugger.registry_resolved frame
  show (s.debugger.resolved frame).registry.counts = _
  rw [hbound, Registry.counts_bind]

theorem counts_step_answer {input : Input} (s : Session) (h : input.isAnswer = true) :
    (s.step input).session.debugger.registry.counts = s.debugger.registry.counts := by
  rcases s.step_answer h with ⟨check, outer, d, -, -, hstep⟩ | ⟨-, hstep⟩
  · rw [hstep, counts_proceed]
  · rw [hstep]

/-- The counts of the session's registry cover the lines up to the highest of a list. -/
abbrev Reaches (lines : List Nat) (s : Session) : Prop :=
  s.debugger.registry.counts.Reaches lines

theorem linesOnceServed_append (lines : List Nat) (xs ys : List Request) :
    linesOnceServed lines (xs ++ ys) = linesOnceServed (linesOnceServed lines xs) ys :=
  List.foldl_append

theorem reaches_step (h : s.Reaches lines) (input : Input) :
    (s.step input).session.Reaches
      (linesOnceServed lines ((Request.tell input).accepted s.debugger.registry)) := by
  cases input with
  | setBreakpoints room source placed => exact Registry.reaches_setAll h source placed
  | clearSource source => exact h.of_size (Registry.size_counts_clearSource ..)
  | clearAll => exact LineCounts.reaches_empty
  | line frame => exact h.of_size (congrArg LineCounts.size (s.counts_step_line frame))
  | call frame => exact h.of_size (congrArg LineCounts.size (s.counts_step_call frame))
  | evaluated | displayed => exact h.of_size (congrArg LineCounts.size (s.counts_step_answer rfl))

theorem reaches_serve (h : s.Reaches lines) (request : Request) :
    (s.serve request).session.Reaches
      (linesOnceServed lines (request.accepted s.debugger.registry)) := by
  cases request with
  | tell input => exact reaches_step h input
  | add room source line d =>
    by_cases hr : s.debugger.registry.counts.Refuses room line
    · rw [Request.accepted, if_pos hr, serve_add_of_refuses hr]
      exact h
    · rw [Request.accepted, if_neg hr]
      exact Registry.reaches_add h hr source d
  | clearSource source => exact h.of_size (Registry.size_counts_clearSource ..)
  | clear => exact LineCounts.reaches_empty
  | lookup source => exact h.of_size (congrArg LineCounts.size (Registry.counts_intern ..))
  | check channel table line => exact h.of_size (congrArg LineCounts.size (counts_proceed ..))

/-- **The counts reach** up to the highest line that was not refused since all breakpoints
were cleared. -/
theorem reaches_served (h : s.Reaches lines) (requests : List Request) :
    (s.served requests).Reaches (linesOnceServed lines (s.accepted requests)) := by
  induction requests generalizing s lines with
  | nil => exact h
  | cons request rest ih =>
    rw [accepted, linesOnceServed_append]
    exact ih (reaches_serve h request)

/-- **Refused lines leave no trace.** In every state that arises a breakpoint whose line
cannot be counted is ignored: the session is what it was, and this is all that is told. Any
other breakpoint is there afterwards. So a run comes to the same without the breakpoints that
are refused in it, also in the middle of a list, and no more are refused in what is left.
There are no counts if none of its breakpoints was set since all breakpoints were cleared, or
else just as many as it takes to count the highest line at which one was set since. No source
has a breakpoint at a line beyond. -/
theorem refusals_leave_no_trace (config : Config) (pathOf : String → Option String)
    (requests : List Request) :
    let start := new config pathOf
    let s := start.served requests
    let r := s.debugger.registry
    let lines := linesOnceServed [] (start.accepted requests)
    (∀ room source line d,
      if r.counts.size ≤ line ∧ (2 ^ 64 ≤ line + 1 ∨ room (line + 1) = false) then
        s.serve (.add room source line d) = ⟨s, [.noted (.outOfRange source line)], none⟩
      else
        let r' := (s.serve (.add room source line d)).session.debugger.registry
        (r'.contents source).get? line =
          some (.ofDefinition d (((r.contents source).hits? line).getD 0))) ∧
      start.served (start.accepted requests) = s ∧
      start.accepted (start.accepted requests) = start.accepted requests ∧
      (lines = [] → r.counts.size = 0) ∧
      (lines ≠ [] → ∃ line ∈ lines, r.counts.size = line + 1 ∧ ∀ l ∈ lines, l ≤ line) ∧
      ∀ source line, (r.contents source).holds line = true → line < r.counts.size := by
  intro start s r lines
  obtain ⟨history, hrecorded⟩ := (recorded_new config pathOf).served requests
  have ha : Registry.Arises history r := hrecorded.arises
  have hreaches : r.counts.Reaches lines :=
    reaches_served (s := start) LineCounts.reaches_empty requests
  refine ⟨fun room source line d => ?_, start.served_accepted requests,
    start.accepted_accepted requests, fun hnone => ?_, hreaches.exists_highest, ?_⟩
  · split
    · next hr => exact serve_add_of_refuses hr source d
    · next hr => exact ha.wellFormed.get?_add_of_not_refuses hr source d
  · rw [hnone] at hreaches
    exact hreaches.size_eq_zero
  · intro source line hheld
    have hcount : 0 < r.counts.count line := ha.exact.count_pos_iff.2 ⟨source, hheld⟩
    by_contra hbeyond
    rw [LineCounts.count_eq_zero_of_size_le (Nat.le_of_not_lt hbeyond)] at hcount
    exact Nat.lt_irrefl 0 hcount

/-- The line in the middle is out of range, and the list goes on. -/
example :
    let set : Input := .setBreakpoints (fun n => n ≤ 10) (.path "a") [(3, {}), (12, {}), (5, {})]
    linesOnceServed [] ((new {} chunkPath).accepted [.tell set, .clearSource (.path "a")]) =
      [3, 5] := by
  decide +kernel

end Session

end Breakpoints

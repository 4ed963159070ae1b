import Breakpoints.Proofs.Session.History

/-!
# The turns of a check

A check takes turns with the guest: the first when its line is reached, and one
more whenever the guest answers it. Between two turns anything can happen, also
checks that are nested in it, but none of it touches the suspended check
(`suspended_step_of_nested`). So every turn of a check goes on with a part of its
dialogue (`turns_proceed`), and its next turn takes up what it waits for
(`turns_eq`).
-/

namespace Breakpoints

/-- A turn of a check: the input that starts it, and those taken before. -/
structure Turn where
  past : List Input
  input : Input

/-- More was taken before. -/
def Turn.after (past : List Input) (t : Turn) : Turn := { t with past := past ++ t.past }

namespace Session

/-- What comes of a turn. -/
def turn (s : Session) (t : Turn) : Outcome := (s.after t.past).step t.input

/-- The turns of the check that is suspended above `depth` others, until it is
finished. -/
def turns (depth : Nat) (s : Session) : List Input → List Turn
  | [] => []
  | input :: rest =>
    if s.suspended.length ≤ depth then []
    else
      let later := ((s.step input).session.turns depth rest).map (Turn.after [input])
      if s.suspended.length = depth + 1 ∧ s.awaits input = true then ⟨[], input⟩ :: later else later

/-- The turns of the check of a line that is reached before the other inputs. -/
def callTurns (s : Session) (frame : Frame) (rest : List Input) : List Turn :=
  ⟨[], .line frame⟩ ::
    ((s.step (.line frame)).session.turns s.suspended.length rest).map (Turn.after [.line frame])

variable {s : Session} {input : Input} {check : SuspendedCheck} {inner outer : List SuspendedCheck}
  {P : Event → Prop}

@[simp] theorem turn_after (s : Session) (past : List Input) (t : Turn) :
    s.turn (t.after past) = (s.after past).turn t := by
  simp only [turn, Turn.after, after_append]

/-! ## What an input does to the suspended checks -/

/-- An input that is not waited for resumes no check. -/
theorem suspended_step_of_not_awaits (h : s.awaits input = false) :
    ∃ pushed, (s.step input).session.suspended = pushed ++ s.suspended := by
  cases input with
  | setBreakpoints | clearSource | clearAll | call => exact ⟨[], rfl⟩
  | line frame =>
    cases hplace : (s.debugger.locate frame).place with
    | none =>
      rw [step_line_of_none hplace]
      exact ⟨[], rfl⟩
    | some place =>
      rw [step_line_of_some hplace]
      rcases suspended_proceed (s.debugger.locate frame).debugger s.suspended place _ with
        ⟨waiting, -, hp⟩ | hp
      · exact ⟨[⟨place, waiting⟩], hp⟩
      · exact ⟨[], hp⟩
  | evaluated | displayed =>
    rw [step_of_not_awaits h rfl]
    exact ⟨[], rfl⟩

/-- Whatever is not an answer to the check itself leaves it suspended. -/
theorem suspended_step_of_nested (hs : s.suspended = inner ++ check :: outer)
    (h : inner = [] → s.awaits input = false) :
    ∃ inner', (s.step input).session.suspended = inner' ++ check :: outer := by
  cases hawaits : s.awaits input with
  | false =>
    obtain ⟨pushed, hp⟩ := suspended_step_of_not_awaits hawaits
    exact ⟨pushed ++ inner, by rw [hp, hs, List.append_assoc]⟩
  | true =>
    cases inner with
    | nil =>
      rw [h rfl] at hawaits
      cases hawaits
    | cons top inner =>
      have hs : s.suspended = top :: (inner ++ check :: outer) := hs
      rw [awaits_cons hs, Option.isSome_iff_exists] at hawaits
      obtain ⟨d, hd⟩ := hawaits
      rw [step_of_resumed hs hd]
      rcases suspended_proceed s.debugger (inner ++ check :: outer) top.place d with
        ⟨waiting, -, hp⟩ | hp
      · exact ⟨⟨top.place, waiting⟩ :: inner, hp⟩
      · exact ⟨inner, hp⟩

/-! ## The turns -/

theorem turns_of_finished {depth : Nat} (h : s.suspended.length ≤ depth) (inputs : List Input) :
    s.turns depth inputs = [] := by
  cases inputs with
  | nil => rfl
  | cons input rest => simp only [turns, if_pos h]

theorem turns_cons_of_resumed (hs : s.suspended = check :: outer)
    (hd : check.waiting.resumed? input = some d) (rest : List Input) :
    s.turns outer.length (input :: rest) =
      ⟨[], input⟩ ::
        ((s.step input).session.turns outer.length rest).map (Turn.after [input]) := by
  have hawaits : s.awaits input = true := by rw [awaits_cons hs, hd]; rfl
  simp [turns, hs, hawaits]

theorem turns_cons_of_nested (hs : s.suspended = inner ++ check :: outer)
    (h : inner = [] → s.awaits input = false) (rest : List Input) :
    s.turns outer.length (input :: rest) =
      ((s.step input).session.turns outer.length rest).map (Turn.after [input]) := by
  have hlength : s.suspended.length = inner.length + (outer.length + 1) := by simp [hs]
  have hnot : ¬(s.suspended.length = outer.length + 1 ∧ s.awaits input = true) := by
    rintro ⟨hone, hawaits⟩
    have hinner : inner = [] := List.eq_nil_of_length_eq_zero (by omega)
    rw [h hinner] at hawaits
    cases hawaits
  simp only [turns, if_neg hnot]
  rw [if_neg (by omega)]

/-- The next input is an answer to the check, or the check stays as it is. -/
theorem resumed_or_nested (hs : s.suspended = inner ++ check :: outer) (input : Input) :
    (inner = [] ∧ ∃ d, check.waiting.resumed? input = some d) ∨
      (inner = [] → s.awaits input = false) := by
  cases inner with
  | cons => exact .inr fun h => by cases h
  | nil =>
    cases hd : check.waiting.resumed? input with
    | some d => exact .inl ⟨rfl, d, rfl⟩
    | none =>
      have hs : s.suspended = check :: outer := hs
      refine .inr fun _ => ?_
      rw [awaits_cons hs, hd]
      rfl

/-- A check that is suspended takes no turn any more, or the next one when it gets
what it waits for. -/
theorem turns_eq (hs : s.suspended = inner ++ check :: outer) (inputs : List Input) :
    s.turns outer.length inputs = [] ∨
      ∃ past input rest d, (s.after past).suspended = check :: outer ∧
        check.waiting.resumed? input = some d ∧
        s.turns outer.length inputs = ⟨past, input⟩ ::
          (((s.after past).step input).session.turns outer.length rest).map
            (Turn.after (past ++ [input])) := by
  induction inputs generalizing s inner with
  | nil => exact .inl rfl
  | cons input rest ih =>
    rcases resumed_or_nested hs input with ⟨rfl, d, hd⟩ | hnested
    · exact .inr ⟨[], input, rest, d, hs, hd, turns_cons_of_resumed hs hd rest⟩
    · obtain ⟨inner', hs'⟩ := suspended_step_of_nested hs hnested
      rw [turns_cons_of_nested hs hnested]
      rcases ih hs' with hnone | ⟨past, answer, rest', d, hsuspended, hd, hturns⟩
      · exact .inl (by rw [hnone]; rfl)
      · refine .inr ⟨input :: past, answer, rest', d, hsuspended, hd, ?_⟩
        simp [hturns, Turn.after, Function.comp_def]

/-- In each of its turns a suspended check goes on with something that shows no more
than what it waits with. -/
theorem turns_proceed (hs : s.suspended = inner ++ check :: outer)
    (hw : check.waiting.OnlyShows P) {inputs : List Input} {t : Turn}
    (ht : t ∈ s.turns outer.length inputs) :
    ∃ d, d.OnlyShows P ∧ s.turn t = proceed (s.after t.past).debugger outer check.place d := by
  induction inputs generalizing s inner check t with
  | nil => cases ht
  | cons input rest ih =>
    rcases resumed_or_nested hs input with ⟨rfl, d, hd⟩ | hnested
    · have honly : d.OnlyShows P := Dialogue.Waiting.OnlyShows.resumed hw hd
      rw [turns_cons_of_resumed hs hd] at ht
      rcases List.mem_cons.1 ht with rfl | ht
      · exact ⟨d, honly, step_of_resumed hs hd⟩
      · obtain ⟨t, hlater, rfl⟩ := List.mem_map.1 ht
        rw [turn_after]
        have hnext := suspended_proceed s.debugger outer check.place d
        rw [← step_of_resumed hs hd] at hnext
        rcases hnext with ⟨waiting, hstand, hp⟩ | hp
        · have hsame : (s.step input).session.suspended =
              [] ++ ⟨check.place, waiting⟩ :: outer := hp
          exact ih hsame (honly.next hstand) hlater
        · rw [turns_of_finished (Nat.le_of_eq (congrArg List.length hp))] at hlater
          cases hlater
    · obtain ⟨inner', hs'⟩ := suspended_step_of_nested hs hnested
      rw [turns_cons_of_nested hs hnested] at ht
      obtain ⟨t, hlater, rfl⟩ := List.mem_map.1 ht
      rw [turn_after]
      exact ih hs' hw hlater

end Session

end Breakpoints

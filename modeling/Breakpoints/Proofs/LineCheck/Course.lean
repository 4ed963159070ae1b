import Breakpoints.Proofs.Session.Hits
import Breakpoints.Proofs.Template.Rendering

/-!
# The course of a check

A check goes from scene to scene. Its condition is met or missed; if it is met, there is
a hit to count or there is none; then the hit condition is met or missed. `Hits` and
`Passes` say how far the check of a breakpoint gets, and for each way it can go there is
one lemma about what it comes to and what is seen of it.
-/

namespace Breakpoints

open Dialogue (Guest Scene Ending holdsIfAny)

/-- Whether it is reported that a predicate failed. -/
def Event.isFailure : Event → Bool
  | .noted (.predicateFailed ..) => true
  | _ => false

namespace Dialogue

/-- The outcome is a list of values that starts with `true`. -/
def IsTrue (outcome : Except Fault (List Value)) : Prop :=
  ∃ later, outcome = .ok (.boolean true :: later)

theorem isTrue_ok_iff {values : List Value} :
    IsTrue (.ok values) ↔ values.head?.any Value.isTrue = true := by
  cases values with
  | nil => simp [IsTrue]
  | cons value later => simp [IsTrue, Value.isTrue_iff]

theorem not_isTrue_error (fault : Fault) : ¬IsTrue (.error fault) := by
  rintro ⟨later, h⟩
  cases h

instance : DecidablePred IsTrue
  | .ok _ => decidable_of_iff _ isTrue_ok_iff.symm
  | .error fault => isFalse (not_isTrue_error fault)

variable {σ : Type} {g : Guest (Scene σ)} {id : TableId} {line : Nat}

/-- The guest gets from one scene to the other and finds that the expression holds, or
there is no expression and nothing happens. -/
inductive Meets (g : Guest (Scene σ)) : Option String → Scene σ → Scene σ → Prop
  | absent {c : Scene σ} : Meets g none c c
  | holds {expression : String} {c c' : Scene σ} {outcome : Except Fault (List Value)}
      (evaluated : g.evaluate (Template.script expression) c = (outcome, c'))
      (isTrue : IsTrue outcome) : Meets g (some expression) c c'

/-- It finds that the expression does not hold. -/
inductive Misses (g : Guest (Scene σ)) : Option String → Scene σ → Scene σ → Prop
  | intro {expression : String} {c c' : Scene σ} {outcome : Except Fault (List Value)}
      (evaluated : g.evaluate (Template.script expression) c = (outcome, c'))
      (notTrue : ¬IsTrue outcome) : Misses g (some expression) c c'

/-- What is seen of evaluating an expression, if there is one. -/
def predicateEvents (expression? : Option String) : List Event :=
  expression?.toList.map fun expression => .evaluated (Template.script expression)

theorem meets_or_misses (g : Guest (Scene σ)) (expression? : Option String) (c : Scene σ) :
    (∃ c', Meets g expression? c c') ∨ ∃ c', Misses g expression? c c' := by
  cases expression? with
  | none => exact .inl ⟨c, .absent⟩
  | some expression =>
    by_cases h : IsTrue (g.evaluate (Template.script expression) c).1
    · exact .inl ⟨_, .holds rfl h⟩
    · exact .inr ⟨_, .intro rfl h⟩

/-- A predicate comes to whether its outcome starts with `true`. At most a failure is
reported besides. -/
theorem runIn_holds (id : TableId) (line : Nat) {expression : String} {c c' : Scene σ}
    {outcome : Except Fault (List Value)}
    (evaluated : g.evaluate (Template.script expression) c = (outcome, c')) :
    ∃ notices : List Notice,
      (holdsIfAny (some expression)).runIn g id line c =
        ⟨decide (IsTrue outcome), c'.tables, c'.guest,
          predicateEvents (some expression) ++ notices.map .noted⟩ ∧
      (IsTrue outcome → notices = []) ∧
      (notices.map Event.noted).filter (!·.isFailure) = [] := by
  cases outcome with
  | ok values =>
    refine ⟨[], ?_, fun _ => rfl, rfl⟩
    simp only [holdsIfAny, holds, runIn, evaluated, isTrue_ok_iff, Bool.decide_eq_true]
    rfl
  | error fault =>
    refine ⟨[.predicateFailed expression fault], ?_,
      fun h => absurd h (not_isTrue_error fault), rfl⟩
    simp only [holdsIfAny, holds, runIn, evaluated]
    rfl

theorem Meets.runIn {expression? : Option String} {c c' : Scene σ}
    (h : Meets g expression? c c') :
    (holdsIfAny expression?).runIn g id line c =
      ⟨true, c'.tables, c'.guest, predicateEvents expression?⟩ := by
  cases h with
  | absent => rfl
  | holds evaluated isTrue =>
    obtain ⟨notices, hrun, hnotices, -⟩ := runIn_holds id line evaluated
    rw [hrun, hnotices isTrue, decide_eq_true isTrue, List.map_nil, List.append_nil]

theorem Misses.runIn (id : TableId) (line : Nat) {expression? : Option String} {c c' : Scene σ}
    (h : Misses g expression? c c') :
    ∃ notices : List Notice, (holdsIfAny expression?).runIn g id line c =
      ⟨false, c'.tables, c'.guest, predicateEvents expression? ++ notices.map .noted⟩ := by
  obtain ⟨evaluated, notTrue⟩ := h
  obtain ⟨notices, hrun, -⟩ := runIn_holds id line evaluated
  exact ⟨notices, by rw [hrun, decide_eq_false notTrue]⟩

end Dialogue

open Dialogue

namespace Breakpoint

variable {σ : Type} {g : Guest (Scene σ)} {id : TableId} {line : Nat} {b : Breakpoint}
  {c c' : Scene σ} {n : Nat}

/-- The condition is met and the hit of this number counted, which leads to the second
scene. -/
inductive Hits (g : Guest (Scene σ)) (id : TableId) (line : Nat) (b : Breakpoint) (c : Scene σ) :
    Nat → Scene σ → Prop
  | intro {c' : Scene σ} {n : Nat} {t : Table} (met : Meets g b.condition c c')
      (recorded : (c'.tables.get id).recordHit? line = some (n, t)) :
      Hits g id line b c n ⟨c'.tables.set id t, c'.guest⟩

/-- After its hit, the hit condition is met for its number. -/
inductive Passes (g : Guest (Scene σ)) (id : TableId) (line : Nat) (b : Breakpoint) (c : Scene σ) :
    Nat → Scene σ → Prop
  | intro {c' c'' : Scene σ} {n : Nat} (hits : Hits g id line b c n c')
      (met : Meets g (b.hitCondition.map (hitExpression n)) c' c'') : Passes g id line b c n c''

/-- What is seen up to the hit. -/
def hitTrace (id : TableId) (line : Nat) (b : Breakpoint) (n : Nat) : List Event :=
  predicateEvents b.condition ++ [.hit id line n]

/-- What is seen until the hit condition is met. -/
def passTrace (id : TableId) (line : Nat) (b : Breakpoint) (n : Nat) : List Event :=
  hitTrace id line b n ++ predicateEvents (b.hitCondition.map (hitExpression n))

/-- There is no hit if the condition is missed, or there is no breakpoint any more. -/
theorem runIn_of_not_hits (channel : Channel) (h : ¬∃ n c', b.Hits g id line c n c') :
    ∃ (c' : Scene σ) (notices : List Notice), (b.check channel line).runIn g id line c =
      ⟨false, c'.tables, c'.guest, predicateEvents b.condition ++ notices.map .noted⟩ := by
  rw [check_eq_bind, runIn_bind]
  rcases meets_or_misses g b.condition c with ⟨c', met⟩ | ⟨c', missed⟩
  · cases recorded : (c'.tables.get id).recordHit? line with
    | some hit => exact absurd ⟨hit.1, _, .intro met recorded⟩ h
    | none =>
      refine ⟨c', [.removedMeanwhile line], ?_⟩
      rw [met.runIn]
      simp only [checkOnceHeld, Dialogue.runIn, countHit, Ending.scene, recorded]
      rfl
  · obtain ⟨notices, hrun⟩ := missed.runIn id line
    refine ⟨c', notices, ?_⟩
    rw [hrun]
    simp only [checkOnceHeld, Dialogue.runIn, Ending.scene, Ending.after, List.append_nil]

theorem Hits.runIn (channel : Channel) (h : b.Hits g id line c n c') :
    (b.check channel line).runIn g id line c =
      ((b.checkHit channel line n).runIn g id line c').after (hitTrace id line b n) := by
  obtain ⟨met, recorded⟩ := h
  rw [check_eq_bind, runIn_bind, met.runIn]
  simp only [checkOnceHeld, Dialogue.runIn, countHit, Ending.scene, recorded, Ending.after_after]
  rfl

/-- What the check does once its hit condition is met. -/
def message (channel : Channel) (line : Nat) (b : Breakpoint) : Dialogue Bool :=
  match b.logMessage with
  | none => .done true
  | some template => (printMessage channel line template).bind fun _ => .done false

theorem Passes.runIn (channel : Channel) (h : b.Passes g id line c n c') :
    (b.check channel line).runIn g id line c =
      ((b.message channel line).runIn g id line c').after (passTrace id line b n) := by
  obtain ⟨hits, met⟩ := h
  rw [hits.runIn channel, checkHit, runIn_bind, met.runIn, passTrace, Ending.after_after]
  rfl

end Breakpoint

end Breakpoints

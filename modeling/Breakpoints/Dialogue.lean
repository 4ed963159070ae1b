import Breakpoints.Event
import Breakpoints.Tables

/-!
# Dialogues with the guest

A dialogue is a computation that hands control to the guest now and then: it has
a script evaluated or a value displayed, and goes on with the answer. In between
it may count a hit, print and report. It holds no state of its own besides what
it has been told, so whatever the guest does meanwhile reaches it only through
the guest's answers and through the table whose hits it counts.

`proceed` runs a dialogue until the guest has control or the result is there, and
`run` runs it to the end with a guest that leaves the tables alone.
-/

namespace Breakpoints

inductive Dialogue (α : Type) where
  | done (result : α)
  | evaluate (script : String) (next : Except Fault (List Value) → Dialogue α)
  | display (value : Value) (next : Except Fault String → Dialogue α)
  /-- Goes on with the new number of hits, or with nothing if there is no
  breakpoint to hit. -/
  | hit (next : Option Nat → Dialogue α)
  | print (channel : Channel) (text : String) (next : Dialogue α)
  | note (notice : Notice) (next : Dialogue α)

namespace Dialogue

variable {α β γ : Type}

/-- Goes on with the result. -/
def bind : Dialogue α → (α → Dialogue β) → Dialogue β
  | done result, f => f result
  | evaluate script next, f => evaluate script fun outcome => (next outcome).bind f
  | display value next, f => display value fun outcome => (next outcome).bind f
  | hit next, f => hit fun hits? => (next hits?).bind f
  | print channel text next, f => print channel text (next.bind f)
  | note notice next, f => note notice (next.bind f)

instance : Monad Dialogue where
  pure := done
  bind := bind

@[simp] theorem pure_eq (a : α) : (pure a : Dialogue α) = done a := rfl

@[simp] theorem bind_eq (d : Dialogue α) (f : α → Dialogue β) : d >>= f = d.bind f := rfl

@[simp] theorem done_bind (a : α) (f : α → Dialogue β) : (done a).bind f = f a := rfl

@[simp] theorem bind_done (d : Dialogue α) : d.bind done = d := by
  induction d with
  | done => rfl
  | evaluate script next ih => exact congrArg _ (funext ih)
  | display value next ih => exact congrArg _ (funext ih)
  | hit next ih => exact congrArg _ (funext ih)
  | print channel text next ih => exact congrArg _ ih
  | note notice next ih => exact congrArg _ ih

theorem bind_assoc (d : Dialogue α) (f : α → Dialogue β) (g : β → Dialogue γ) :
    (d.bind f).bind g = d.bind fun a => (f a).bind g := by
  induction d with
  | done => rfl
  | evaluate script next ih => exact congrArg _ (funext ih)
  | display value next ih => exact congrArg _ (funext ih)
  | hit next ih => exact congrArg _ (funext ih)
  | print channel text next ih => exact congrArg _ ih
  | note notice next ih => exact congrArg _ ih

instance : LawfulMonad Dialogue :=
  LawfulMonad.mk' Dialogue bind_done (fun _ _ => rfl) (fun d f g => bind_assoc d f g)

/-- What a dialogue waits for while the guest has control. -/
inductive Waiting (α : Type) where
  | evaluation (script : String) (next : Except Fault (List Value) → Dialogue α)
  | display (value : Value) (next : Except Fault String → Dialogue α)

inductive Standing (α : Type) where
  | finished (result : α)
  | waiting (w : Waiting α)

/-- How far a dialogue got: the tables as it left them, what could be seen of it,
and where it stands. -/
structure Progress (α : Type) where
  tables : Tables
  events : List Event
  standing : Standing α

/-- More was seen before, in this order. -/
def Progress.after (p : Progress α) (events : List Event) : Progress α :=
  { p with events := events ++ p.events }

/-- Counts a hit of the breakpoint at a line of a table. -/
def countHit (id : TableId) (line : Nat) (ts : Tables) : Option Nat × Tables :=
  match (ts.get id).recordHit? line with
  | none => (none, ts)
  | some (hits, t) => (some hits, ts.set id t)

/-- What is seen of counting a hit. -/
def hitEvents (id : TableId) (line : Nat) : Option Nat → List Event
  | none => []
  | some hits => [.hit id line hits]

/-- Runs a dialogue about the breakpoint at a line of a table until the guest has
control. -/
def proceed (id : TableId) (line : Nat) : Dialogue α → Tables → Progress α
  | done result, ts => ⟨ts, [], .finished result⟩
  | evaluate script next, ts => ⟨ts, [.evaluated script], .waiting (.evaluation script next)⟩
  | display value next, ts => ⟨ts, [.displayed value], .waiting (.display value next)⟩
  | hit next, ts =>
    let (hits?, ts') := countHit id line ts
    ((next hits?).proceed id line ts').after (hitEvents id line hits?)
  | print channel text next, ts => (next.proceed id line ts).after [.printed channel text]
  | note notice next, ts => (next.proceed id line ts).after [.noted notice]

/-- A guest with a state of its own, which leaves the tables alone. -/
structure Guest (σ : Type) where
  evaluate : String → σ → Except Fault (List Value) × σ
  display : Value → σ → Except Fault String × σ

/-- The end of a dialogue. -/
structure Ending (σ α : Type) where
  result : α
  tables : Tables
  guest : σ
  events : List Event

/-- More was seen before, in this order. -/
def Ending.after {σ : Type} (e : Ending σ α) (events : List Event) : Ending σ α :=
  { e with events := events ++ e.events }

/-- Runs a dialogue to the end. -/
def run {σ : Type} (g : Guest σ) (id : TableId) (line : Nat) :
    Dialogue α → Tables → σ → Ending σ α
  | done result, ts, s => ⟨result, ts, s, []⟩
  | evaluate script next, ts, s =>
    let (outcome, s') := g.evaluate script s
    ((next outcome).run g id line ts s').after [.evaluated script]
  | display value next, ts, s =>
    let (outcome, s') := g.display value s
    ((next outcome).run g id line ts s').after [.displayed value]
  | hit next, ts, s =>
    let (hits?, ts') := countHit id line ts
    ((next hits?).run g id line ts' s).after (hitEvents id line hits?)
  | print channel text next, ts, s => (next.run g id line ts s).after [.printed channel text]
  | note notice next, ts, s => (next.run g id line ts s).after [.noted notice]

@[simp] theorem Ending.after_after {σ : Type} (e : Ending σ α) (xs ys : List Event) :
    (e.after ys).after xs = e.after (xs ++ ys) := by
  simp [Ending.after]

end Dialogue

end Breakpoints

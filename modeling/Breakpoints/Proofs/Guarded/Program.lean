import Breakpoints.Session

/-!
# Programs that lend cells

The sources with their counts, the bindings and every table are cells of their own. A cell
is lent before anything is done with it: to any number of users who look at it, or to one
who changes it. A `Guarded` program says when it takes and gives back what, and where the
guest has control; whatever a conflict or a failed assertion comes to is a `Panic`.
`Guarded.proceed` runs a program with what is lent at the moment until the guest has
control, and notes of everything that is seen what was lent then.

A part of a program that takes nothing it does not give back runs the same whatever else
is lent (`Guarded.Runs`).
-/

namespace Breakpoints

/-- What is lent as a whole. -/
inductive Cell where
  /-- Which source has which table, and the counts. -/
  | store
  /-- The bindings of functions. -/
  | cache
  | table (id : TableId)
  deriving DecidableEq, Repr

inductive Mode where
  | shared
  | exclusive
  deriving DecidableEq, Repr

/-- A cell that was lent and not given back. -/
structure Loan where
  cell : Cell
  mode : Mode
  deriving DecidableEq, Repr

/-- What a registry holds besides the tables. -/
structure Store where
  sources : List (Source × TableId)
  counts : LineCounts

/-- What a cell holds. -/
@[reducible] def Cell.Content : Cell → Type
  | store => Store
  | cache => BindingCache
  | table _ => Table

inductive Panic where
  /-- The cell is lent in a way that does not go together with what is asked for. -/
  | conflict (cell : Cell)
  /-- The cell is given back but was not lent. -/
  | unlent (cell : Cell)
  /-- One more breakpoint was to be counted at a line that is not covered. -/
  | uncovered (line : Nat)
  /-- One breakpoint less was to be counted at a line that counts none. -/
  | uncounted (line : Nat)
  | overflow
  | underflow
  /-- There is no such position in a text. -/
  | outOfRange (position : Nat)
  deriving DecidableEq, Repr

/-- A sum that must not exceed a limit. -/
def checkedSum (limit a b : Nat) : Except Panic Nat :=
  if a + b ≤ limit then .ok (a + b) else .error .overflow

/-- A difference that must not be negative. -/
def checkedSub (a b : Nat) : Except Panic Nat := if b ≤ a then .ok (a - b) else .error .underflow

theorem checkedSum_eq {limit a b : Nat} (h : a + b ≤ limit) : checkedSum limit a b = .ok (a + b) :=
  if_pos h

theorem eq_of_checkedSum {limit a b n : Nat} (h : checkedSum limit a b = .ok n) : n = a + b := by
  unfold checkedSum at h
  split at h
  · cases h; rfl
  · cases h

namespace Registry

/-- What there is besides the tables. -/
def store (r : Registry) : Store := ⟨r.sources, r.counts⟩

end Registry

namespace Debugger

def content (d : Debugger) : (c : Cell) → c.Content
  | .store => d.registry.store
  | .cache => d.cache
  | .table id => d.registry.tables.get id

/-- Replaces what a cell holds. -/
def put (d : Debugger) : (c : Cell) → c.Content → Debugger
  | .store, st => { d with registry := ⟨d.registry.tables, st.sources, st.counts⟩ }
  | .cache, cache => { d with cache }
  | .table id, t => d.withTables (d.registry.tables.set id t)

end Debugger

/-- A debugger and what is lent of it, last lent first. -/
structure Machine where
  debugger : Debugger
  loans : List Loan

/-- Something that was seen, and what was lent at that moment. -/
structure Sighting where
  event : Event
  loans : List Loan
  deriving DecidableEq, Repr

/-- A program that lends cells. -/
inductive Guarded (α : Type) where
  | done (result : α)
  | panic (p : Panic)
  /-- Takes a cell to look at it. -/
  | share (c : Cell) (next : c.Content → Guarded α)
  | unshare (c : Cell) (next : Guarded α)
  /-- Takes a cell to change it. -/
  | hold (c : Cell) (next : c.Content → Guarded α)
  /-- Gives a cell back that now holds this. -/
  | release (c : Cell) (content : c.Content) (next : Guarded α)
  /-- Makes a new empty table. -/
  | newTable (next : TableId → Guarded α)
  | tell (e : Event) (next : Guarded α)
  | evaluate (script : String) (next : Except Fault (List Value) → Guarded α)
  | display (value : Value) (next : Except Fault String → Guarded α)

namespace Guarded

variable {α β γ : Type}

/-- Goes on with the result. -/
def bind : Guarded α → (α → Guarded β) → Guarded β
  | done result, f => f result
  | panic p, _ => panic p
  | share c next, f => share c fun content => (next content).bind f
  | unshare c next, f => unshare c (next.bind f)
  | hold c next, f => hold c fun content => (next content).bind f
  | release c content next, f => release c content (next.bind f)
  | newTable next, f => newTable fun id => (next id).bind f
  | tell e next, f => tell e (next.bind f)
  | evaluate script next, f => evaluate script fun outcome => (next outcome).bind f
  | display value next, f => display value fun outcome => (next outcome).bind f

instance : Monad Guarded where
  pure := done
  bind := bind

@[simp] theorem pure_eq (a : α) : (pure a : Guarded α) = done a := rfl

@[simp] theorem bind_eq (p : Guarded α) (f : α → Guarded β) : p >>= f = p.bind f := rfl

@[simp] theorem done_bind (a : α) (f : α → Guarded β) : (done a).bind f = f a := rfl

theorem bind_assoc (p : Guarded α) (f : α → Guarded β) (g : β → Guarded γ) :
    (p.bind f).bind g = p.bind fun a => (f a).bind g := by
  induction p with
  | done | panic => rfl
  | share c next ih => exact congrArg _ (funext ih)
  | unshare c next ih => exact congrArg _ ih
  | hold c next ih => exact congrArg _ (funext ih)
  | release c content next ih => exact congrArg _ ih
  | newTable next ih => exact congrArg _ (funext ih)
  | tell e next ih => exact congrArg _ ih
  | evaluate script next ih => exact congrArg _ (funext ih)
  | display value next ih => exact congrArg _ (funext ih)

/-- A computation that may fail. -/
def ofExcept : Except Panic α → Guarded α
  | .ok a => done a
  | .error p => panic p

/-- Tells events one after the other. -/
def say (events : List Event) : Guarded Unit := events.foldr tell (done ())

/-- Looks at a cell in the course of a program, and gives it back. -/
def sharing (c : Cell) (f : c.Content → Guarded α) : Guarded α :=
  share c fun content => (f content).bind fun a => unshare c (done a)

/-- Changes a cell in the course of a program, and gives it back. -/
def holding (c : Cell) (f : c.Content → Guarded (α × c.Content)) : Guarded α :=
  hold c fun content => (f content).bind fun result => release c result.2 (done result.1)

/-! ## Running a program -/

/-- What a program waits for while the guest has control. -/
inductive Waiting (α : Type) where
  | evaluation (script : String) (next : Except Fault (List Value) → Guarded α)
  | display (value : Value) (next : Except Fault String → Guarded α)

inductive Standing (α : Type) where
  | finished (result : α)
  | waiting (w : Waiting α)

/-- How far a program got: the machine as it left it, what was seen, and where it stands. -/
structure Progress (α : Type) where
  machine : Machine
  seen : List Sighting
  standing : Standing α

/-- More was seen before, in this order, unless the program panics. -/
def seenBefore (seen : List Sighting) (r : Except Panic (Progress α)) : Except Panic (Progress α) :=
  r.map fun progress => { progress with seen := seen ++ progress.seen }

/-- Runs a program until the guest has control. -/
def proceed : Guarded α → Machine → Except Panic (Progress α)
  | done result, m => .ok ⟨m, [], .finished result⟩
  | panic p, _ => .error p
  | share c next, m =>
    if ⟨c, .exclusive⟩ ∈ m.loans then .error (.conflict c)
    else (next (m.debugger.content c)).proceed { m with loans := ⟨c, .shared⟩ :: m.loans }
  | unshare c next, m =>
    if ⟨c, .shared⟩ ∈ m.loans then next.proceed { m with loans := m.loans.erase ⟨c, .shared⟩ }
    else .error (.unlent c)
  | hold c next, m =>
    if ⟨c, .exclusive⟩ ∈ m.loans ∨ ⟨c, .shared⟩ ∈ m.loans then .error (.conflict c)
    else (next (m.debugger.content c)).proceed { m with loans := ⟨c, .exclusive⟩ :: m.loans }
  | release c content next, m =>
    if ⟨c, .exclusive⟩ ∈ m.loans then
      next.proceed ⟨m.debugger.put c content, m.loans.erase ⟨c, .exclusive⟩⟩
    else .error (.unlent c)
  | newTable next, m =>
    let tables := m.debugger.registry.tables
    (next tables.fresh).proceed { m with debugger := m.debugger.withTables tables.grow }
  | tell e next, m => seenBefore [⟨e, m.loans⟩] (next.proceed m)
  | evaluate script next, m =>
    .ok ⟨m, [⟨.evaluated script, m.loans⟩], .waiting (.evaluation script next)⟩
  | display value next, m =>
    .ok ⟨m, [⟨.displayed value, m.loans⟩], .waiting (.display value next)⟩

/-- With these loans the program comes to its result without giving the guest control, and
gives everything back that it takes. -/
def Runs (loans : List Loan) (d : Debugger) (p : Guarded α) (result : α) (d' : Debugger)
    (seen : List Sighting) : Prop :=
  p.proceed ⟨d, loans⟩ = .ok ⟨⟨d', loans⟩, seen, .finished result⟩

/-- Events that are seen while this is lent. -/
def sightings (loans : List Loan) (events : List Event) : List Sighting :=
  events.map fun e => ⟨e, loans⟩

@[simp] theorem sightings_nil (loans : List Loan) : sightings loans [] = [] := rfl

@[simp] theorem sightings_append (loans : List Loan) (xs ys : List Event) :
    sightings loans (xs ++ ys) = sightings loans xs ++ sightings loans ys := List.map_append

@[simp] theorem event_sightings (loans : List Loan) (events : List Event) :
    (sightings loans events).map (·.event) = events := by
  simp [sightings, Function.comp_def]

@[simp] theorem seenBefore_nil (r : Except Panic (Progress α)) : seenBefore [] r = r := by
  cases r <;> rfl

@[simp] theorem seenBefore_seenBefore (xs ys : List Sighting) (r : Except Panic (Progress α)) :
    seenBefore xs (seenBefore ys r) = seenBefore (xs ++ ys) r := by
  cases r <;> simp [seenBefore, Except.map]

section Running

variable {loans : List Loan} {d d' d'' : Debugger} {p : Guarded α} {f : α → Guarded β} {a : α}
  {b : β} {seen seen' : List Sighting} {c : Cell}

/-- A program that is finished goes on with what follows. -/
theorem proceed_bind {m m' : Machine} (h : p.proceed m = .ok ⟨m', seen, .finished a⟩)
    (f : α → Guarded β) : (p.bind f).proceed m = seenBefore seen ((f a).proceed m') := by
  induction p generalizing m seen with
  | done result =>
    cases h
    exact (seenBefore_nil _).symm
  | panic | evaluate | display => cases h
  | share c next ih =>
    simp only [proceed] at h
    split at h
    · cases h
    · next hfree => simp only [bind, proceed, if_neg hfree, ih _ h]
  | hold c next ih =>
    simp only [proceed] at h
    split at h
    · cases h
    · next hfree => simp only [bind, proceed, if_neg hfree, ih _ h]
  | unshare c next ih =>
    simp only [proceed] at h
    split at h
    · next hlent => simp only [bind, proceed, if_pos hlent, ih h]
    · cases h
  | release c content next ih =>
    simp only [proceed] at h
    split at h
    · next hlent => simp only [bind, proceed, if_pos hlent, ih h]
    · cases h
  | newTable next ih => exact ih _ h
  | tell e next ih =>
    cases hnext : next.proceed m with
    | error =>
      simp only [proceed, hnext] at h
      cases h
    | ok progress =>
      obtain ⟨m₁, seen₁, standing⟩ := progress
      simp only [proceed, hnext] at h
      cases h
      rw [bind, proceed, ih hnext]
      exact seenBefore_seenBefore [⟨e, m.loans⟩] seen₁ _

theorem runs_done (loans : List Loan) (d : Debugger) (a : α) : Runs loans d (done a) a d [] := rfl

theorem Runs.bind (h : p.Runs loans d a d' seen) (hf : (f a).Runs loans d' b d'' seen') :
    (p.bind f).Runs loans d b d'' (seen ++ seen') := by
  have hbind := proceed_bind h f
  rw [hf] at hbind
  exact hbind

theorem runs_say (loans : List Loan) (d : Debugger) (events : List Event) :
    (say events).Runs loans d () d (sightings loans events) := by
  induction events with
  | nil => rfl
  | cons e rest ih =>
    have hnext : (say rest).proceed ⟨d, loans⟩ =
        .ok ⟨⟨d, loans⟩, sightings loans rest, .finished ()⟩ := ih
    simp only [Runs, say, List.foldr_cons, proceed]
    exact congrArg (seenBefore _) hnext

theorem Runs.andThen {xs ys : List Event} (h : p.Runs loans d a d' (sightings loans xs))
    (hf : (f a).Runs loans d' b d'' (sightings loans ys)) :
    (p.bind f).Runs loans d b d'' (sightings loans (xs ++ ys)) := by
  rw [sightings_append]
  exact h.bind hf

/-- Telling something first. -/
theorem Runs.saying {events : List Event} (h : p.Runs loans d a d' (sightings loans events))
    (earlier : List Event) :
    ((say earlier).bind fun _ => p).Runs loans d a d' (sightings loans (earlier ++ events)) :=
  (runs_say loans d earlier).andThen h

/-- Going on with what was found without doing anything more. -/
theorem Runs.map (h : p.Runs loans d a d' seen) (f : α → β) :
    (p.bind fun a => done (f a)).Runs loans d (f a) d' seen := by
  have hrun := h.bind (f := fun a => done (f a)) (runs_done loans d' (f a))
  rwa [List.append_nil] at hrun

/-- Looking at a cell that nobody changes. -/
theorem Runs.sharing {f : c.Content → Guarded α} (hfree : ⟨c, .exclusive⟩ ∉ loans)
    (h : (f (d.content c)).Runs (⟨c, .shared⟩ :: loans) d a d' seen) :
    (Guarded.sharing c f).Runs loans d a d' seen := by
  have hback : (unshare c (done a)).proceed ⟨d', ⟨c, .shared⟩ :: loans⟩ =
      .ok ⟨⟨d', loans⟩, [], .finished a⟩ := by
    simp only [proceed, List.mem_cons_self, if_true, List.erase_cons_head]
  have hbind := proceed_bind h fun a => unshare c (done a)
  rw [hback] at hbind
  simp only [Runs, Guarded.sharing, proceed, if_neg hfree, hbind]
  simp [seenBefore, Except.map]

/-- Changing a cell that nobody has. -/
theorem Runs.holding {f : c.Content → Guarded (α × c.Content)} {content : c.Content}
    (hfree : ∀ mode, ⟨c, mode⟩ ∉ loans)
    (h : (f (d.content c)).Runs (⟨c, .exclusive⟩ :: loans) d (a, content) d' seen)
    (hput : d'.put c content = d'') : (Guarded.holding c f).Runs loans d a d'' seen := by
  subst hput
  have hback : (release c content (done a)).proceed ⟨d', ⟨c, .exclusive⟩ :: loans⟩ =
      .ok ⟨⟨d'.put c content, loans⟩, [], .finished a⟩ := by
    simp only [proceed, List.mem_cons_self, if_true, List.erase_cons_head]
  have hbind := proceed_bind h fun result => release c result.2 (done result.1)
  rw [hback] at hbind
  have hnone : ¬((⟨c, .exclusive⟩ : Loan) ∈ loans ∨ (⟨c, .shared⟩ : Loan) ∈ loans) := by
    rintro (hin | hin) <;> exact hfree _ hin
  simp only [Runs, Guarded.holding, proceed, if_neg hnone, hbind]
  simp [seenBefore, Except.map]

/-- To change a cell while one looks at it is a conflict. -/
example (d : Debugger) :
    (Guarded.sharing .store fun _ => Guarded.holding .store fun st => done ((), st)).proceed
      ⟨d, []⟩ = .error (.conflict .store) := rfl

end Running

end Guarded

end Breakpoints

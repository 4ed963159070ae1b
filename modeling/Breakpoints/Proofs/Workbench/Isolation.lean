import Breakpoints.Proofs.Session.Hits
import Breakpoints.Proofs.Workbench

/-!
# What is done during a check does not reach it

While the guest answers a check, anything can be done with the session, also with the
breakpoint that is checked. The check goes by the texts which the breakpoint had at its
start, so all that reaches it is what the guest answers, and the number under which the
hit is counted. Once the hit is behind it, what a check shows in its turns is a function
of the answers alone (`seen_resumptions`). So two runs of a check in which the guest
answers the same cannot be told apart by what the check itself evaluates, prints and
answers, provided that the hit is counted alike (`check_isolated`).
-/

namespace Breakpoints

open Dialogue (Silent)

/-! ## What is seen of a turn -/

/-- What can be seen of an outcome: what was shown, and the answer if there is one. -/
structure Seen where
  events : List Event
  answer : Option Answer
  deriving DecidableEq, Repr

def Session.Outcome.seen (o : Session.Outcome) : Seen := ⟨o.events, o.answer⟩

namespace Dialogue

/-- A line is answered once its check is finished. -/
def Progress.seen (p : Progress Bool) : Seen where
  events := p.events
  answer :=
    match p.standing with
    | .finished pause => some (.line pause)
    | .waiting _ => none

variable {α : Type} {d : Dialogue α}

/-- The tables make no difference to what was shown, nor to what is left to do. -/
structure Progress.Same (p p' : Progress α) : Prop where
  events : p.events = p'.events
  standing : p.standing = p'.standing

theorem Progress.Same.after {p p' : Progress α} (h : p.Same p') (events : List Event) :
    (p.after events).Same (p'.after events) :=
  ⟨congrArg (events ++ ·) h.events, h.standing⟩

theorem Progress.Same.seen {p p' : Progress Bool} (h : p.Same p') : p.seen = p'.seen := by
  simp only [Progress.seen, h.events, h.standing]

/-- A dialogue that counts no hit does not look at the tables. -/
theorem OnlyShows.proceed_same (h : d.OnlyShows Silent) (id : TableId) (line : Nat)
    (ts ts' : Tables) : (d.proceed id line ts).Same (d.proceed id line ts') := by
  induction d with
  | done | evaluate | display => exact ⟨rfl, rfl⟩
  | hit next ih => cases h.1 id line 0
  | print channel text next ih => exact (ih h.2).after _
  | note notice next ih => exact (ih h.2).after _

/-- What a check that waits shows when it gets these answers, one after the other. -/
def Waiting.replay (place : Debugger.Place) : Waiting Bool → List Input → List Seen
  | _, [] => []
  | w, input :: rest =>
    match w.resumed? input with
    | none => []
    | some d =>
      let progress := d.proceed place.table place.line .none
      progress.seen :: match progress.standing with
        | .finished _ => []
        | .waiting w' => w'.replay place rest

/-- What a check shows that got this far and gets these answers next. -/
def Progress.replay (place : Debugger.Place) (p : Progress Bool) (inputs : List Input) :
    List Seen :=
  p.seen :: match p.standing with
    | .finished _ => []
    | .waiting w => w.replay place inputs

theorem Waiting.replay_cons {w : Waiting Bool} {input : Input} {d : Dialogue Bool}
    (h : w.resumed? input = some d) (place : Debugger.Place) (rest : List Input) :
    w.replay place (input :: rest) =
      (d.proceed place.table place.line .none).replay place rest := by
  simp only [Waiting.replay, h, Progress.replay]

theorem Progress.Same.replay {p p' : Progress Bool} (h : p.Same p') (place : Debugger.Place)
    (inputs : List Input) : p.replay place inputs = p'.replay place inputs := by
  simp only [Progress.replay, h.seen, h.standing]

end Dialogue

/-! ## Lists that are the same as far as both go -/

/-- The lists are the same as far as both go. -/
def SameSoFar {α : Type} (xs ys : List α) : Prop :=
  ∀ (n : Nat) (x y : α), xs[n]? = some x → ys[n]? = some y → x = y

section SameSoFar

variable {α : Type} {x y : α} {xs ys : List α}

theorem SameSoFar.of_eq (h : xs = ys) : SameSoFar xs ys := by
  subst h
  intro n x y hx hy
  exact Option.some.inj (hx.symm.trans hy)

theorem sameSoFar_nil_left (ys : List α) : SameSoFar [] ys := by
  intro n x y hx hy
  cases hx

theorem sameSoFar_nil_right (xs : List α) : SameSoFar xs [] := by
  intro n x y hx hy
  cases hy

theorem sameSoFar_cons : SameSoFar (x :: xs) (y :: ys) ↔ x = y ∧ SameSoFar xs ys := by
  constructor
  · intro h
    exact ⟨h 0 x y rfl rfl, fun n x y hx hy => h (n + 1) x y hx hy⟩
  · rintro ⟨rfl, h⟩ n
    cases n with
    | zero => exact fun x y hx hy => Option.some.inj (hx.symm.trans hy)
    | succ n => exact h n

end SameSoFar

/-- What was seen is the same as far as both go, and altogether once there is an answer
to both. -/
structure SeenAlike (xs ys : List Seen) : Prop where
  soFar : SameSoFar xs ys
  answered : (∃ x ∈ xs, x.answer.isSome) → (∃ y ∈ ys, y.answer.isSome) → xs = ys

theorem SeenAlike.refl (xs : List Seen) : SeenAlike xs xs := ⟨.of_eq rfl, fun _ _ => rfl⟩

theorem seenAlike_nil_left (ys : List Seen) : SeenAlike [] ys :=
  ⟨sameSoFar_nil_left ys, fun ⟨_, h, _⟩ => by cases h⟩

theorem seenAlike_nil_right (xs : List Seen) : SeenAlike xs [] :=
  ⟨sameSoFar_nil_right xs, fun _ ⟨_, h, _⟩ => by cases h⟩

/-- The same was seen before, which was not the answer. -/
theorem SeenAlike.cons {xs ys : List Seen} (h : SeenAlike xs ys) {seen : Seen}
    (hnone : seen.answer = none) : SeenAlike (seen :: xs) (seen :: ys) where
  soFar := sameSoFar_cons.2 ⟨rfl, h.soFar⟩
  answered := by
    have hlater {zs : List Seen} (hz : ∃ z ∈ seen :: zs, z.answer.isSome = true) :
        ∃ z ∈ zs, z.answer.isSome = true := by
      obtain ⟨z, hz, hanswer⟩ := hz
      rcases List.mem_cons.1 hz with rfl | hz
      · rw [hnone] at hanswer
        cases hanswer
      · exact ⟨z, hz, hanswer⟩
    intro hx hy
    rw [h.answered (hlater hx) (hlater hy)]

/-! ## The guest answers the same -/

def Input.evaluation? : Input → Option (Except Fault (List Value))
  | .evaluated outcome => some outcome
  | _ => none

def Input.display? : Input → Option (Except Fault String)
  | .displayed outcome => some outcome
  | _ => none

/-- The n-th evaluations come to the same for every n, and so do the n-th displays. -/
structure SameAnswers (xs ys : List Input) : Prop where
  evaluations : SameSoFar (xs.filterMap Input.evaluation?) (ys.filterMap Input.evaluation?)
  displays : SameSoFar (xs.filterMap Input.display?) (ys.filterMap Input.display?)

/-- A check that waits goes on in the same way. -/
theorem SameAnswers.resumed {x y : Input} {xs ys : List Input}
    (h : SameAnswers (x :: xs) (y :: ys)) {w : Dialogue.Waiting Bool} {d d' : Dialogue Bool}
    (hx : w.resumed? x = some d) (hy : w.resumed? y = some d') : d = d' ∧ SameAnswers xs ys := by
  cases w with
  | evaluation script next =>
    cases x with
    | evaluated outcome =>
      cases y with
      | evaluated outcome' =>
        obtain ⟨hsame, hrest⟩ := sameSoFar_cons.1 h.evaluations
        cases hx
        cases hy
        exact ⟨congrArg next hsame, hrest, h.displays⟩
      | _ => cases hy
    | _ => cases hx
  | display value next =>
    cases x with
    | displayed outcome =>
      cases y with
      | displayed outcome' =>
        obtain ⟨hsame, hrest⟩ := sameSoFar_cons.1 h.displays
        cases hx
        cases hy
        exact ⟨congrArg next hsame, h.evaluations, hrest⟩
      | _ => cases hy
    | _ => cases hx

/-- What shows the same while it waits does so from before. -/
theorem Dialogue.Progress.seenAlike_replay {place : Debugger.Place} {xs ys : List Input}
    (h : ∀ w : Dialogue.Waiting Bool, SeenAlike (w.replay place xs) (w.replay place ys))
    (p : Progress Bool) : SeenAlike (p.replay place xs) (p.replay place ys) := by
  unfold replay
  cases hstand : p.standing with
  | finished pause => exact .refl _
  | waiting w => exact (h w).cons (by simp only [seen, hstand])

theorem SameAnswers.replay {xs ys : List Input} (h : SameAnswers xs ys) (place : Debugger.Place)
    (w : Dialogue.Waiting Bool) : SeenAlike (w.replay place xs) (w.replay place ys) := by
  induction xs generalizing w ys with
  | nil => exact seenAlike_nil_left _
  | cons x xs ih =>
    cases ys with
    | nil => exact seenAlike_nil_right _
    | cons y ys =>
      cases hx : w.resumed? x with
      | none =>
        simp only [Dialogue.Waiting.replay, hx]
        exact seenAlike_nil_left _
      | some d =>
        cases hy : w.resumed? y with
        | none =>
          simp only [Dialogue.Waiting.replay, hy]
          exact seenAlike_nil_right _
        | some d' =>
          obtain ⟨rfl, hrest⟩ := h.resumed hx hy
          rw [Dialogue.Waiting.replay_cons hx, Dialogue.Waiting.replay_cons hy]
          exact Dialogue.Progress.seenAlike_replay (ih hrest) _

/-! ## The turns of a check -/

/-- A turn that a check takes: the session before it, and the answer that it takes up. -/
structure Resumption where
  session : Session
  input : Input

def Resumption.seen (t : Resumption) : Seen := (t.session.step t.input).seen

namespace Session

/-- The answer that the innermost check takes up. -/
def taken? (s : Session) : Request → Option Input
  | .tell input => if s.awaits input then some input else none
  | _ => none

/-- The turns that the check suspended above `depth` others takes until it is
finished. -/
def resumptions (depth : Nat) (s : Session) : List Request → List Resumption
  | [] => []
  | request :: rest =>
    if s.suspended.length ≤ depth then []
    else
      let later := (s.serve request).session.resumptions depth rest
      match s.taken? request with
      | some input => if s.suspended.length = depth + 1 then ⟨s, input⟩ :: later else later
      | none => later

/-- The turns that the check takes which a request starts. -/
def turnsOf (s : Session) (request : Request) (rest : List Request) : List Resumption :=
  (s.serve request).session.resumptions s.suspended.length rest

/-- What is seen of a request and of the turns of its check, leaving out whatever else
is done in between. -/
def seenOf (s : Session) (request : Request) (rest : List Request) : List Seen :=
  (s.serve request).seen :: (s.turnsOf request rest).map Resumption.seen

variable {s : Session} {request : Request} {check : SuspendedCheck}
  {inner outer : List SuspendedCheck} {d d' : Dialogue Bool} {debugger debugger' : Debugger}
  {place : Debugger.Place}

theorem seen_proceed (debugger : Debugger) (outer : List SuspendedCheck) (place : Debugger.Place)
    (d : Dialogue Bool) :
    (proceed debugger outer place d).seen =
      (d.proceed place.table place.line debugger.registry.tables).seen := by
  unfold Outcome.seen Dialogue.Progress.seen
  cases hstand : (d.proceed place.table place.line debugger.registry.tables).standing with
  | finished pause => rw [proceed_of_finished hstand]
  | waiting w => rw [proceed_of_waiting hstand]

theorem taken?_eq_some {input : Input} :
    s.taken? request = some input ↔ request = .tell input ∧ s.awaits input = true := by
  cases request with
  | tell told =>
    simp only [taken?, Option.ite_none_right_eq_some, Option.some.injEq, Request.tell.injEq]
    constructor
    · rintro ⟨hawaits, rfl⟩
      exact ⟨rfl, hawaits⟩
    · rintro ⟨rfl, hawaits⟩
      exact ⟨hawaits, rfl⟩
  | _ => simp [taken?]

/-- Whatever is not an answer to the check itself leaves it suspended. -/
theorem suspended_serve_of_nested (hs : s.suspended = inner ++ check :: outer)
    (h : inner = [] → s.taken? request = none) :
    ∃ inner', (s.serve request).session.suspended = inner' ++ check :: outer := by
  cases request with
  | tell input =>
    refine suspended_step_of_nested hs fun hinner => ?_
    cases hawaits : s.awaits input with
    | false => rfl
    | true =>
      rw [taken?_eq_some.2 ⟨rfl, hawaits⟩] at h
      cases h hinner
  | add | clearSource | clear | lookup => exact ⟨inner, hs⟩
  | check channel table line =>
    rcases suspended_proceed s.debugger s.suspended ⟨table, line⟩
      (s.debugger.registry.check channel table line) with ⟨waiting, -, hp⟩ | hp
    · exact ⟨⟨⟨table, line⟩, waiting⟩ :: inner, by rw [serve, hp, hs]; rfl⟩
    · exact ⟨inner, by rw [serve, hp, hs]⟩

theorem resumptions_of_finished {depth : Nat} (h : s.suspended.length ≤ depth)
    (requests : List Request) : s.resumptions depth requests = [] := by
  cases requests with
  | nil => rfl
  | cons request rest => simp only [resumptions, if_pos h]

/-- The next request is an answer to the check, or the check stays as it is. -/
theorem resumptions_cons (hs : s.suspended = inner ++ check :: outer) (request : Request)
    (rest : List Request) :
    (∃ input d, check.waiting.resumed? input = some d ∧
      s.step input = proceed s.debugger outer check.place d ∧
      s.resumptions outer.length (request :: rest) =
        ⟨s, input⟩ ::
          (proceed s.debugger outer check.place d).session.resumptions outer.length rest) ∨
    ((∃ inner', (s.serve request).session.suspended = inner' ++ check :: outer) ∧
      s.resumptions outer.length (request :: rest) =
        (s.serve request).session.resumptions outer.length rest) := by
  have hlength : s.suspended.length = inner.length + (outer.length + 1) := by simp [hs]
  have hdeep : ¬s.suspended.length ≤ outer.length := by omega
  by_cases hown : inner = [] ∧ ∃ input, s.taken? request = some input
  · obtain ⟨rfl, input, htaken⟩ := hown
    have hs : s.suspended = check :: outer := hs
    obtain ⟨rfl, hawaits⟩ := taken?_eq_some.1 htaken
    have hresumed := hawaits
    rw [awaits_cons hs, Option.isSome_iff_exists] at hresumed
    obtain ⟨d, hd⟩ := hresumed
    have hstep := step_of_resumed hs hd
    refine .inl ⟨input, d, hd, hstep, ?_⟩
    rw [← hstep, resumptions, if_neg hdeep]
    simp only [htaken, hs, List.length_cons, if_true]
    rfl
  · refine .inr ⟨suspended_serve_of_nested hs fun hinner => ?_, ?_⟩
    · rw [Option.eq_none_iff_forall_ne_some]
      exact fun input htaken => hown ⟨hinner, input, htaken⟩
    · rw [resumptions, if_neg hdeep]
      cases htaken : s.taken? request with
      | none => rfl
      | some input =>
        have hinner : inner ≠ [] := fun hinner => hown ⟨hinner, input, htaken⟩
        have hpos := List.length_pos_iff.2 hinner
        dsimp only
        rw [if_neg (by omega)]

/-- A check that is suspended takes no turn any more, or the next one when it gets what
it waits for. -/
theorem resumptions_eq (hs : s.suspended = inner ++ check :: outer) (requests : List Request) :
    s.resumptions outer.length requests = [] ∨
      ∃ s' input d rest, check.waiting.resumed? input = some d ∧
        s'.step input = proceed s'.debugger outer check.place d ∧
        s.resumptions outer.length requests =
          ⟨s', input⟩ ::
            (proceed s'.debugger outer check.place d).session.resumptions outer.length rest := by
  induction requests generalizing s inner with
  | nil => exact .inl rfl
  | cons request rest ih =>
    rcases resumptions_cons hs request rest with
      ⟨input, d, hd, hstep, hturns⟩ | ⟨⟨inner', hs'⟩, hturns⟩
    · exact .inr ⟨s, input, d, rest, hd, hstep, hturns⟩
    · rw [hturns]
      exact ih hs'

/-- What is seen of a check that goes on with a dialogue, from there on. -/
def seenFrom (debugger : Debugger) (outer : List SuspendedCheck) (place : Debugger.Place)
    (d : Dialogue Bool) (requests : List Request) : List Seen :=
  (proceed debugger outer place d).seen ::
    ((proceed debugger outer place d).session.resumptions outer.length requests).map Resumption.seen

/-- The answers that it gets. -/
def answersTo (debugger : Debugger) (outer : List SuspendedCheck) (place : Debugger.Place)
    (d : Dialogue Bool) (requests : List Request) : List Input :=
  ((proceed debugger outer place d).session.resumptions outer.length requests).map Resumption.input

/-- If what a check waits with can be replayed, so can all of it. -/
theorem seenFrom_eq_replay {requests : List Request}
    (h : ∀ w, (d.proceed place.table place.line debugger.registry.tables).standing = .waiting w →
      ∀ {s : Session} {inner : List SuspendedCheck},
        s.suspended = inner ++ ⟨place, w⟩ :: outer →
        (s.resumptions outer.length requests).map Resumption.seen =
          w.replay place ((s.resumptions outer.length requests).map Resumption.input)) :
    seenFrom debugger outer place d requests =
      (d.proceed place.table place.line debugger.registry.tables).replay place
        (answersTo debugger outer place d requests) := by
  unfold seenFrom answersTo Dialogue.Progress.replay
  rw [seen_proceed]
  cases hstand : (d.proceed place.table place.line debugger.registry.tables).standing with
  | finished pause =>
    have hs : (proceed debugger outer place d).session.suspended.length ≤ outer.length := by
      rw [proceed_of_finished hstand]
    rw [resumptions_of_finished hs]
    rfl
  | waiting w =>
    have hs : (proceed debugger outer place d).session.suspended = [] ++ ⟨place, w⟩ :: outer := by
      rw [proceed_of_waiting hstand]
      rfl
    rw [h w hstand hs]

/-- **What a check shows after its hit** is a function of the answers that it gets. -/
theorem seen_resumptions (hs : s.suspended = inner ++ check :: outer)
    (hw : check.waiting.OnlyShows Silent) (requests : List Request) :
    (s.resumptions outer.length requests).map Resumption.seen =
      check.waiting.replay check.place
        ((s.resumptions outer.length requests).map Resumption.input) := by
  induction requests generalizing s inner check with
  | nil => rfl
  | cons request rest ih =>
    rcases resumptions_cons hs request rest with
      ⟨input, d, hd, hstep, hturns⟩ | ⟨⟨inner', hs'⟩, hturns⟩
    · have hsilent := Dialogue.Waiting.OnlyShows.resumed hw hd
      have hsame := hsilent.proceed_same check.place.table check.place.line
        s.debugger.registry.tables .none
      have hreplay : seenFrom s.debugger outer check.place d rest = _ :=
        seenFrom_eq_replay fun w hstand _ _ hs' => ih hs' (hsilent.next hstand)
      rw [hturns, List.map_cons, List.map_cons, Dialogue.Waiting.replay_cons hd,
        ← hsame.replay, Resumption.seen, hstep]
      exact hreplay
    · rw [hturns]
      exact ih hs' hw

/-- Two checks that go on alike, and have their hits behind them, are seen alike from
there on. -/
theorem seenAlike_seenFrom
    (hsame : (d.proceed place.table place.line debugger.registry.tables).Same
      (d'.proceed place.table place.line debugger'.registry.tables))
    (hsilent : ∀ w, (d.proceed place.table place.line debugger.registry.tables).standing =
      .waiting w → w.OnlyShows Silent) {rest rest' : List Request}
    (h : SameAnswers (answersTo debugger outer place d rest)
      (answersTo debugger' outer place d' rest')) :
    SeenAlike (seenFrom debugger outer place d rest) (seenFrom debugger' outer place d' rest') := by
  have hreplay : seenFrom debugger outer place d rest = _ :=
    seenFrom_eq_replay fun w hstand _ _ hs => seen_resumptions hs (hsilent w hstand) rest
  have hreplay' : seenFrom debugger' outer place d' rest' = _ :=
    seenFrom_eq_replay fun w hstand _ _ hs =>
      seen_resumptions hs (hsilent w (hsame.standing.trans hstand)) rest'
  rw [hreplay, hreplay', ← hsame.replay]
  exact Dialogue.Progress.seenAlike_replay (h.replay place) _

end Session

/-! ## Counting the hit -/

/-- The number of a hit follows the last one. -/
theorem Dialogue.fst_countHit (id : TableId) (line : Nat) (ts : Tables) :
    (countHit id line ts).1 =
      ((ts.get id).hits? line).map fun hits => min (hits + 1) Breakpoint.maxHits := by
  simp only [countHit, Table.recordHit?, Table.hits?]
  cases (ts.get id).get? line <;> rfl

/-- Nothing but the number of the hit at the place reaches the dialogue, and once it has
handed over control there is no hit left to count. -/
def Dialogue.CountsAtOnce (place : Debugger.Place) (d : Dialogue Bool) : Prop :=
  ∀ ts ts' : Tables,
    (ts.get place.table).hits? place.line = (ts'.get place.table).hits? place.line →
    (d.proceed place.table place.line ts).Same (d.proceed place.table place.line ts') ∧
      ∀ w, (d.proceed place.table place.line ts).standing = .waiting w → w.OnlyShows Silent

theorem Dialogue.OnlyShows.countsAtOnce {d : Dialogue Bool} (h : d.OnlyShows Silent)
    (place : Debugger.Place) : d.CountsAtOnce place :=
  fun _ _ _ => ⟨h.proceed_same .., fun _ hw => h.next hw⟩

namespace Breakpoint

/-- Once its condition is known to hold or not, a check goes by the number of its hit. -/
theorem countsAtOnce_checkOnceHeld (channel : Channel) (place : Debugger.Place) (b : Breakpoint)
    (held : Bool) : (b.checkOnceHeld channel place.line held).CountsAtOnce place := by
  cases held with
  | false =>
    have hdone : Dialogue.OnlyShows Silent (.done false : Dialogue Bool) := trivial
    exact hdone.countsAtOnce place
  | true =>
    intro ts ts' h
    have hcount : (Dialogue.countHit place.table place.line ts).1 =
        (Dialogue.countHit place.table place.line ts').1 := by
      rw [Dialogue.fst_countHit, Dialogue.fst_countHit, h]
    simp only [checkOnceHeld, Dialogue.proceed, ← hcount]
    cases (Dialogue.countHit place.table place.line ts).1 with
    | none =>
      have hsilent : Dialogue.OnlyShows Silent
          (.note (.removedMeanwhile place.line) (.done false) : Dialogue Bool) := ⟨rfl, trivial⟩
      exact ⟨(hsilent.proceed_same ..).after _, fun w hw => hsilent.next hw⟩
    | some hits =>
      have hsilent := b.onlyShows_checkHit channel place.line hits
      exact ⟨(hsilent.proceed_same ..).after _, fun w hw => hsilent.next hw⟩

/-- A condition that failed does not hold. -/
theorem countsAtOnce_checkOnceEvaluated (channel : Channel) (place : Debugger.Place)
    (b : Breakpoint) (condition : String) (outcome : Except Fault (List Value)) :
    (b.checkOnceEvaluated channel place.line condition outcome).CountsAtOnce place := by
  cases outcome with
  | ok values => exact countsAtOnce_checkOnceHeld channel place b _
  | error fault =>
    have hsilent : Dialogue.OnlyShows Silent
        (.note (.predicateFailed condition fault) (.done false)) := ⟨rfl, trivial⟩
    exact hsilent.countsAtOnce place

end Breakpoint

/-! ## The check of a breakpoint -/

namespace Session

variable {s : Session} {channel : Channel} {table : TableId} {line : Nat} {b : Breakpoint}

/-- How often the breakpoint at a line of a table was hit. -/
def hitsAt? (s : Session) (table : TableId) (line : Nat) : Option Nat :=
  (s.debugger.registry.tables.get table).hits? line

/-- There is nothing to check, or the breakpoint that the table holds. -/
theorem serve_check (s : Session) (channel : Channel) (table : TableId) (line : Nat) :
    s.serve (.check channel table line) = ⟨s, [], some (.line false)⟩ ∨
      ∃ b, (s.debugger.registry.tables.get table).get? line = some b ∧
        s.serve (.check channel table line) =
          proceed s.debugger s.suspended ⟨table, line⟩ (b.check channel line) := by
  simp only [serve, Registry.check, Table.check]
  split
  · cases hb : (s.debugger.registry.tables.get table).get? line with
    | none => exact .inl (proceed_done ..)
    | some b => exact .inr ⟨b, rfl, rfl⟩
  · exact .inl (proceed_done ..)

/-- Two runs in which a check goes by nothing but the number of its hit when it is
resumed. -/
theorem seenAlike_resumptions {s s' : Session} {check : SuspendedCheck}
    {inner inner' outer : List SuspendedCheck} (hs : s.suspended = inner ++ check :: outer)
    (hs' : s'.suspended = inner' ++ check :: outer)
    (hresumed : ∀ input d, check.waiting.resumed? input = some d → d.CountsAtOnce check.place)
    {rest rest' : List Request}
    (hanswers : SameAnswers ((s.resumptions outer.length rest).map Resumption.input)
      ((s'.resumptions outer.length rest').map Resumption.input))
    (hhits : ∀ t t', (s.resumptions outer.length rest).head? = some t →
      (s'.resumptions outer.length rest').head? = some t' →
      t.session.hitsAt? check.place.table check.place.line =
        t'.session.hitsAt? check.place.table check.place.line) :
    SeenAlike ((s.resumptions outer.length rest).map Resumption.seen)
      ((s'.resumptions outer.length rest').map Resumption.seen) := by
  rcases resumptions_eq hs rest with hnone | ⟨s₁, x, d, later, hx, hstep, hturns⟩
  · rw [hnone]
    exact seenAlike_nil_left _
  rcases resumptions_eq hs' rest' with hnone' | ⟨s₂, y, d', later', hy, hstep', hturns'⟩
  · rw [hnone']
    exact seenAlike_nil_right _
  rw [hturns, hturns'] at hanswers hhits ⊢
  obtain ⟨rfl, hlater⟩ := hanswers.resumed hx hy
  obtain ⟨hsame, hsilent⟩ := hresumed x d hx _ _ (hhits _ _ rfl rfl)
  have halike := seenAlike_seenFrom hsame hsilent hlater
  rw [List.map_cons, List.map_cons, Resumption.seen, hstep, Resumption.seen, hstep']
  exact halike

/-- **What is done during a check does not reach it.** Take two runs of the check of a
line that start in the same session. If the guest answers the check itself the same in
both, then the check evaluates the same scripts, has the same values displayed, prints
the same and answers the same, whatever else is done during the runs. Only if the
breakpoint has a condition do the runs have to agree on something else: once the
condition has been evaluated, the table must hold a breakpoint at the line that was hit
as often in both, or must hold none in either. -/
theorem check_isolated (s : Session) (channel : Channel) (table : TableId) (line : Nat)
    (rest rest' : List Request)
    (hanswers : SameAnswers ((s.turnsOf (.check channel table line) rest).map Resumption.input)
      ((s.turnsOf (.check channel table line) rest').map Resumption.input))
    (hhits : ∀ b condition, (s.debugger.registry.tables.get table).get? line = some b →
      b.condition = some condition →
      ∀ t t', (s.turnsOf (.check channel table line) rest).head? = some t →
        (s.turnsOf (.check channel table line) rest').head? = some t' →
        t.session.hitsAt? table line = t'.session.hitsAt? table line) :
    SeenAlike (s.seenOf (.check channel table line) rest)
      (s.seenOf (.check channel table line) rest') := by
  unfold seenOf
  unfold turnsOf at hanswers hhits ⊢
  rcases s.serve_check channel table line with hserve | ⟨b, hb, hserve⟩
  · simp only [hserve, resumptions_of_finished (Nat.le_refl _), List.map_nil]
    exact .refl _
  rw [hserve] at hanswers hhits ⊢
  cases hcondition : b.condition with
  | none =>
    have hcounts := b.countsAtOnce_checkOnceHeld channel ⟨table, line⟩ true
    obtain ⟨hsame, hsilent⟩ := hcounts s.debugger.registry.tables s.debugger.registry.tables rfl
    rw [Breakpoint.check_of_unconditional channel hcondition] at hanswers ⊢
    exact seenAlike_seenFrom hsame hsilent hanswers
  | some condition =>
    rw [Breakpoint.check_of_conditional channel hcondition] at hanswers hhits ⊢
    have hsuspended : (proceed s.debugger s.suspended ⟨table, line⟩
        (.evaluate (Template.script condition)
          (b.checkOnceEvaluated channel line condition))).session.suspended =
        [] ++ ⟨⟨table, line⟩, .evaluation (Template.script condition)
          (b.checkOnceEvaluated channel line condition)⟩ :: s.suspended := rfl
    refine SeenAlike.cons (seenAlike_resumptions hsuspended hsuspended ?_ hanswers
      (hhits b condition hb hcondition)) rfl
    intro input d hd
    cases input with
    | evaluated outcome =>
      cases hd
      exact b.countsAtOnce_checkOnceEvaluated channel ⟨table, line⟩ condition outcome
    | _ => cases hd

/-- In one run the breakpoint is replaced while its condition is evaluated, and the line
is reached again; in the other all breakpoints go away once the hit is counted. -/
theorem check_isolated_replaced :
    let s := (new {} chunkPath).served
      [.add (fun _ => true) (.path "a") 3 { condition := some "x", logMessage := some "y={y}" }]
    let call : Request := .check .console ⟨0⟩ 3
    let held : Request := .tell (.evaluated (.ok [.boolean true]))
    let shown : List Request := [.tell (.evaluated (.ok [.integer 1])), .tell (.displayed (.ok "1"))]
    let rest := [.add (fun _ => true) (.path "a") 3 { condition := some "z" }, call,
      .tell (.evaluated (.ok [])), held] ++ shown
    let rest' := [held, .clear] ++ shown
    (∃ b, (s.debugger.registry.tables.get ⟨0⟩).get? 3 = some b ∧ b.condition = some "x") ∧
      SameAnswers ((s.turnsOf call rest).map Resumption.input)
        ((s.turnsOf call rest').map Resumption.input) ∧
      (s.turnsOf call rest).head?.map (·.session.hitsAt? ⟨0⟩ 3) = some (some 0) ∧
      (s.turnsOf call rest').head?.map (·.session.hitsAt? ⟨0⟩ 3) = some (some 0) ∧
      SeenAlike (s.seenOf call rest) (s.seenOf call rest') := by
  intro s call held shown rest rest'
  have hanswers : SameAnswers ((s.turnsOf call rest).map Resumption.input)
      ((s.turnsOf call rest').map Resumption.input) := by
    have hevaluations : ((s.turnsOf call rest).map Resumption.input).filterMap Input.evaluation? =
        ((s.turnsOf call rest').map Resumption.input).filterMap Input.evaluation? := by
      decide +kernel
    have hdisplays : ((s.turnsOf call rest).map Resumption.input).filterMap Input.display? =
        ((s.turnsOf call rest').map Resumption.input).filterMap Input.display? := by
      decide +kernel
    exact ⟨.of_eq hevaluations, .of_eq hdisplays⟩
  have hhits : (s.turnsOf call rest).head?.map (·.session.hitsAt? ⟨0⟩ 3) = some (some 0) := by
    decide +kernel
  have hhits' : (s.turnsOf call rest').head?.map (·.session.hitsAt? ⟨0⟩ 3) = some (some 0) := by
    decide +kernel
  refine ⟨⟨_, rfl, rfl⟩, hanswers, hhits, hhits',
    check_isolated s .console ⟨0⟩ 3 rest rest' hanswers ?_⟩
  intro b condition _ _ t t' ht ht'
  rw [ht, Option.map_some, Option.some_inj] at hhits
  rw [ht', Option.map_some, Option.some_inj] at hhits'
  exact hhits.trans hhits'.symm

end Session

end Breakpoints

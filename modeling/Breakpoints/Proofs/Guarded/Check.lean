import Breakpoints.LineCheck
import Breakpoints.Proofs.Guarded.Scanner
import Breakpoints.Proofs.Guarded.Store

/-!
# Checking a line with nothing lent

The check of a line takes the store, and then the table, for a moment each, and looks no
more at either but to count the hit. A dialogue is read as a program that holds the table
while it counts a hit (`Dialogue.guarded`), and what follows once the breakpoint was found
is that program for the breakpoint's own dialogue (`checkBreakpoint_eq`). Such a program
never panics, and nothing is lent when the guest has control (`proceed_guarded`).
-/

namespace Breakpoints

namespace Guarded

/-- Counts a hit of the breakpoint at a line of a table. -/
def recordHit (id : TableId) (line : Nat) : Guarded (Option Nat) := do
  let hits? ← update id fun t =>
    match t.recordHit? line with
    | none => (none, t)
    | some (hits, t') => (some hits, t')
  say (Dialogue.hitEvents id line hits?)
  return hits?

end Guarded

open Guarded (NoTable sightings recordHit)

theorem Tables.set_get_self (ts : Tables) (id : TableId) : ts.set id (ts.get id) = ts := by
  obtain ⟨cells⟩ := ts
  simp only [set, get, Tables.mk.injEq]
  apply List.ext_getElem?
  intro i
  rw [List.getElem?_set]
  split
  · next hi =>
    subst hi
    split
    · next hlt => simp [List.getElem?_eq_getElem hlt]
    · next hle => simp [List.getElem?_eq_none (Nat.le_of_not_lt hle)]
  · rfl

theorem Guarded.runs_recordHit {loans : List Loan} (hL : NoTable loans) (d : Debugger)
    (id : TableId) (line : Nat) :
    let counted := Dialogue.countHit id line d.registry.tables
    (recordHit id line).Runs loans d counted.1 (d.withTables counted.2)
      (sightings loans (Dialogue.hitEvents id line counted.1)) := by
  have hupdate := runs_update hL d id fun t =>
    match t.recordHit? line with
    | none => (none, t)
    | some (hits, t') => (some hits, t')
  simp only [Dialogue.countHit]
  cases hhit : (d.registry.tables.get id).recordHit? line with
  | none =>
    simp only [hhit, Tables.set_get_self] at hupdate
    exact hupdate.bind ((runs_say ..).bind (runs_done ..))
  | some hit =>
    simp only [hhit] at hupdate
    exact hupdate.bind ((runs_say ..).bind (runs_done ..))

namespace Dialogue

variable {α β : Type} {id : TableId} {line : Nat}

/-- A dialogue as a program, which holds the table while it counts a hit. -/
def guarded (id : TableId) (line : Nat) : Dialogue α → Guarded α
  | done result => .done result
  | evaluate script next => .evaluate script fun outcome => (next outcome).guarded id line
  | display value next => .display value fun outcome => (next outcome).guarded id line
  | hit next => (recordHit id line).bind fun hits? => (next hits?).guarded id line
  | print channel text next => .tell (.printed channel text) (next.guarded id line)
  | note notice next => .tell (.noted notice) (next.guarded id line)

theorem guarded_bind (d : Dialogue α) (f : α → Dialogue β) :
    (d.bind f).guarded id line = (d.guarded id line).bind fun a => (f a).guarded id line := by
  induction d with
  | done => rfl
  | evaluate script next ih => exact congrArg _ (funext ih)
  | display value next ih => exact congrArg _ (funext ih)
  | hit next ih =>
    simp only [bind, guarded, Guarded.bind_assoc]
    exact congrArg _ (funext ih)
  | print channel text next ih => exact congrArg _ ih
  | note notice next ih => exact congrArg _ ih

def Waiting.guarded (id : TableId) (line : Nat) : Waiting α → Guarded.Waiting α
  | .evaluation script next => .evaluation script fun outcome => (next outcome).guarded id line
  | .display value next => .display value fun outcome => (next outcome).guarded id line

def Standing.guarded (id : TableId) (line : Nat) : Standing α → Guarded.Standing α
  | .finished result => .finished result
  | .waiting w => .waiting (w.guarded id line)

/-- **A dialogue never panics**, and whatever is seen of it, nothing is lent at that moment. -/
theorem proceed_guarded (d : Dialogue α) (debugger : Debugger) :
    let progress := d.proceed id line debugger.registry.tables
    (d.guarded id line).proceed ⟨debugger, []⟩ =
      .ok ⟨⟨debugger.withTables progress.tables, []⟩, sightings [] progress.events,
        progress.standing.guarded id line⟩ := by
  induction d generalizing debugger with
  | done | evaluate | display => rfl
  | hit next ih =>
    have hrun := Guarded.runs_recordHit Guarded.noTable_nil debugger id line
    rw [guarded, Guarded.proceed_bind hrun, ih]
    simp [Guarded.seenBefore, Except.map, proceed, Progress.after, Debugger.withTables]
  | print channel text next ih | note notice next ih =>
    rw [guarded, Guarded.proceed, ih]
    rfl

end Dialogue

namespace Guarded

/-! ## The check as a program -/

/-- Whether an expression holds. -/
def holds (expression : String) : Guarded Bool :=
  evaluate (Template.script expression) fun
    | .ok values => done (values.head?.any Value.isTrue)
    | .error fault => tell (.noted (.predicateFailed expression fault)) (done false)

def holdsIfAny : Option String → Guarded Bool
  | none => done true
  | some expression => holds expression

/-- Renders what a scanner still finds after some text. -/
def renderFrom (text : String) (s : Template.Scanner) : Guarded (Except RenderError String) :=
  match _ : s.next? with
  | .error p => panic p
  | .ok none => done (.ok text)
  | .ok (some (.blank offset, _)) => done (.error (.blankExpression offset))
  | .ok (some (.literal more, s')) => renderFrom (text ++ more) s'
  | .ok (some (.expression source _, s')) =>
    evaluate (Template.script source) fun
      | .error fault => done (.error (.fault fault))
      | .ok [] => done (.error (.fault (.noValue source)))
      | .ok (value :: _) =>
        display value fun
          | .error fault => done (.error (.fault fault))
          | .ok shown => renderFrom (text ++ shown) s'
termination_by s.weight
decreasing_by all_goals exact Template.Scanner.weight_next?_lt ‹_›

def printMessage (channel : Channel) (line : Nat) (template : String) : Guarded Unit := do
  match ← renderFrom "" (.start template) with
  | .ok text => say [.printed channel text]
  | .error error => say [.noted (.messageFailed line error), .printed channel error.message]

/-- Goes on after the hit of that number. -/
def checkHit (channel : Channel) (line : Nat) (b : Breakpoint) (hits : Nat) : Guarded Bool := do
  if ← holdsIfAny (b.hitCondition.map (Breakpoint.hitExpression hits)) then
    match b.logMessage with
    | none => return true
    | some template =>
      printMessage channel line template
      return false
  else return false

/-- Checks a copy of a breakpoint, which may be removed meanwhile. -/
def checkBreakpoint (channel : Channel) (id : TableId) (line : Nat) (b : Breakpoint) :
    Guarded Bool := do
  if ← holdsIfAny b.condition then
    match ← recordHit id line with
    | none =>
      say [.noted (.removedMeanwhile line)]
      return false
    | some hits => checkHit channel line b hits
  else return false

/-- Whether any source may have a breakpoint at a line. -/
def admits (line : Nat) : Guarded Bool := sharing .store fun st => done (st.counts.admits line)

/-- Checks a line of a table. -/
def check (channel : Channel) (id : TableId) (line : Nat) : Guarded Bool := do
  if ← admits line then
    match ← ask id fun t => t.get? line with
    | none => return false
    | some b => checkBreakpoint channel id line b
  else return false

variable (id : TableId) (line : Nat)

theorem holds_eq (expression : String) :
    holds expression = (Dialogue.holds expression).guarded id line := by
  refine congrArg _ (funext fun outcome => ?_)
  cases outcome <;> rfl

theorem holdsIfAny_eq (expression? : Option String) :
    holdsIfAny expression? = (Dialogue.holdsIfAny expression?).guarded id line := by
  cases expression? with
  | none => rfl
  | some expression => exact holds_eq id line expression

section Rendering

open Template (Scanner Cursor renderPieces)

variable {s s' : Scanner} {text : String}

theorem renderFrom_of_end (h : s.next? = .ok none) : renderFrom text s = done (.ok text) := by
  rw [renderFrom]
  split <;> simp_all

theorem renderFrom_of_blank {offset : Nat} (h : s.next? = .ok (some (.blank offset, s'))) :
    renderFrom text s = done (.error (.blankExpression offset)) := by
  rw [renderFrom]
  split <;> simp_all

theorem renderFrom_of_literal {more : String} (h : s.next? = .ok (some (.literal more, s'))) :
    renderFrom text s = renderFrom (text ++ more) s' := by
  rw [renderFrom]
  split <;> simp_all

theorem renderFrom_of_expression {source : String} {offset : Nat}
    (h : s.next? = .ok (some (.expression source offset, s'))) :
    renderFrom text s = evaluate (Template.script source) fun
      | .error fault => done (.error (.fault fault))
      | .ok [] => done (.error (.fault (.noValue source)))
      | .ok (value :: _) =>
        display value fun
          | .error fault => done (.error (.fault fault))
          | .ok shown => renderFrom (text ++ shown) s' := by
  rw [renderFrom]
  split <;> simp_all

/-- Rendering what the scanner finds is rendering the pieces of the cursor that it reads like. -/
theorem renderFrom_eq {c : Cursor} (h : s.Reads c) (text : String) :
    renderFrom text s = (renderPieces text c.pieces).guarded id line := by
  induction hn : s.weight using Nat.strong_induction_on generalizing s c text with
  | _ n ih =>
    subst hn
    rcases h.next? with ⟨hc, hs⟩ | ⟨piece, c', s', hc, hs, hreads⟩
    · rw [renderFrom_of_end hs, Cursor.pieces_of_next?_eq_none hc]
      rfl
    · have hrest (text : String) :
          renderFrom text s' = (renderPieces text c'.pieces).guarded id line :=
        ih s'.weight (Scanner.weight_next?_lt hs) hreads text rfl
      rw [Cursor.pieces_of_next? hc]
      cases piece with
      | blank offset =>
        rw [renderFrom_of_blank hs]
        rfl
      | literal more =>
        rw [renderFrom_of_literal hs, hrest]
        rfl
      | expression source offset =>
        rw [renderFrom_of_expression hs]
        refine congrArg _ (funext fun outcome => ?_)
        rcases outcome with fault | (_ | ⟨value, values⟩)
        · rfl
        · rfl
        · refine congrArg (display value) (funext fun shown => ?_)
          cases shown with
          | error => rfl
          | ok shown => exact hrest (text ++ shown)

end Rendering

theorem printMessage_eq (channel : Channel) (template : String) :
    printMessage channel line template =
      (Breakpoint.printMessage channel line template).guarded id line := by
  rw [printMessage, renderFrom_eq id line (Template.Scanner.reads_start template) "",
    Breakpoint.printMessage, Dialogue.guarded_bind]
  refine congrArg _ (funext fun rendered => ?_)
  cases rendered <;> rfl

theorem checkHit_eq (channel : Channel) (b : Breakpoint) (hits : Nat) :
    checkHit channel line b hits = (b.checkHit channel line hits).guarded id line := by
  rw [checkHit, Breakpoint.checkHit, Dialogue.guarded_bind, holdsIfAny_eq id line]
  refine congrArg _ (funext fun held => ?_)
  cases held with
  | false => rfl
  | true =>
    cases b.logMessage with
    | none => rfl
    | some template =>
      simp only [if_true, printMessage_eq id line, Dialogue.guarded_bind]
      rfl

/-- **Checking a breakpoint** is the dialogue of the breakpoint. -/
theorem checkBreakpoint_eq (channel : Channel) (b : Breakpoint) :
    checkBreakpoint channel id line b = (b.check channel line).guarded id line := by
  rw [checkBreakpoint, holdsIfAny_eq id line, Breakpoint.check, Dialogue.guarded_bind]
  refine congrArg _ (funext fun held => ?_)
  cases held with
  | false => rfl
  | true =>
    refine congrArg (Guarded.bind (recordHit id line)) (funext fun hits? => ?_)
    cases hits? with
    | none => rfl
    | some hits => exact checkHit_eq id line channel b hits

theorem runs_admits {loans : List Loan} (hL : ⟨.store, .exclusive⟩ ∉ loans) (d : Debugger)
    (line : Nat) : (admits line).Runs loans d (d.registry.admits line) d [] :=
  Runs.sharing hL (runs_done ..)

/-- **Checking a line** comes to what the registry's own check comes to. -/
theorem proceed_check (channel : Channel) (d : Debugger) (id : TableId) (line : Nat) :
    let progress := (d.registry.check channel id line).proceed id line d.registry.tables
    (check channel id line).proceed ⟨d, []⟩ =
      .ok ⟨⟨d.withTables progress.tables, []⟩, sightings [] progress.events,
        progress.standing.guarded id line⟩ := by
  have hfree : (⟨.store, .exclusive⟩ : Loan) ∉ [] := List.not_mem_nil
  have hadmits := runs_admits hfree d line
  have hask := runs_ask noTable_nil d id fun t => t.get? line
  simp only [check, bind_eq]
  rw [proceed_bind hadmits, Registry.check]
  cases d.registry.admits line with
  | false => rfl
  | true =>
    simp only [if_true, Table.check]
    rw [proceed_bind hask]
    cases (d.registry.tables.get id).get? line with
    | none => rfl
    | some b =>
      simp only [checkBreakpoint_eq id line, seenBefore_nil]
      exact Dialogue.proceed_guarded ..

end Guarded

end Breakpoints

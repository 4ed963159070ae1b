import Breakpoints.Breakpoint
import Breakpoints.Document

/-!
# Definitions as documents

Reading takes missing and null texts for absent. Writing leaves absent texts out
and keeps empty ones, so what was written is read back unchanged
(`ofDocument?_toDocument`).
-/

namespace Breakpoints.Definition

def ofDocument? (d : Document) : Option Definition :=
  match d.fields? ["condition", "hitCondition", "logMessage"] with
  | some [condition, hitCondition, logMessage] => do
    let text := Document.orDefault none Document.textOrNull?
    return ⟨← text condition, ← text hitCondition, ← text logMessage⟩
  | _ => none

/-- A field for a text, unless it is absent. -/
def textField (name : String) : Option String → List (String × Document)
  | none => []
  | some text => [(name, .text text)]

def toDocument (d : Definition) : Document :=
  .object (textField "condition" d.condition ++ textField "hitCondition" d.hitCondition
    ++ textField "logMessage" d.logMessage)

theorem ofDocument?_toDocument (d : Definition) : ofDocument? d.toDocument = some d := by
  obtain ⟨condition, hitCondition, logMessage⟩ := d
  cases condition <;> cases hitCondition <;> cases logMessage <;> rfl

end Breakpoints.Definition

import Breakpoints.Script.Operand

/-!
# Comparisons

A script returns one operand or one comparison of two. The comparison operator is
the leftmost one in the text, and of two that start at the same place the longer
one. All values can be told apart by `==` and `~=`; only two integers or two
texts have an order, that of their code points for texts.
-/

namespace Breakpoints.Script

inductive Operator where
  | eq
  | ne
  | ge
  | le
  | gt
  | lt
  deriving DecidableEq, Repr

namespace Operator

def symbol : Operator → List Char
  | eq => ['=', '=']
  | ne => ['~', '=']
  | ge => ['>', '=']
  | le => ['<', '=']
  | gt => ['>']
  | lt => ['<']

/-- The operator that a text starts with, and the rest of the text. -/
def strip? : List Char → Option (Operator × List Char)
  | '=' :: '=' :: rest => some (eq, rest)
  | '~' :: '=' :: rest => some (ne, rest)
  | '>' :: '=' :: rest => some (ge, rest)
  | '<' :: '=' :: rest => some (le, rest)
  | '>' :: rest => some (gt, rest)
  | '<' :: rest => some (lt, rest)
  | _ => none

/-- Whether an order operator accepts how two values compare. -/
def accepts : Operator → Ordering → Bool
  | eq, o => o.isEq
  | ne, o => o.isNe
  | ge, o => o.isGE
  | le, o => o.isLE
  | gt, o => o.isGT
  | lt, o => o.isLT

theorem strip?_eq_some {cs rest : List Char} {op : Operator} (h : strip? cs = some (op, rest)) :
    cs = op.symbol ++ rest := by
  unfold strip? at h
  split at h <;> cases h <;> rfl

end Operator

/-- Cuts a text at its leftmost operator. -/
def cut? : List Char → Option (List Char × Operator × List Char)
  | [] => none
  | c :: cs =>
    match Operator.strip? (c :: cs) with
    | some (op, right) => some ([], op, right)
    | none => (cut? cs).map fun (left, op, right) => (c :: left, op, right)

/-- How two values compare, if there is an order between them. -/
def order? : Value → Value → Option Ordering
  | .integer m, .integer n => some (compare m n)
  | .text s, .text t => some (compare s t)
  | _, _ => none

/-- Whether two values compare as the operator says. -/
def compareValues (op : Operator) (a b : Value) : Except Fault Bool :=
  match op with
  | .eq => .ok (a.equal b)
  | .ne => .ok (!a.equal b)
  | _ =>
    match order? a b with
    | some o => .ok (op.accepts o)
    | none => .error (.raised ("attempt to compare " ++ a.typeName ++ " with " ++ b.typeName))

/-- The value of an expression. The left operand goes first, so its fault wins. -/
def expression (locals : Locals) (cs : List Char) : Except Fault Value :=
  match cut? cs with
  | none => operand locals cs
  | some (left, op, right) => do
    let a ← operand locals left
    let b ← operand locals right
    return .boolean (← compareValues op a b)

/-- The expression of a script that starts with `return` and a space. -/
def returned? : List Char → Option (List Char)
  | 'r' :: 'e' :: 't' :: 'u' :: 'r' :: 'n' :: ' ' :: cs => some cs
  | _ => none

/-- The values that a script returns. -/
def evaluate (locals : Locals) (script : String) : Except Fault (List Value) :=
  match returned? script.toList with
  | none => .error (.raised "expected a return statement")
  | some cs => (expression locals cs).map fun value => [value]

end Breakpoints.Script

/-!
# Documents

Structured data as a client sends it: the fields of a record come either by name,
in an object, or by position, in an array that may end early.
-/

namespace Breakpoints

inductive Document where
  | null
  | boolean (b : Bool)
  /-- The number `mantissa / 10 ^ places`. -/
  | number (mantissa : Int) (places : Nat)
  | text (s : String)
  | array (items : List Document)
  | object (fields : List (String × Document))
  deriving Inhabited

namespace Document

/-- The fields of a record, given their names in order. A missing field is `none`.
Other names are ignored in an object; an array must not be longer than the names. -/
def fields? (names : List String) : Document → Option (List (Option Document))
  | object fields => some (names.map fun name => fields.lookup name)
  | array items =>
    if items.length ≤ names.length then
      some (items.map some ++ List.replicate (names.length - items.length) none)
    else none
  | _ => none

/-- The name of an alternative that carries no data: on its own, or as the only
field of an object, with `null`. -/
def alternative? : Document → Option String
  | text s => some s
  | object [(name, null)] => some name
  | _ => none

/-- A text, or `null` for none. -/
def textOrNull? : Document → Option (Option String)
  | null => some none
  | text s => some (some s)
  | _ => none

/-- A text of exactly one character. -/
def character? : Document → Option Char
  | text s =>
    match s.toList with
    | [c] => some c
    | _ => none
  | _ => none

def items? : Document → Option (List Document)
  | array items => some items
  | _ => none

/-- A field that is missing has the default value. -/
def orDefault {α : Type} (default : α) (read : Document → Option α) : Option Document → Option α
  | none => some default
  | some d => read d

end Document

end Breakpoints

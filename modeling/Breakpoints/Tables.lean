import Breakpoints.Table

/-!
# Shared tables

Tables are shared: a source, the bindings of functions and a running check may
refer to the same one, and what one of them changes the others see. So a table
has an identity, its `TableId`, and `Tables` says what each identity holds now.
-/

namespace Breakpoints

/-- The identity of a table. -/
structure TableId where
  slot : Nat
  deriving DecidableEq, Repr

/-- What every table holds. -/
structure Tables where
  cells : List Table
  deriving DecidableEq

namespace Tables

def none : Tables := ⟨[]⟩

/-- A table that was never made is empty. -/
def get (ts : Tables) (id : TableId) : Table := ts.cells[id.slot]?.getD .empty

/-- The identity that the next new table gets. -/
def fresh (ts : Tables) : TableId := ⟨ts.cells.length⟩

/-- Makes a new empty table. -/
def grow (ts : Tables) : Tables := ⟨ts.cells ++ [.empty]⟩

/-- Replaces what a table holds. -/
def set (ts : Tables) (id : TableId) (t : Table) : Tables := ⟨ts.cells.set id.slot t⟩

/-- The table was made. -/
def Has (ts : Tables) (id : TableId) : Prop := id.slot < ts.cells.length

@[simp] theorem get_grow (ts : Tables) (id : TableId) : ts.grow.get id = ts.get id := by
  simp only [get, grow, List.getElem?_append]
  split
  · rfl
  · next h =>
    rw [List.getElem?_eq_none (Nat.le_of_not_lt h), List.getElem?_singleton]
    split <;> rfl

theorem has_fresh_grow (ts : Tables) : ts.grow.Has ts.fresh := by
  simp [Has, grow, fresh]

theorem Has.grow {ts : Tables} {id : TableId} (h : ts.Has id) : ts.grow.Has id := by
  simp only [Has, Tables.grow, List.length_append] at h ⊢
  omega

theorem Has.ne_fresh {ts : Tables} {id : TableId} (h : ts.Has id) : id ≠ ts.fresh := by
  rintro rfl
  exact Nat.lt_irrefl _ h

@[simp] theorem has_set {ts : Tables} {id id' : TableId} {t : Table} :
    (ts.set id t).Has id' ↔ ts.Has id' := by
  simp [Has, set]

theorem get_set_self {ts : Tables} {id : TableId} (h : ts.Has id) (t : Table) :
    (ts.set id t).get id = t := by
  simp [get, set, List.getElem?_set_self h]

theorem get_set_of_ne {ts : Tables} {id id' : TableId} (h : id' ≠ id) (t : Table) :
    (ts.set id t).get id' = ts.get id' := by
  have hs : id.slot ≠ id'.slot := fun he => h (by cases id; cases id'; simp_all)
  simp [get, set, List.getElem?_set_ne hs]

end Tables

end Breakpoints

import Breakpoints.Breakpoint

/-!
# The breakpoints of one source

A table holds at most one breakpoint a line, sorted by line. Sorting makes the
view by line faithful: tables that hold the same breakpoints are equal
(`Table.ext_get?`).
-/

namespace Breakpoints

/-- Lines strictly increase. -/
def SortedByLine (entries : List (Nat × Breakpoint)) : Prop :=
  entries.Pairwise fun a b => a.1 < b.1

/-- Puts an entry at its place, instead of the one at that line if there is one. -/
def insertEntry (line : Nat) (b : Breakpoint) : List (Nat × Breakpoint) → List (Nat × Breakpoint)
  | [] => [(line, b)]
  | e :: rest =>
    if line < e.1 then (line, b) :: e :: rest
    else if line = e.1 then (line, b) :: rest
    else e :: insertEntry line b rest

theorem mem_insertEntry {line : Nat} {b : Breakpoint} {entries : List (Nat × Breakpoint)}
    {e : Nat × Breakpoint} (h : e ∈ insertEntry line b entries) : e = (line, b) ∨ e ∈ entries := by
  induction entries with
  | nil => simpa [insertEntry] using h
  | cons d rest ih =>
    simp only [insertEntry] at h
    split at h
    · simpa using h
    · split at h
      · rcases List.mem_cons.1 h with h | h
        · exact Or.inl h
        · exact Or.inr (List.mem_cons_of_mem _ h)
      · rcases List.mem_cons.1 h with h | h
        · exact Or.inr (h ▸ List.mem_cons_self)
        · exact (ih h).imp_right (List.mem_cons_of_mem _)

theorem SortedByLine.insertEntry {entries : List (Nat × Breakpoint)} (h : SortedByLine entries)
    (line : Nat) (b : Breakpoint) : SortedByLine (insertEntry line b entries) := by
  induction entries with
  | nil => simp [SortedByLine, Breakpoints.insertEntry]
  | cons e rest ih =>
    obtain ⟨hhead, htail⟩ := List.pairwise_cons.1 h
    simp only [Breakpoints.insertEntry]
    split
    · next hlt =>
      refine List.pairwise_cons.2 ⟨fun x hx => ?_, h⟩
      rcases List.mem_cons.1 hx with rfl | hx
      · exact hlt
      · exact Nat.lt_trans hlt (hhead x hx)
    · split
      · next heq =>
        exact List.pairwise_cons.2 ⟨fun x hx => heq ▸ hhead x hx, htail⟩
      · refine List.pairwise_cons.2 ⟨fun x hx => ?_, ih htail⟩
        rcases mem_insertEntry hx with rfl | hx
        · dsimp only; omega
        · exact hhead x hx

theorem lookup_cons_ite (m : Nat) (d : Breakpoint) (rest : List (Nat × Breakpoint)) (l : Nat) :
    ((m, d) :: rest).lookup l = if l = m then some d else rest.lookup l := by
  by_cases h : l = m
  · simp [h]
  · simp [List.lookup_cons, h, beq_eq_false_iff_ne.2]

theorem lookup_insertEntry {entries : List (Nat × Breakpoint)} (line : Nat) (b : Breakpoint)
    (l : Nat) :
    (insertEntry line b entries).lookup l = if l = line then some b else entries.lookup l := by
  induction entries with
  | nil => simp [insertEntry, lookup_cons_ite]
  | cons e rest ih =>
    obtain ⟨m, d⟩ := e
    simp only [insertEntry]
    split
    · rw [lookup_cons_ite]
    · split
      · next heq =>
        simp only [lookup_cons_ite, heq]
        split <;> rfl
      · next hne =>
        simp only [lookup_cons_ite, ih]
        by_cases hl : l = m
        · simp [hl, Ne.symm hne]
        · simp [hl]

theorem mem_iff_lookup {entries : List (Nat × Breakpoint)} (h : SortedByLine entries) {l : Nat}
    {b : Breakpoint} : (l, b) ∈ entries ↔ entries.lookup l = some b := by
  induction entries with
  | nil => simp
  | cons e rest ih =>
    obtain ⟨m, d⟩ := e
    obtain ⟨hhead, htail⟩ := List.pairwise_cons.1 h
    rw [lookup_cons_ite, List.mem_cons, Prod.mk.injEq, ih htail]
    by_cases hl : l = m
    · subst hl
      have hnone : rest.lookup l ≠ some b := fun hmem =>
        absurd (hhead _ ((ih htail).2 hmem)) (Nat.lt_irrefl _)
      simp [hnone, eq_comm]
    · simp [hl]

/-- Sorted lists with the same entries are equal. -/
theorem SortedByLine.eq_of_mem_iff {xs ys : List (Nat × Breakpoint)} (hx : SortedByLine xs)
    (hy : SortedByLine ys) (h : ∀ e, e ∈ xs ↔ e ∈ ys) : xs = ys := by
  induction xs generalizing ys with
  | nil =>
    cases ys with
    | nil => rfl
    | cons e rest => exact absurd ((h e).2 List.mem_cons_self) List.not_mem_nil
  | cons a xs ih =>
    cases ys with
    | nil => exact absurd ((h a).1 List.mem_cons_self) List.not_mem_nil
    | cons b ys =>
      obtain ⟨hax, hxs⟩ := List.pairwise_cons.1 hx
      obtain ⟨hby, hys⟩ := List.pairwise_cons.1 hy
      have hab : a = b := by
        rcases List.mem_cons.1 ((h a).1 List.mem_cons_self) with hab | ha
        · exact hab
        · rcases List.mem_cons.1 ((h b).2 List.mem_cons_self) with hba | hb
          · exact hba.symm
          · exact absurd (Nat.lt_trans (hax b hb) (hby a ha)) (Nat.lt_irrefl _)
      subst hab
      refine congrArg _ (ih hxs hys fun e => ⟨fun he => ?_, fun he => ?_⟩)
      · rcases List.mem_cons.1 ((h e).1 (List.mem_cons_of_mem _ he)) with rfl | hmem
        · exact absurd (hax _ he) (Nat.lt_irrefl _)
        · exact hmem
      · rcases List.mem_cons.1 ((h e).2 (List.mem_cons_of_mem _ he)) with rfl | hmem
        · exact absurd (hby _ he) (Nat.lt_irrefl _)
        · exact hmem

structure Table where
  entries : List (Nat × Breakpoint)
  sorted : SortedByLine entries
  deriving DecidableEq

namespace Table

def empty : Table := ⟨[], List.Pairwise.nil⟩

instance : Inhabited Table := ⟨empty⟩

/-- The breakpoint at a line. -/
def get? (t : Table) (line : Nat) : Option Breakpoint := t.entries.lookup line

def holds (t : Table) (line : Nat) : Bool := (t.get? line).isSome

/-- The lines that have a breakpoint, in order. -/
def lines (t : Table) : List Nat := t.entries.map (·.1)

def size (t : Table) : Nat := t.entries.length

def isEmpty (t : Table) : Bool := t.entries.isEmpty

/-- Puts a breakpoint at a line. -/
def set (t : Table) (line : Nat) (b : Breakpoint) : Table :=
  ⟨insertEntry line b t.entries, t.sorted.insertEntry line b⟩

/-- How often the breakpoint at a line was hit. -/
def hits? (t : Table) (line : Nat) : Option Nat := (t.get? line).map (·.hits)

/-- Sets a breakpoint by its definition. One that is there already keeps its hits. -/
def define (t : Table) (line : Nat) (d : Definition) : Table :=
  t.set line (.ofDefinition d ((t.hits? line).getD 0))

/-- Counts a hit of the breakpoint at a line, if there is one, and tells the new
number of hits. -/
def recordHit? (t : Table) (line : Nat) : Option (Nat × Table) :=
  (t.get? line).map fun b => (b.hit.hits, t.set line b.hit)

@[simp] theorem get?_empty (line : Nat) : empty.get? line = none := rfl

@[simp] theorem get?_set (t : Table) (line : Nat) (b : Breakpoint) (l : Nat) :
    (t.set line b).get? l = if l = line then some b else t.get? l :=
  lookup_insertEntry line b l

theorem get?_define (t : Table) (line : Nat) (d : Definition) (l : Nat) :
    (t.define line d).get? l =
      if l = line then some (.ofDefinition d ((t.hits? line).getD 0)) else t.get? l :=
  get?_set ..

theorem mem_entries_iff {t : Table} {line : Nat} {b : Breakpoint} :
    (line, b) ∈ t.entries ↔ t.get? line = some b :=
  mem_iff_lookup t.sorted

theorem mem_lines_iff {t : Table} {line : Nat} : line ∈ t.lines ↔ t.holds line = true := by
  simp only [lines, List.mem_map, holds, Option.isSome_iff_exists, ← mem_entries_iff]
  constructor
  · rintro ⟨⟨_, b⟩, h, rfl⟩
    exact ⟨b, h⟩
  · rintro ⟨b, h⟩
    exact ⟨(line, b), h, rfl⟩

theorem nodup_lines (t : Table) : t.lines.Nodup := by
  rw [lines, List.Nodup, List.pairwise_map]
  exact t.sorted.imp fun h => Nat.ne_of_lt h

/-- Tables that hold the same breakpoints are equal. -/
theorem ext_get? {s t : Table} (h : ∀ line, s.get? line = t.get? line) : s = t := by
  have hmem : ∀ e, e ∈ s.entries ↔ e ∈ t.entries := fun ⟨line, b⟩ => by
    rw [mem_entries_iff, mem_entries_iff, h]
  obtain ⟨xs, hx⟩ := s
  obtain ⟨ys, hy⟩ := t
  obtain rfl : xs = ys := hx.eq_of_mem_iff hy hmem
  rfl

theorem isEmpty_iff {t : Table} : t.isEmpty = true ↔ t = empty := by
  constructor
  · intro h
    apply ext_get?
    intro line
    rw [get?, List.isEmpty_iff.1 h]
    rfl
  · rintro rfl
    rfl

theorem isEmpty_iff_get? {t : Table} : t.isEmpty = true ↔ ∀ line, t.get? line = none := by
  rw [isEmpty_iff]
  exact ⟨fun h _ => h ▸ get?_empty _, fun h => ext_get? h⟩

end Table

end Breakpoints

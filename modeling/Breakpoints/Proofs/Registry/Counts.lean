import Breakpoints.Proofs.Registry.History
import Mathlib.Data.Set.Card

/-!
# The counts are exact

For every line a registry counts the sources that have a breakpoint there, and
looks at the count instead of the tables. In every registry that arises the count
of a line is the number of these sources (`Arises.exact`), so a line is let pass
exactly if no source has a breakpoint there (`Exact.admits_iff`). A count never
exceeds the number of sources that have a table (`Exact.count_le`).
-/

namespace Breakpoints

namespace LineCounts

theorem lt_size_of_cover? {room : Nat → Bool} {line : Nat} {c c' : LineCounts}
    (h : c.cover? room line = some c') : line < c'.size := by
  have hsize := size_cover? h
  omega

/-- A line that is met once is counted down once. -/
theorem count_foldl_decrement {lines : List Nat} (h : lines.Nodup) (c : LineCounts) (l : Nat) :
    (lines.foldl decrement c).count l = if l ∈ lines then c.count l - 1 else c.count l := by
  induction lines generalizing c with
  | nil => rfl
  | cons line rest ih =>
    obtain ⟨hline, hrest⟩ := List.nodup_cons.1 h
    rw [List.foldl_cons, ih hrest, count_decrement]
    by_cases hl : l = line
    · subst hl
      simp [hline]
    · simp [hl]

theorem size_foldl_decrement (lines : List Nat) (c : LineCounts) :
    (lines.foldl decrement c).size = c.size := by
  induction lines generalizing c with
  | nil => rfl
  | cons line rest ih => rw [List.foldl_cons, ih, size_decrement]

end LineCounts

namespace Registry

variable {r : Registry} {s : Source}

/-- The sources that have a breakpoint at a line. -/
def holders (r : Registry) (line : Nat) : Set Source := {s | (r.contents s).holds line = true}

/-- Every line is counted as often as sources have a breakpoint there. -/
def Exact (r : Registry) : Prop := ∀ line, (r.counts.count line : ℕ∞) = (r.holders line).encard

theorem mem_holders {line : Nat} : s ∈ r.holders line ↔ (r.contents s).holds line = true := Iff.rfl

theorem size_counts_add {room : Nat → Bool} {line : Nat} {c : LineCounts}
    (hc : r.counts.cover? room line = some c) (s : Source) (d : Definition) :
    (r.add room s line d).counts.size = max r.counts.size (line + 1) := by
  rw [add_of_cover? hc, ← LineCounts.size_cover? hc]
  split
  · rfl
  · exact LineCounts.size_increment ..

theorem size_counts_clearSource (r : Registry) (s : Source) :
    (r.clearSource s).counts.size = r.counts.size := by
  cases hs : r.find? s with
  | none => rw [clearSource_of_find?_eq_none hs]
  | some id => rw [clearSource_of_find? hs, LineCounts.size_foldl_decrement]

/-! ## Each operation -/

theorem exact_empty : empty.Exact := by
  intro line
  have hnone : empty.holders line = ∅ := by
    ext s
    simp [mem_holders]
  rw [hnone, Set.encard_empty]
  rfl

theorem holders_intern (r : Registry) (s : Source) (line : Nat) :
    (r.intern s).2.holders line = r.holders line := by
  ext s'
  simp [mem_holders]

theorem Exact.intern (h : r.Exact) (s : Source) : (r.intern s).2.Exact := by
  intro line
  rw [holders_intern, counts_intern]
  exact h line

theorem holders_hit (r : Registry) (id : TableId) (line l : Nat) :
    (r.hit id line).holders l = r.holders l := by
  ext s
  rw [mem_holders, mem_holders, contents_hit]
  split
  · rw [Table.holds_hit]
  · rfl

/-- A hit removes no breakpoint and makes none. -/
theorem Exact.hit (h : r.Exact) (id : TableId) (line : Nat) : (r.hit id line).Exact := by
  intro l
  rw [holders_hit]
  exact h l

theorem exact_clear (r : Registry) : r.clear.Exact := by
  intro line
  have hnone : r.clear.holders line = ∅ := by
    ext s
    simp [mem_holders]
  rw [hnone, Set.encard_empty]
  rfl

theorem WellFormed.holders_add (h : r.WellFormed) {room : Nat → Bool} {line : Nat} {c : LineCounts}
    (hc : r.counts.cover? room line = some c) (s : Source) (d : Definition) (l : Nat) :
    (r.add room s line d).holders l = if l = line then insert s (r.holders l) else r.holders l := by
  ext s'
  rw [mem_holders, h.contents_add, hc]
  by_cases hs : s' = s
  · subst hs
    by_cases hl : l = line
    · simp [hl]
    · simp [hl, mem_holders]
  · by_cases hl : l = line
    · simp [hl, hs, mem_holders]
    · simp [hl, hs, mem_holders]

/-- A line is counted once more just when it gets a breakpoint that the source did
not have. -/
theorem Exact.add (h : r.Exact) (hw : r.WellFormed) (room : Nat → Bool) (s : Source) (line : Nat)
    (d : Definition) : (r.add room s line d).Exact := by
  cases hc : r.counts.cover? room line with
  | none => rwa [add_of_cover?_eq_none hc]
  | some c =>
    intro l
    have hcount : c.count l = r.counts.count l := LineCounts.count_cover? hc l
    rw [hw.holders_add hc]
    simp only [add_of_cover? hc]
    by_cases hheld : (r.contents s).holds line = true
    · have hsame : (if l = line then insert s (r.holders l) else r.holders l) = r.holders l := by
        split
        · next hl => rw [hl]; exact Set.insert_eq_of_mem hheld
        · rfl
      rw [if_pos hheld, hsame, hcount]
      exact h l
    · rw [if_neg hheld, LineCounts.count_increment (LineCounts.lt_size_of_cover? hc), hcount]
      split
      · next hl =>
        rw [Set.encard_insert_of_notMem (hl ▸ hheld), ← h l]
        rfl
      · exact h l

theorem WellFormed.holders_clearSource (h : r.WellFormed) (s : Source) (line : Nat) :
    (r.clearSource s).holders line = r.holders line \ {s} := by
  ext s'
  rw [mem_holders, h.contents_clearSource]
  by_cases hs : s' = s
  · simp [hs]
  · simp [hs, mem_holders]

theorem Exact.clearSource (h : r.Exact) (hw : r.WellFormed) (s : Source) :
    (r.clearSource s).Exact := by
  intro line
  rw [hw.holders_clearSource]
  cases hs : r.find? s with
  | none =>
    have hnot : s ∉ r.holders line := by
      rw [mem_holders, contents_of_find?_eq_none hs]
      exact Bool.false_ne_true
    rw [clearSource_of_find?_eq_none hs, Set.sdiff_singleton_eq_self hnot]
    exact h line
  | some id =>
    have hmem : line ∈ (r.tables.get id).lines ↔ s ∈ r.holders line := by
      rw [Table.mem_lines_iff, mem_holders, contents_of_find? hs]
    simp only [clearSource_of_find? hs]
    rw [LineCounts.count_foldl_decrement (Table.nodup_lines _)]
    by_cases hheld : s ∈ r.holders line
    · -- The source is one of those counted, so the count is not zero.
      have hone : (r.holders line \ {s}).encard + 1 = r.counts.count line := by
        rw [Set.encard_sdiff_singleton_add_one hheld, h line]
      have hpos : 1 ≤ r.counts.count line := by
        refine Nat.one_le_iff_ne_zero.2 fun hzero => ?_
        exact Set.encard_ne_zero_of_mem hheld (by simp [← h line, hzero])
      have hless : ((r.counts.count line - 1 : ℕ) : ℕ∞) + 1 = r.counts.count line := by
        exact_mod_cast Nat.sub_add_cancel hpos
      rw [if_pos (hmem.2 hheld)]
      exact ENat.add_left_injective_of_ne_top ENat.one_ne_top (hless.trans hone.symm)
    · rw [if_neg (mt hmem.1 hheld), Set.sdiff_singleton_eq_self hheld]
      exact h line

/-! ## Every registry that arises -/

theorem Arises.exact {history : List Event} (h : Arises history r) : r.Exact := by
  induction h with
  | refl => exact exact_empty
  | step before h ih =>
    cases h with
    | add room s line d => exact ih.add (Arises.wellFormed before) room s line d
    | clearSource s => exact ih.clearSource (Arises.wellFormed before) s
    | clear => exact exact_clear _
    | lookup s => exact ih.intern s
    | hit held => exact ih.hit _ _
    | silent h => exact ih

/-! ## What the counts tell -/

/-- The sources known by path and those known by handle, counted apart. -/
theorem encard_holders (r : Registry) (line : Nat) :
    (r.holders line).encard =
      {name | (r.contents (.path name)).holds line = true}.encard +
        {id | (r.contents (.handle id)).holds line = true}.encard := by
  have hsplit : r.holders line =
      Source.path '' {name | (r.contents (.path name)).holds line = true} ∪
        Source.handle '' {id | (r.contents (.handle id)).holds line = true} := by
    ext s
    cases s with
    | path name => simp [mem_holders]
    | handle id => simp [mem_holders]
  have hdisjoint : Disjoint (Source.path '' {name | (r.contents (.path name)).holds line = true})
      (Source.handle '' {id | (r.contents (.handle id)).holds line = true}) := by
    rw [Set.disjoint_left]
    rintro _ ⟨name, -, rfl⟩ ⟨id, -, h⟩
    cases h
  have hpath : Function.Injective Source.path := fun _ _ h => Source.path.inj h
  have hhandle : Function.Injective Source.handle := fun _ _ h => Source.handle.inj h
  rw [hsplit, Set.encard_union_eq hdisjoint, hpath.encard_image, hhandle.encard_image]

theorem Exact.count_pos_iff (h : r.Exact) {line : Nat} :
    0 < r.counts.count line ↔ ∃ s, (r.contents s).holds line = true := by
  have hne : r.counts.count line ≠ 0 ↔ (r.holders line).Nonempty := by
    rw [← Set.encard_ne_zero, ← h line, Nat.cast_ne_zero]
  rw [Nat.pos_iff_ne_zero, hne]
  rfl

theorem Exact.admits_iff (h : r.Exact) {line : Nat} :
    r.admits line = true ↔ ∃ s, (r.contents s).holds line = true := by
  rw [admits, LineCounts.admits_iff, h.count_pos_iff]

theorem Exact.allZero_iff (h : r.Exact) :
    r.counts.allZero = true ↔ ∀ s, (r.contents s).isEmpty = true := by
  have hzero : ∀ line, r.counts.count line = 0 ↔ ∀ s, (r.contents s).holds line = false := by
    intro line
    have hpos : 0 < r.counts.count line ↔ ∃ s, (r.contents s).holds line = true := h.count_pos_iff
    rw [← Nat.le_zero, ← Nat.not_lt, hpos]
    simp
  rw [LineCounts.allZero_iff]
  simp only [hzero, Table.isEmpty_iff_get?, Table.holds, Option.isSome_eq_false_iff,
    Option.isNone_iff_eq_none]
  exact forall_comm

/-- Sources without a table have no breakpoints, so the others are all there is to
count. -/
theorem Exact.count_le (h : r.Exact) (line : Nat) : r.counts.count line ≤ r.sources.length := by
  have hsub : r.holders line ⊆ ((r.sources.map (·.1)).toFinset : Set Source) := by
    intro s hs
    obtain ⟨b, hb⟩ := Table.holds_iff.1 hs
    obtain ⟨id, hid, -⟩ := exists_find?_of_contents_ne_empty (Table.ne_empty_of_get? hb)
    obtain ⟨front, back, hsources, -⟩ := List.lookup_eq_some_iff.1 hid
    simp [hsources]
  have hcard : (r.counts.count line : ℕ∞) ≤ ((r.sources.map (·.1)).toFinset.card : ℕ∞) := by
    rw [h line, ← Set.encard_coe_eq_coe_finsetCard]
    exact Set.encard_le_encard hsub
  calc r.counts.count line
      ≤ (r.sources.map (·.1)).toFinset.card := by exact_mod_cast hcard
    _ ≤ (r.sources.map (·.1)).length := List.toFinset_card_le _
    _ = r.sources.length := List.length_map ..

end Registry

end Breakpoints

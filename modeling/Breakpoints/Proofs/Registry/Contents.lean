import Breakpoints.Debugger
import Mathlib.Data.List.Basic

/-!
# Who holds what in a registry

In a well-formed registry every source that has a table has one of its own, and a
table that belongs to no source is empty: it was let go of when all breakpoints
were removed. Each operation keeps registries well-formed (`WellFormed.add` and
its siblings) and does to the contents of the sources what its name says
(`contents_add` and its siblings).
-/

namespace Breakpoints

namespace Table

/-- The table after a hit at a line; the same one if there is nothing to hit. -/
def hit (t : Table) (line : Nat) : Table := ((t.recordHit? line).map (·.2)).getD t

theorem hit_of_get? {t : Table} {line : Nat} {b : Breakpoint} (h : t.get? line = some b) :
    t.hit line = t.set line b.hit := by
  simp [hit, recordHit?, h]

theorem hit_of_get?_eq_none {t : Table} {line : Nat} (h : t.get? line = none) : t.hit line = t := by
  simp [hit, recordHit?, h]

theorem get?_hit (t : Table) (line l : Nat) :
    (t.hit line).get? l = if l = line then (t.get? line).map Breakpoint.hit else t.get? l := by
  cases h : t.get? line with
  | none =>
    rw [hit_of_get?_eq_none h]
    split
    · next hl => rw [hl, h]; rfl
    · rfl
  | some b =>
    rw [hit_of_get? h, get?_set]
    rfl

/-- A hit changes no more than a count. -/
@[simp] theorem holds_hit (t : Table) (line l : Nat) : (t.hit line).holds l = t.holds l := by
  simp only [holds, get?_hit]
  split
  · next hl => rw [hl, Option.isSome_map]
  · rfl

@[simp] theorem hit_empty (line : Nat) : empty.hit line = empty := hit_of_get?_eq_none rfl

@[simp] theorem holds_empty (line : Nat) : empty.holds line = false := rfl

theorem holds_iff {t : Table} {line : Nat} : t.holds line = true ↔ ∃ b, t.get? line = some b := by
  rw [holds, Option.isSome_iff_exists]

theorem ne_empty_of_get? {t : Table} {line : Nat} {b : Breakpoint} (h : t.get? line = some b) :
    t ≠ .empty := by
  rintro rfl
  cases h

@[simp] theorem holds_define (t : Table) (line : Nat) (d : Definition) (l : Nat) :
    (t.define line d).holds l = (l == line || t.holds l) := by
  simp only [holds, get?_define]
  split
  · next hl => simp [hl]
  · next hl => simp [hl]

/-- A new definition leaves the hits as they are; a new breakpoint has none. -/
theorem hits?_define (t : Table) (line : Nat) (d : Definition) (l : Nat) :
    (t.define line d).hits? l = if l = line then some ((t.hits? line).getD 0) else t.hits? l := by
  simp only [hits?, get?_define]
  split <;> rfl

end Table

namespace Tables

/-- Only a table that was made holds anything. -/
theorem has_of_get_ne_empty {ts : Tables} {id : TableId} (h : ts.get id ≠ .empty) : ts.Has id := by
  by_contra hn
  have hnone : ts.cells[id.slot]? = Option.none :=
    List.getElem?_eq_none (Nat.le_of_not_lt hn)
  exact h (by rw [get, hnone]; rfl)

/-- Writing shows, unless what is written is lost because the table was never made. -/
theorem get_set {ts : Tables} {id : TableId} {t : Table} (h : ts.Has id ∨ t = .empty)
    (id' : TableId) : (ts.set id t).get id' = if id' = id then t else ts.get id' := by
  split
  · next he =>
    subst he
    by_cases hid : ts.Has id'
    · exact get_set_self hid t
    · have ht : t = .empty := h.resolve_left hid
      by_contra hne
      exact hid (has_set.1 (has_of_get_ne_empty (ht ▸ hne)))
  · next hne => exact get_set_of_ne hne t

/-- Counting a hit changes one table, by that hit. -/
theorem get_countHit (id : TableId) (line : Nat) (ts : Tables) (id' : TableId) :
    (Dialogue.countHit id line ts).2.get id' =
      if id' = id then (ts.get id).hit line else ts.get id' := by
  cases h : (ts.get id).get? line with
  | none =>
    have hcount : (Dialogue.countHit id line ts).2 = ts := by
      simp [Dialogue.countHit, Table.recordHit?, h]
    rw [hcount, Table.hit_of_get?_eq_none h]
    split
    · next he => rw [he]
    · rfl
  | some b =>
    have hcount : (Dialogue.countHit id line ts).2 = ts.set id ((ts.get id).set line b.hit) := by
      simp [Dialogue.countHit, Table.recordHit?, h]
    rw [hcount, Table.hit_of_get? h]
    exact get_set (.inl (has_of_get_ne_empty (Table.ne_empty_of_get? h))) id'

theorem has_countHit {id : TableId} {line : Nat} {ts : Tables} {id' : TableId} :
    (Dialogue.countHit id line ts).2.Has id' ↔ ts.Has id' := by
  unfold Dialogue.countHit
  split
  · rfl
  · exact has_set

end Tables

namespace Registry

variable {r : Registry} {s s' : Source} {id : TableId}

/-- No two sources share a table, and a table that no source has is empty. -/
structure WellFormed (r : Registry) : Prop where
  made : ∀ {s id}, r.find? s = some id → r.tables.Has id
  unshared : ∀ {s s' id}, r.find? s = some id → r.find? s' = some id → s = s'
  bare : ∀ {id}, (∀ s, r.find? s ≠ some id) → r.tables.get id = .empty

theorem contents_of_find? (h : r.find? s = some id) : r.contents s = r.tables.get id := by
  simp only [contents, h]

theorem contents_of_find?_eq_none (h : r.find? s = none) : r.contents s = .empty := by
  simp only [contents, h]

@[simp] theorem contents_empty (s : Source) : empty.contents s = .empty := rfl

/-- A source that holds anything has a table. -/
theorem exists_find?_of_contents_ne_empty (h : r.contents s ≠ .empty) :
    ∃ id, r.find? s = some id ∧ r.contents s = r.tables.get id := by
  cases hs : r.find? s with
  | none => exact absurd (contents_of_find?_eq_none hs) h
  | some id => exact ⟨id, rfl, contents_of_find? hs⟩

/-- A table that holds anything belongs to a source. -/
theorem WellFormed.exists_source (h : r.WellFormed) (hne : r.tables.get id ≠ .empty) :
    ∃ s, r.find? s = some id := by
  by_contra hn
  exact hne (h.bare fun s hs => hn ⟨s, hs⟩)

theorem wellFormed_empty : empty.WellFormed where
  made := fun h => by cases h
  unshared := fun h => by cases h
  bare := fun _ => rfl

/-! ## Giving a source a table -/

theorem fst_intern (h : r.find? s = some id) : r.intern s = (id, r) := by
  simp only [intern, h]

theorem find?_intern (r : Registry) (s s' : Source) :
    (r.intern s).2.find? s' = if s' = s then some (r.intern s).1 else r.find? s' := by
  split
  · next hs => rw [hs, find?_intern_self]
  · next hs => exact find?_intern_of_ne hs

/-- A source without a table gets one that nobody has. -/
theorem intern_of_find?_eq_none (h : r.find? s = none) :
    r.intern s = (r.tables.fresh,
      { r with tables := r.tables.grow, sources := r.sources ++ [(s, r.tables.fresh)] }) := by
  simp only [intern, h]

@[simp] theorem contents_intern (r : Registry) (s s' : Source) :
    (r.intern s).2.contents s' = r.contents s' := by
  cases h : r.find? s with
  | some id => rw [fst_intern h]
  | none =>
    by_cases hs : s' = s
    · subst hs
      rw [contents_of_find? (find?_intern_self r s'), get_intern, contents_of_find?_eq_none h,
        intern_of_find?_eq_none h]
      simp [Tables.get, Tables.fresh]
    · simp only [contents, find?_intern_of_ne hs, get_intern]

theorem WellFormed.intern (h : r.WellFormed) (s : Source) : (r.intern s).2.WellFormed := by
  cases hs : r.find? s with
  | some id => rwa [fst_intern hs]
  | none =>
    have hne : ∀ {t id}, r.find? t = some id → id ≠ r.tables.fresh := fun ht => (h.made ht).ne_fresh
    have hid : (r.intern s).1 = r.tables.fresh := by rw [intern_of_find?_eq_none hs]
    constructor
    · intro t id ht
      rw [find?_intern, hid] at ht
      rw [intern_of_find?_eq_none hs]
      split at ht
      · cases ht
        exact r.tables.has_fresh_grow
      · exact (h.made ht).grow
    · intro t t' id ht ht'
      rw [find?_intern, hid] at ht ht'
      split at ht <;> split at ht'
      · next h₁ h₂ => rw [h₁, h₂]
      · cases ht
        exact absurd rfl (hne ht')
      · cases ht'
        exact absurd rfl (hne ht)
      · exact h.unshared ht ht'
    · intro id hbare
      rw [get_intern]
      apply h.bare
      intro t ht
      apply hbare t
      have hts : t ≠ s := by
        rintro rfl
        rw [hs] at ht
        cases ht
      rw [find?_intern_of_ne hts, ht]

/-! ## Writing to the table of a source -/

theorem find?_write (r : Registry) (ts : Tables) (c : LineCounts) (s : Source) :
    (⟨ts, r.sources, c⟩ : Registry).find? s = r.find? s := rfl

theorem WellFormed.write (h : r.WellFormed) (hs : r.find? s = some id) (t : Table)
    (c : LineCounts) : (⟨r.tables.set id t, r.sources, c⟩ : Registry).WellFormed where
  made := fun hs' => Tables.has_set.2 (h.made hs')
  unshared := fun hs' hs'' => h.unshared hs' hs''
  bare := fun {id'} hbare => by
    have hne : id' ≠ id := by
      rintro rfl
      exact hbare s hs
    have hget : (r.tables.set id t).get id' = r.tables.get id' := Tables.get_set_of_ne hne t
    rw [hget]
    exact h.bare hbare

/-- No other source sees what is written. -/
theorem WellFormed.contents_write (h : r.WellFormed) (hs : r.find? s = some id) (t : Table)
    (c : LineCounts) (s' : Source) :
    (⟨r.tables.set id t, r.sources, c⟩ : Registry).contents s' =
      if s' = s then t else r.contents s' := by
  split
  · next he =>
    subst he
    rw [contents_of_find? ((find?_write r _ c s').trans hs)]
    exact Tables.get_set_self (h.made hs) t
  · next hne =>
    cases hs' : r.find? s' with
    | none =>
      rw [contents_of_find?_eq_none hs',
        contents_of_find?_eq_none ((find?_write r _ c s').trans hs')]
    | some id' =>
      have hid : id' ≠ id := by
        rintro rfl
        exact hne (h.unshared hs' hs)
      rw [contents_of_find? hs', contents_of_find? ((find?_write r _ c s').trans hs')]
      exact Tables.get_set_of_ne hid t

/-! ## Adding -/

theorem add_of_cover?_eq_none {room : Nat → Bool} {line : Nat}
    (h : r.counts.cover? room line = none) (s : Source) (d : Definition) :
    r.add room s line d = r := by
  simp only [add, h]

theorem add_of_cover? {room : Nat → Bool} {line : Nat} {c : LineCounts}
    (h : r.counts.cover? room line = some c) (s : Source) (d : Definition) :
    r.add room s line d =
      ⟨(r.intern s).2.tables.set (r.intern s).1 ((r.contents s).define line d),
        (r.intern s).2.sources, if (r.contents s).holds line then c else c.increment line⟩ := by
  have hget : (r.intern s).2.tables.get (r.intern s).1 = r.contents s := by
    rw [← contents_intern r s s, contents_of_find? (find?_intern_self r s)]
  simp only [add, h, hget]

theorem WellFormed.add (h : r.WellFormed) (room : Nat → Bool) (s : Source) (line : Nat)
    (d : Definition) : (r.add room s line d).WellFormed := by
  cases hc : r.counts.cover? room line with
  | none => rwa [add_of_cover?_eq_none hc]
  | some c =>
    rw [add_of_cover? hc]
    exact (h.intern s).write (find?_intern_self r s) _ _

/-- Only a breakpoint at a line that can be counted is added, and only to its source. -/
theorem WellFormed.contents_add (h : r.WellFormed) (room : Nat → Bool) (s : Source) (line : Nat)
    (d : Definition) (s' : Source) :
    (r.add room s line d).contents s' =
      if (r.counts.cover? room line).isSome ∧ s' = s then (r.contents s).define line d
      else r.contents s' := by
  cases hc : r.counts.cover? room line with
  | none => simp [add_of_cover?_eq_none hc]
  | some c =>
    rw [add_of_cover? hc, (h.intern s).contents_write (find?_intern_self r s), contents_intern]
    simp

/-- Sources keep the tables they have. -/
theorem find?_add (h : r.find? s' = some id) (room : Nat → Bool) (s : Source) (line : Nat)
    (d : Definition) : (r.add room s line d).find? s' = some id := by
  cases hc : r.counts.cover? room line with
  | none => rwa [add_of_cover?_eq_none hc]
  | some c =>
    rw [add_of_cover? hc, find?_write, find?_intern]
    split
    · next hs => rw [← hs, fst_intern h]
    · exact h

/-! ## Clearing -/

theorem clearSource_of_find? (h : r.find? s = some id) :
    r.clearSource s = ⟨r.tables.set id .empty, r.sources,
      (r.tables.get id).lines.foldl LineCounts.decrement r.counts⟩ := by
  simp only [clearSource, h]

theorem clearSource_of_find?_eq_none (h : r.find? s = none) : r.clearSource s = r := by
  simp only [clearSource, h]

@[simp] theorem find?_clearSource (r : Registry) (s s' : Source) :
    (r.clearSource s).find? s' = r.find? s' := by
  unfold clearSource
  split <;> rfl

theorem WellFormed.clearSource (h : r.WellFormed) (s : Source) : (r.clearSource s).WellFormed := by
  cases hs : r.find? s with
  | none => rwa [clearSource_of_find?_eq_none hs]
  | some id =>
    rw [clearSource_of_find? hs]
    exact h.write hs _ _

theorem WellFormed.contents_clearSource (h : r.WellFormed) (s s' : Source) :
    (r.clearSource s).contents s' = if s' = s then .empty else r.contents s' := by
  cases hs : r.find? s with
  | none =>
    rw [clearSource_of_find?_eq_none hs]
    split
    · next he => rw [he, contents_of_find?_eq_none hs]
    · rfl
  | some id => rw [clearSource_of_find? hs, h.contents_write hs]

theorem get_emptied (sources : List (Source × TableId)) (ts : Tables) (id : TableId) :
    (emptied sources ts).get id = if ∃ e ∈ sources, e.2 = id then .empty else ts.get id := by
  induction sources generalizing ts with
  | nil => simp [emptied]
  | cons e rest ih =>
    have hcons : emptied (e :: rest) ts = emptied rest (ts.set e.2 .empty) := rfl
    rw [hcons, ih, Tables.get_set (.inr rfl)]
    by_cases hrest : ∃ e ∈ rest, e.2 = id
    · simp [hrest]
    · by_cases he : id = e.2
      · simp [he]
      · simp [hrest, he, Ne.symm he]

theorem has_emptied {sources : List (Source × TableId)} {ts : Tables} {id : TableId} :
    (emptied sources ts).Has id ↔ ts.Has id := by
  induction sources generalizing ts with
  | nil => rfl
  | cons e rest ih => exact ih.trans Tables.has_set

@[simp] theorem contents_clear (r : Registry) (s : Source) : r.clear.contents s = .empty := rfl

/-- Nothing is left in any table. -/
theorem WellFormed.get_clear (h : r.WellFormed) (id : TableId) :
    r.clear.tables.get id = .empty := by
  have hget : r.clear.tables.get id =
      if ∃ e ∈ r.sources, e.2 = id then .empty else r.tables.get id := get_emptied ..
  rw [hget]
  split
  · rfl
  · next hn =>
    apply h.bare
    intro s hs
    apply hn
    obtain ⟨front, back, hsources, -⟩ := List.lookup_eq_some_iff.1 hs
    exact ⟨(s, id), by simp [hsources], rfl⟩

theorem WellFormed.clear (h : r.WellFormed) : r.clear.WellFormed where
  made := fun hs => by cases hs
  unshared := fun hs => by cases hs
  bare := fun _ => h.get_clear _

/-! ## Hits -/

/-- The registry after a hit at a line of a table. -/
def hit (id : TableId) (line : Nat) (r : Registry) : Registry :=
  { r with tables := (Dialogue.countHit id line r.tables).2 }

@[simp] theorem find?_hit (r : Registry) (id : TableId) (line : Nat) (s : Source) :
    (r.hit id line).find? s = r.find? s := rfl

theorem get_hit (r : Registry) (id : TableId) (line : Nat) (id' : TableId) :
    (r.hit id line).tables.get id' =
      if id' = id then (r.tables.get id).hit line else r.tables.get id' :=
  Tables.get_countHit ..

theorem WellFormed.hit (h : r.WellFormed) (id : TableId) (line : Nat) :
    (r.hit id line).WellFormed where
  made := fun hs => Tables.has_countHit.2 (h.made hs)
  unshared := fun hs hs' => h.unshared hs hs'
  bare := fun {id'} hbare => by
    rw [get_hit, h.bare hbare]
    split
    · next he => rw [← he, h.bare hbare, Table.hit_empty]
    · rfl

theorem contents_hit (r : Registry) (id : TableId) (line : Nat) (s : Source) :
    (r.hit id line).contents s =
      if r.find? s = some id then (r.contents s).hit line else r.contents s := by
  cases hs : r.find? s with
  | none =>
    simp [contents_of_find?_eq_none hs,
      contents_of_find?_eq_none ((find?_hit r id line s).trans hs)]
  | some id' =>
    rw [contents_of_find? ((find?_hit r id line s).trans hs), get_hit, contents_of_find? hs]
    by_cases hid : id' = id
    · simp [hid]
    · simp [hid]

end Registry

end Breakpoints

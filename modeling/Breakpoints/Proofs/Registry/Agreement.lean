import Breakpoints.Proofs.Registry.Counts
import Breakpoints.Proofs.Resolution

/-!
# Registries that agree

Two registries agree if every source holds the same in both and every
line is counted alike. One of them may have given tables to sources which have none
in the other, so the same source may know its table by different identities. Each
operation keeps registries in agreement, and a dialogue about tables
that are paired, being those of one source or of none, takes the same course in both
(`Agrees.proceed`).
-/

namespace Breakpoints

namespace Registry

variable {r r' r₁ r₁' : Registry} {id id' : TableId} {s : Source}

/-- The registries hold and count the same. -/
structure Agrees (r r' : Registry) : Prop where
  contents : ∀ s, r.contents s = r'.contents s
  counts : r.counts = r'.counts
  wellFormed : r.WellFormed
  wellFormed' : r'.WellFormed
  exact : r.Exact

/-- The tables belong to the same source, or neither belongs to any. -/
structure Paired (r r' : Registry) (id id' : TableId) : Prop where
  made : r.tables.Has id
  made' : r'.tables.Has id'
  owner : ∀ s, r.find? s = some id ↔ r'.find? s = some id'

/-! ## Paired tables -/

/-- Tables stay paired. -/
theorem Paired.mono (h : r.Paired r' id id') (he : r.Extends r₁) (he' : r'.Extends r₁') :
    r₁.Paired r₁' id id' where
  made := he.precedes.made h.made
  made' := he'.precedes.made h.made'
  owner := fun s => by rw [he.find?_iff h.made, he'.find?_iff h.made', h.owner]

/-- Once the registries are cleared, no source has either table. -/
theorem Paired.clear (h : r.Paired r' id id') : r.clear.Paired r'.clear id id' where
  made := (precedes_clear r).made h.made
  made' := (precedes_clear r').made h.made'
  owner := fun s => by simp

theorem Agrees.get_eq (h : r.Agrees r') (hp : r.Paired r' id id') :
    r.tables.get id = r'.tables.get id' := by
  by_cases hs : ∃ s, r.find? s = some id
  · obtain ⟨s, hs⟩ := hs
    rw [← contents_of_find? hs, h.contents, contents_of_find? ((hp.owner s).1 hs)]
  · have hbare : ∀ s, r.find? s ≠ some id := fun s hid => hs ⟨s, hid⟩
    have hbare' : ∀ s, r'.find? s ≠ some id' := fun s hid => hs ⟨s, (hp.owner s).2 hid⟩
    rw [h.wellFormed.bare hbare, h.wellFormed'.bare hbare']

/-- What one registry lets pass, no table of the other has a breakpoint for. -/
theorem Agrees.get?_eq_none (h : r.Agrees r') {line : Nat} (hadmits : r.admits line = false)
    (id' : TableId) : (r'.tables.get id').get? line = none := by
  rw [Option.eq_none_iff_forall_ne_some]
  intro b hb
  obtain ⟨s, hs⟩ := h.wellFormed'.exists_source (Table.ne_empty_of_get? hb)
  have hholds : (r.contents s).holds line = true := by
    rw [h.contents, contents_of_find? hs]
    exact Table.holds_iff.2 ⟨b, hb⟩
  rw [h.exact.admits_iff.2 ⟨s, hholds⟩] at hadmits
  cases hadmits

/-- Tables of the same source are paired. -/
theorem Agrees.paired (h : r.Agrees r') (hs : r.find? s = some id) (hs' : r'.find? s = some id') :
    r.Paired r' id id' where
  made := h.wellFormed.made hs
  made' := h.wellFormed'.made hs'
  owner := fun _ => ⟨fun ht => h.wellFormed.unshared hs ht ▸ hs',
    fun ht => h.wellFormed'.unshared hs' ht ▸ hs⟩

/-! ## Each operation -/

theorem agrees_empty : empty.Agrees empty :=
  ⟨fun _ => rfl, rfl, wellFormed_empty, wellFormed_empty, exact_empty⟩

theorem Agrees.intern (h : r.Agrees r') (s : Source) : (r.intern s).2.Agrees (r'.intern s).2 where
  contents := fun t => by rw [contents_intern, contents_intern, h.contents]
  counts := by rw [counts_intern, counts_intern, h.counts]
  wellFormed := h.wellFormed.intern s
  wellFormed' := h.wellFormed'.intern s
  exact := h.exact.intern s

/-- Only one of the registries gives the source a table. -/
theorem Agrees.intern_right (h : r.Agrees r') (s : Source) : r.Agrees (r'.intern s).2 where
  contents := fun t => by rw [contents_intern, h.contents]
  counts := by rw [counts_intern, h.counts]
  wellFormed := h.wellFormed
  wellFormed' := h.wellFormed'.intern s
  exact := h.exact

theorem counts_add (r : Registry) (room : Nat → Bool) (s : Source) (line : Nat) (d : Definition) :
    (r.add room s line d).counts = match r.counts.cover? room line with
      | none => r.counts
      | some c => if (r.contents s).holds line then c else c.increment line := by
  cases hc : r.counts.cover? room line with
  | none => rw [add_of_cover?_eq_none hc]
  | some c => rw [add_of_cover? hc]

theorem Agrees.add (h : r.Agrees r') (room : Nat → Bool) (s : Source) (line : Nat)
    (d : Definition) : (r.add room s line d).Agrees (r'.add room s line d) where
  contents := fun t => by
    rw [h.wellFormed.contents_add, h.wellFormed'.contents_add, h.counts, h.contents, h.contents]
  counts := by rw [counts_add, counts_add, h.counts, h.contents]
  wellFormed := h.wellFormed.add room s line d
  wellFormed' := h.wellFormed'.add room s line d
  exact := h.exact.add h.wellFormed room s line d

theorem Agrees.setAll (h : r.Agrees r') (room : Nat → Bool) (s : Source)
    (placed : List (Nat × Definition)) :
    (placed.foldl (fun r p => r.add room s p.1 p.2) r).Agrees
      (placed.foldl (fun r p => r.add room s p.1 p.2) r') := by
  induction placed generalizing r r' with
  | nil => exact h
  | cons p rest ih => exact ih (h.add room s p.1 p.2)

theorem counts_clearSource (r : Registry) (s : Source) :
    (r.clearSource s).counts = (r.contents s).lines.foldl LineCounts.decrement r.counts := by
  cases hs : r.find? s with
  | none =>
    rw [clearSource_of_find?_eq_none hs, contents_of_find?_eq_none hs]
    rfl
  | some id => rw [clearSource_of_find? hs, contents_of_find? hs]

theorem Agrees.clearSource (h : r.Agrees r') (s : Source) :
    (r.clearSource s).Agrees (r'.clearSource s) where
  contents := fun t => by
    rw [h.wellFormed.contents_clearSource, h.wellFormed'.contents_clearSource, h.contents]
  counts := by rw [counts_clearSource, counts_clearSource, h.counts, h.contents]
  wellFormed := h.wellFormed.clearSource s
  wellFormed' := h.wellFormed'.clearSource s
  exact := h.exact.clearSource h.wellFormed s

theorem Agrees.clear (h : r.Agrees r') : r.clear.Agrees r'.clear :=
  ⟨fun _ => rfl, rfl, h.wellFormed.clear, h.wellFormed'.clear, exact_clear r⟩

theorem Agrees.hit (h : r.Agrees r') (hp : r.Paired r' id id') (line : Nat) :
    (r.hit id line).Agrees (r'.hit id' line) where
  contents := fun s => by
    rw [contents_hit, contents_hit, h.contents]
    simp only [hp.owner s]
  counts := h.counts
  wellFormed := h.wellFormed.hit id line
  wellFormed' := h.wellFormed'.hit id' line
  exact := h.exact.hit id line

/-! ## Bindings -/

theorem Agrees.bind (h : r.Agrees r') (source? : Option Source) :
    (r.bind source?).2.Agrees (r'.bind source?).2 := by
  cases source? with
  | none => exact h
  | some s => exact h.intern s

theorem Agrees.bind_right (h : r.Agrees r') (source? : Option Source) :
    r.Agrees (r'.bind source?).2 := by
  cases source? with
  | none => exact h
  | some s => exact h.intern_right s

/-- The bindings are to the same source, and to paired tables. -/
inductive PairedBindings (r r' : Registry) : Option Binding → Option Binding → Prop where
  | none : PairedBindings r r' none none
  | some {s : Source} {id id' : TableId} (h : r.Paired r' id id') :
    PairedBindings r r' (some ⟨s, id⟩) (some ⟨s, id'⟩)

theorem Agrees.live_bind (h : r.Agrees r') (source? : Option Source) :
    PairedBindings (r.bind source?).2 (r'.bind source?).2
      ((r.bind source?).2.live (r.bind source?).1)
      ((r'.bind source?).2.live (r'.bind source?).1) := by
  cases source? with
  | none => exact .none
  | some s =>
    have hpaired : (r.intern s).2.Paired (r'.intern s).2 (r.intern s).1 (r'.intern s).1 :=
      (h.intern s).paired (find?_intern_self r s) (find?_intern_self r' s)
    have hget := (h.intern s).get_eq hpaired
    simp only [Registry.bind, live, Option.filter_some, hget]
    split
    · exact .some hpaired
    · exact .none

/-! ## Dialogues -/

section Dialogues

variable {α : Type}

theorem extends_proceed (r : Registry) (id : TableId) (line : Nat) (d : Dialogue α) :
    r.Extends { r with tables := (d.proceed id line r.tables).tables } := by
  induction d generalizing r with
  | done | evaluate | display => exact ⟨.refl r, .refl r⟩
  | hit next ih => exact (extends_hit r id line).trans (ih _ (r.hit id line))
  | print channel text next ih => exact ih r
  | note notice next ih => exact ih r

/-- A dialogue cannot tell registries that agree apart. -/
theorem Agrees.proceed (h : r.Agrees r') (hp : r.Paired r' id id') (line : Nat)
    (d : Dialogue α) :
    let progress := d.proceed id line r.tables
    let progress' := d.proceed id' line r'.tables
    Agrees { r with tables := progress.tables } { r' with tables := progress'.tables } ∧
      progress.standing = progress'.standing ∧
      progress.events.filter Event.shown = progress'.events.filter Event.shown := by
  induction d generalizing r r' with
  | done | evaluate | display => exact ⟨h, rfl, rfl⟩
  | hit next ih =>
    have hhits : (Dialogue.countHit id line r.tables).1 =
        (Dialogue.countHit id' line r'.tables).1 := by
      have hget := h.get_eq hp
      cases hb : (r.tables.get id).get? line with
      | none =>
        rw [countHit_of_get?_eq_none id line hb, countHit_of_get?_eq_none id' line (hget ▸ hb)]
      | some b => rw [countHit_of_get? id line hb, countHit_of_get? id' line (hget ▸ hb)]
    have hpaired : (r.hit id line).Paired (r'.hit id' line) id id' :=
      hp.mono (extends_hit r id line) (extends_hit r' id' line)
    obtain ⟨hagrees, hstanding, hshown⟩ :=
      ih (Dialogue.countHit id line r.tables).1 (h.hit hp line) hpaired
    simp only [Dialogue.proceed, Dialogue.Progress.after, List.filter_append,
      Dialogue.filter_shown_hitEvents, ← hhits]
    exact ⟨hagrees, hstanding, hshown⟩
  | print channel text next ih =>
    obtain ⟨hagrees, hstanding, hshown⟩ := ih h hp
    refine ⟨hagrees, hstanding, ?_⟩
    simp only [Dialogue.proceed, Dialogue.Progress.after, List.filter_append, hshown]
  | note notice next ih =>
    obtain ⟨hagrees, hstanding, hshown⟩ := ih h hp
    refine ⟨hagrees, hstanding, ?_⟩
    simp only [Dialogue.proceed, Dialogue.Progress.after, List.filter_append, hshown]

end Dialogues

end Registry

end Breakpoints

import Breakpoints.Proofs.Registry.Counts
import Mathlib.Data.Finset.Prod

/-!
# A registry is a flat map

A flat map keeps the breakpoints of all sources by place, that is by source and
line, and notes which sources it knows and how many lines it covers. Whatever is done
to a registry, its tables show what the flat map shows (`performed_flat`): every
operation does to both what its name says (`FlatMap.perform`). A source is known if it
was looked up or got a breakpoint since all breakpoints were last removed
(`mem_known_iff`).
-/

namespace Breakpoints

open Breakpoint (maxHits)

/-- What can be done to a registry. -/
inductive Operation where
  /-- There is `room` for some numbers of counted lines. -/
  | add (room : Nat → Bool) (source : Source) (line : Nat) (definition : Definition)
  | clearSource (source : Source)
  | clear
  | lookup (source : Source)
  | get (source : Source)
  /-- A hit is recorded in the table of the source, if it has one. -/
  | hit (source : Source) (line : Nat)

namespace Registry

/-- Records a hit at a line of a source, and tells the new number of hits. -/
def recordHit (s : Source) (line : Nat) (r : Registry) : Option Nat × Registry :=
  match r.find? s with
  | none => (none, r)
  | some id => ((Dialogue.countHit id line r.tables).1, r.hit id line)

def perform (r : Registry) : Operation → Registry
  | .add room s line d => r.add room s line d
  | .clearSource s => r.clearSource s
  | .clear => r.clear
  | .lookup s => (r.intern s).2
  | .get _ => r
  | .hit s line => (r.recordHit s line).2

/-- The registry after some operations, starting from the empty one. -/
def performed (ops : List Operation) : Registry := ops.foldl perform empty

end Registry

/-- The breakpoints of all sources by place, the sources that are known, and the number
of lines that are covered. -/
structure FlatMap where
  at? : Source × Nat → Option Breakpoint
  known : Finset Source
  covered : Nat

namespace FlatMap

def empty : FlatMap := ⟨fun _ => none, ∅, 0⟩

/-- Whether a breakpoint can be set at a line. -/
def fits (m : FlatMap) (room : Nat → Bool) (line : Nat) : Bool :=
  line < m.covered || line + 1 < LineCounts.sizeLimit && room (line + 1)

/-- A text as it is kept: an empty one is absent. -/
def keptText (text? : Option String) : Option String := if text? = some "" then none else text?

/-- A breakpoint as it is kept, with the hits of the one it replaces. -/
def keptBreakpoint (d : Definition) (replaced? : Option Breakpoint) : Breakpoint where
  condition := keptText d.condition
  hitCondition := keptText d.hitCondition
  logMessage := keptText d.logMessage
  hits := replaced?.elim 0 (·.hits)

def perform (m : FlatMap) : Operation → FlatMap
  | .add room s line d =>
    if m.fits room line then
      { at? := Function.update m.at? (s, line) (some (keptBreakpoint d (m.at? (s, line))))
        known := insert s m.known
        covered := max m.covered (line + 1) }
    else m
  | .clearSource s => { m with at? := fun place => if place.1 = s then none else m.at? place }
  | .clear => empty
  | .lookup s => { m with known := insert s m.known }
  | .get _ => m
  | .hit s line =>
    { m with
      at? := Function.update m.at? (s, line)
        ((m.at? (s, line)).map fun b => { b with hits := min (b.hits + 1) maxHits }) }

/-- The flat map after some operations, starting from the empty one. -/
def performed (ops : List Operation) : FlatMap := ops.foldl perform empty

@[simp] theorem performed_nil : performed [] = empty := rfl

@[simp] theorem performed_concat (ops : List Operation) (op : Operation) :
    performed (ops ++ [op]) = (performed ops).perform op := List.foldl_concat ..

end FlatMap

namespace Registry

@[simp] theorem performed_nil : performed [] = empty := rfl

@[simp] theorem performed_concat (ops : List Operation) (op : Operation) :
    performed (ops ++ [op]) = (performed ops).perform op := List.foldl_concat ..

end Registry

/-! ## Which sources are known -/

/-- Whether the operation makes a source known. -/
def Operation.Introduces (s : Source) (m : FlatMap) : Operation → Prop
  | .add room s' line _ => s' = s ∧ m.fits room line = true
  | .lookup s' => s' = s
  | _ => False

/-- Some operation made the source known, and no later one removed all breakpoints. -/
def Introduced (ops : List Operation) (s : Source) : Prop :=
  ∃ before op after, ops = before ++ op :: after ∧ (∀ later ∈ after, later ≠ .clear) ∧
    op.Introduces s (.performed before)

theorem introduced_concat {ops : List Operation} {op : Operation} {s : Source} :
    Introduced (ops ++ [op]) s ↔
      op.Introduces s (.performed ops) ∨ op ≠ .clear ∧ Introduced ops s := by
  constructor
  · rintro ⟨before, first, after, hsplit, hlater, hfirst⟩
    rcases List.eq_nil_or_concat after with rfl | ⟨butLast, last, hafter⟩
    · obtain ⟨rfl, hop⟩ := List.append_inj' hsplit rfl
      cases hop
      exact .inl hfirst
    · rw [List.concat_eq_append] at hafter
      subst hafter
      have hsame : ops ++ [op] = (before ++ first :: butLast) ++ [last] := by simpa using hsplit
      obtain ⟨rfl, hop⟩ := List.append_inj' hsame rfl
      cases hop
      obtain ⟨hbutLast, hlast⟩ := List.forall_mem_append.1 hlater
      exact .inr ⟨hlast op List.mem_cons_self, before, first, butLast, rfl, hbutLast, hfirst⟩
  · rintro (hop | ⟨hne, before, first, after, rfl, hlater, hfirst⟩)
    · exact ⟨ops, op, [], rfl, fun _ h => (List.not_mem_nil h).elim, hop⟩
    · refine ⟨before, first, after ++ [op], by simp, ?_, hfirst⟩
      exact List.forall_mem_append.2 ⟨hlater, List.forall_mem_singleton.2 hne⟩

namespace FlatMap

variable {m : FlatMap} {s : Source} {line : Nat}

theorem mem_known_perform {op : Operation} :
    s ∈ (m.perform op).known ↔ op.Introduces s m ∨ op ≠ .clear ∧ s ∈ m.known := by
  cases op with
  | add room s' line d =>
    simp only [perform, Operation.Introduces]
    split
    · next hfits => simp [hfits, eq_comm]
    · next hfits => simp [hfits]
  | clear => simp [perform, Operation.Introduces, empty]
  | lookup s' => simp [perform, Operation.Introduces, eq_comm]
  | clearSource | get | hit => simp [perform, Operation.Introduces]

/-- A source is known if something made it known since the last clearing. -/
theorem mem_known_iff (ops : List Operation) :
    s ∈ (performed ops).known ↔ Introduced ops s := by
  induction ops using List.reverseRecOn with
  | nil => simp [Introduced, empty]
  | append_singleton ops op ih =>
    rw [performed_concat, mem_known_perform, introduced_concat, ih]

/-! ## How much a flat map holds -/

/-- Breakpoints are at covered lines of known sources. -/
def Bounded (m : FlatMap) : Prop :=
  ∀ s line, m.at? (s, line) ≠ none → s ∈ m.known ∧ line < m.covered

theorem Bounded.perform (h : m.Bounded) (op : Operation) : (m.perform op).Bounded := by
  intro s line hne
  cases op with
  | add room s' line' d =>
    simp only [FlatMap.perform] at hne ⊢
    split at hne
    · next hfits =>
      rw [if_pos hfits]
      by_cases hplace : (s, line) = (s', line')
      · cases hplace
        exact ⟨Finset.mem_insert_self s m.known, by dsimp only; omega⟩
      · have hbefore : m.at? (s, line) ≠ none := by rwa [← Function.update_of_ne hplace _ m.at?]
        obtain ⟨hknown, hcovered⟩ := h s line hbefore
        exact ⟨Finset.mem_insert_of_mem hknown, by dsimp only; omega⟩
    · next hfits =>
      rw [if_neg hfits]
      exact h s line hne
  | clearSource s' =>
    simp only [FlatMap.perform] at hne
    split at hne
    · exact absurd rfl hne
    · exact h s line hne
  | clear => exact absurd rfl hne
  | lookup s' =>
    obtain ⟨hknown, hcovered⟩ := h s line hne
    exact ⟨Finset.mem_insert_of_mem hknown, hcovered⟩
  | get => exact h s line hne
  | hit s' line' =>
    apply h s line
    intro hnone
    apply hne
    simp only [FlatMap.perform]
    by_cases hplace : (s, line) = (s', line')
    · cases hplace
      rw [Function.update_self, hnone, Option.map_none]
    · rw [Function.update_of_ne hplace, hnone]

theorem bounded_performed (ops : List Operation) : (performed ops).Bounded := by
  induction ops using List.reverseRecOn with
  | nil => exact fun _ _ h => absurd rfl h
  | append_singleton ops op ih =>
    rw [performed_concat]
    exact ih.perform op

/-- An operation adds at most one to a count of hits. -/
theorem hits_perform_le {op : Operation} {place : Source × Nat} {n : Nat}
    (h : ∀ b, m.at? place = some b → b.hits ≤ n) {b : Breakpoint}
    (hb : (m.perform op).at? place = some b) : b.hits ≤ n + 1 := by
  have hkept (hb : m.at? place = some b) : b.hits ≤ n + 1 := Nat.le_succ_of_le (h b hb)
  cases op with
  | add room s line d =>
    simp only [perform] at hb
    split at hb
    · dsimp only at hb
      by_cases hplace : place = (s, line)
      · subst hplace
        rw [Function.update_self] at hb
        cases hb
        cases hold : m.at? (s, line) with
        | none => exact Nat.zero_le _
        | some old => exact Nat.le_succ_of_le (h old hold)
      · rw [Function.update_of_ne hplace] at hb
        exact hkept hb
    · exact hkept hb
  | clearSource s =>
    simp only [perform] at hb
    split at hb
    · cases hb
    · exact hkept hb
  | clear => cases hb
  | lookup | get => exact hkept hb
  | hit s line =>
    simp only [perform] at hb
    by_cases hplace : place = (s, line)
    · subst hplace
      rw [Function.update_self] at hb
      obtain ⟨old, hold, rfl⟩ := Option.map_eq_some_iff.1 hb
      have hless := h old hold
      dsimp only
      omega
    · rw [Function.update_of_ne hplace] at hb
      exact hkept hb

theorem hits_performed_le (ops : List Operation) {place : Source × Nat} {b : Breakpoint}
    (hb : (performed ops).at? place = some b) : b.hits ≤ ops.length := by
  induction ops using List.reverseRecOn generalizing b with
  | nil => cases hb
  | append_singleton ops op ih =>
    rw [performed_concat] at hb
    rw [List.length_append]
    exact hits_perform_le (fun _ => ih) hb

theorem Bounded.finite (h : m.Bounded) : {place | m.at? place ≠ none}.Finite := by
  apply (m.known ×ˢ Finset.range m.covered).finite_toSet.subset
  rintro ⟨s, line⟩ hne
  obtain ⟨hknown, hcovered⟩ := h s line hne
  simp [hknown, hcovered]

end FlatMap

/-! ## Each operation -/

theorem nonempty_eq_keptText (text? : Option String) :
    nonempty text? = FlatMap.keptText text? := by
  cases text? with
  | none => rfl
  | some text => by_cases h : text = "" <;> simp [nonempty, FlatMap.keptText, h]

theorem Table.get?_define_self (t : Table) (line : Nat) (d : Definition) :
    (t.define line d).get? line = some (FlatMap.keptBreakpoint d (t.get? line)) := by
  rw [get?_define, if_pos rfl]
  simp only [Breakpoint.ofDefinition, FlatMap.keptBreakpoint, nonempty_eq_keptText, hits?]
  cases t.get? line <;> rfl

theorem LineCounts.isSome_cover? {c : LineCounts} {m : FlatMap} (h : c.size = m.covered)
    (room : Nat → Bool) (line : Nat) : (c.cover? room line).isSome = m.fits room line := by
  unfold cover? FlatMap.fits
  rw [h]
  by_cases hcovered : line < m.covered
  · simp [hcovered]
  · simp only [hcovered, if_false, decide_false, Bool.false_or]
    split <;> simp_all

namespace Registry

variable {r : Registry} {m : FlatMap} {s : Source} {id : TableId}

/-- The registry shows what the flat map shows. -/
structure Shows (r : Registry) (m : FlatMap) : Prop where
  wellFormed : r.WellFormed
  contents : ∀ s line, (r.contents s).get? line = m.at? (s, line)
  known : ∀ s, r.find? s = none ↔ s ∉ m.known
  count : r.sources.length = m.known.card
  covered : r.counts.size = m.covered

theorem shows_empty : empty.Shows .empty where
  wellFormed := wellFormed_empty
  contents := fun _ _ => rfl
  known := fun s => by simp [FlatMap.empty]
  count := rfl
  covered := rfl

theorem find?_intern_eq_none_iff {s' : Source} :
    (r.intern s).2.find? s' = none ↔ s' ≠ s ∧ r.find? s' = none := by
  rw [find?_intern]
  split
  · next he => simp [he]
  · next hne => simp [hne]

theorem Shows.length_sources_intern (h : r.Shows m) (s : Source) :
    (r.intern s).2.sources.length = (insert s m.known).card := by
  cases hs : r.find? s with
  | some id =>
    have hknown : s ∈ m.known := by
      by_contra hnot
      rw [(h.known s).2 hnot] at hs
      cases hs
    rw [fst_intern hs, Finset.insert_eq_of_mem hknown, h.count]
  | none =>
    rw [intern_of_find?_eq_none hs, Finset.card_insert_of_notMem ((h.known s).1 hs), ← h.count]
    exact List.length_append

theorem Shows.intern (h : r.Shows m) (s : Source) :
    (r.intern s).2.Shows { m with known := insert s m.known } where
  wellFormed := h.wellFormed.intern s
  contents := fun s' line => by rw [contents_intern, h.contents]
  known := fun s' => by rw [find?_intern_eq_none_iff, h.known, Finset.mem_insert, not_or]
  count := h.length_sources_intern s
  covered := by rw [counts_intern, h.covered]

theorem Shows.add (h : r.Shows m) (room : Nat → Bool) (s : Source) (line : Nat) (d : Definition) :
    (r.add room s line d).Shows (m.perform (.add room s line d)) := by
  have hfits := LineCounts.isSome_cover? h.covered room line
  cases hc : r.counts.cover? room line with
  | none =>
    rw [hc] at hfits
    have hsame : m.perform (.add room s line d) = m := by simp [FlatMap.perform, ← hfits]
    rw [hsame, add_of_cover?_eq_none hc]
    exact h
  | some c =>
    rw [hc] at hfits
    have hstep : m.perform (.add room s line d) =
        { at? := Function.update m.at? (s, line)
            (some (FlatMap.keptBreakpoint d (m.at? (s, line))))
          known := insert s m.known
          covered := max m.covered (line + 1) } := by simp [FlatMap.perform, ← hfits]
    have hinterned := h.intern s
    rw [hstep]
    constructor
    · exact h.wellFormed.add room s line d
    · intro s' l
      rw [h.wellFormed.contents_add, hc]
      by_cases hs : s' = s
      · subst hs
        by_cases hl : l = line
        · subst hl
          simp [Table.get?_define_self, h.contents]
        · simp [Table.get?_define, hl, h.contents]
      · simp [hs, h.contents]
    · intro s'
      rw [add_of_cover? hc, find?_write]
      exact hinterned.known s'
    · rw [add_of_cover? hc]
      exact hinterned.count
    · rw [size_counts_add hc, h.covered]

theorem Shows.clearSource (h : r.Shows m) (s : Source) :
    (r.clearSource s).Shows (m.perform (.clearSource s)) where
  wellFormed := h.wellFormed.clearSource s
  contents := fun s' line => by
    rw [h.wellFormed.contents_clearSource]
    simp only [FlatMap.perform]
    split
    · rfl
    · exact h.contents s' line
  known := fun s' => by rw [find?_clearSource]; exact h.known s'
  count := by
    unfold Registry.clearSource
    split <;> exact h.count
  covered := (size_counts_clearSource r s).trans h.covered

theorem Shows.clear (h : r.Shows m) : r.clear.Shows (m.perform .clear) where
  wellFormed := h.wellFormed.clear
  contents := fun _ _ => rfl
  known := fun s => by simp [FlatMap.perform, FlatMap.empty]
  count := rfl
  covered := rfl

theorem recordHit_of_find? (hs : r.find? s = some id) (line : Nat) :
    r.recordHit s line = ((Dialogue.countHit id line r.tables).1, r.hit id line) := by
  simp only [recordHit, hs]

theorem recordHit_of_find?_eq_none (hs : r.find? s = none) (line : Nat) :
    r.recordHit s line = (none, r) := by
  simp only [recordHit, hs]

/-- A hit is recorded exactly if there is a breakpoint to hit. -/
theorem fst_recordHit (r : Registry) (s : Source) (line : Nat) :
    (r.recordHit s line).1 =
      ((r.contents s).get? line).map fun b => min (b.hits + 1) maxHits := by
  cases hs : r.find? s with
  | none =>
    rw [recordHit_of_find?_eq_none hs, contents_of_find?_eq_none hs]
    rfl
  | some id =>
    rw [recordHit_of_find? hs, contents_of_find? hs]
    cases hb : (r.tables.get id).get? line with
    | none => rw [countHit_of_get?_eq_none id line hb]; rfl
    | some b => rw [countHit_of_get? id line hb]; rfl

theorem WellFormed.contents_recordHit (h : r.WellFormed) (s : Source) (line : Nat) (s' : Source) :
    (r.recordHit s line).2.contents s' =
      if s' = s then (r.contents s).hit line else r.contents s' := by
  cases hs : r.find? s with
  | none =>
    rw [recordHit_of_find?_eq_none hs, contents_of_find?_eq_none hs, Table.hit_empty]
    split
    · next he => rw [he, contents_of_find?_eq_none hs]
    · rfl
  | some id =>
    rw [recordHit_of_find? hs, contents_hit]
    by_cases he : s' = s
    · simp [he, hs]
    · have hother : r.find? s' ≠ some id := fun hs' => he (h.unshared hs' hs)
      simp [he, hother]

theorem Shows.recordHit (h : r.Shows m) (s : Source) (line : Nat) :
    (r.recordHit s line).2.Shows (m.perform (.hit s line)) := by
  have hsame : (r.recordHit s line).2.sources = r.sources ∧
      (r.recordHit s line).2.counts = r.counts := by
    unfold Registry.recordHit
    split <;> exact ⟨rfl, rfl⟩
  constructor
  · unfold Registry.recordHit
    split
    · exact h.wellFormed
    · exact h.wellFormed.hit _ line
  · intro s' l
    rw [h.wellFormed.contents_recordHit]
    simp only [FlatMap.perform]
    by_cases hs : s' = s
    · subst hs
      rw [if_pos rfl, Table.get?_hit, h.contents, h.contents]
      by_cases hl : l = line
      · subst hl
        rw [if_pos rfl, Function.update_self]
        rfl
      · rw [if_neg hl, Function.update_of_ne (fun he => hl (congrArg Prod.snd he))]
    · rw [if_neg hs, h.contents, Function.update_of_ne (fun he => hs (congrArg Prod.fst he))]
  · intro s'
    rw [find?, hsame.1]
    exact h.known s'
  · rw [hsame.1]
    exact h.count
  · rw [hsame.2]
    exact h.covered

theorem Shows.perform (h : r.Shows m) (op : Operation) : (r.perform op).Shows (m.perform op) := by
  cases op with
  | add room s line d => exact h.add room s line d
  | clearSource s => exact h.clearSource s
  | clear => exact h.clear
  | lookup s => exact h.intern s
  | get => exact h
  | hit s line => exact h.recordHit s line

theorem shows_performed (ops : List Operation) : (performed ops).Shows (.performed ops) := by
  induction ops using List.reverseRecOn with
  | nil => exact shows_empty
  | append_singleton ops op ih =>
    rw [performed_concat, FlatMap.performed_concat]
    exact ih.perform op

end Registry

/-! ## What a registry shows -/

/-- A table has as many entries as lines that hold a breakpoint. -/
theorem Table.encard_lines (t : Table) : {line | t.get? line ≠ none}.encard = t.size := by
  have hset : {line | t.get? line ≠ none} = (t.lines.toFinset : Set Nat) := by
    ext line
    simp [Table.mem_lines_iff, Table.holds, Option.isSome_iff_ne_none]
  rw [hset, Set.encard_coe_eq_coe_finsetCard, List.toFinset_card_of_nodup t.nodup_lines]
  simp [Table.lines, Table.size]

namespace Registry

/-- **A registry is a flat map.** After any operations the tables of a registry hold
what the flat map holds, which is finitely much, and a breakpoint fits at a line of the
one exactly if it fits there in the other. A hit is recorded exactly if there is a
breakpoint to hit, and in a table that no source has there is none; it adds one unless
the count is at its maximum, which takes as many operations. A source has a table
exactly if something made it known since all breakpoints were last removed, and the
entries of its table are those of the flat map in the order of their lines. -/
theorem performed_flat (ops : List Operation) :
    let r := performed ops
    let m := FlatMap.performed ops
    {place | m.at? place ≠ none}.Finite ∧
      (∀ room line, (r.counts.cover? room line).isSome = m.fits room line) ∧
      (∀ s line, (r.recordHit s line).1 =
        (m.at? (s, line)).map fun b => min (b.hits + 1) maxHits) ∧
      (∀ place b, m.at? place = some b → b.hits ≤ ops.length) ∧
      (∀ id line, (∀ s, r.find? s ≠ some id) →
        Dialogue.countHit id line r.tables = (none, r.tables)) ∧
      (∀ s, r.find? s = none ↔ ¬Introduced ops s) ∧
      (r.sources.length : ℕ∞) = {s | Introduced ops s}.encard ∧
      ∀ s, (r.intern s).2.tables.get (r.intern s).1 = r.contents s ∧
        (∀ line, (r.contents s).get? line = m.at? (s, line)) ∧
        (∀ line b, (line, b) ∈ (r.contents s).entries ↔ m.at? (s, line) = some b) ∧
        (r.contents s).entries.Pairwise (fun a b => a.1 < b.1) ∧
        ((r.contents s).size : ℕ∞) = {line | m.at? (s, line) ≠ none}.encard ∧
        ((r.contents s).isEmpty = true ↔ ∀ line, m.at? (s, line) = none) := by
  intro r m
  have hshows : r.Shows m := shows_performed ops
  have hknown : {s | Introduced ops s} = (m.known : Set Source) := by
    ext s
    exact (FlatMap.mem_known_iff ops).symm
  refine ⟨(FlatMap.bounded_performed ops).finite, LineCounts.isSome_cover? hshows.covered,
    ?_, fun _ _ => FlatMap.hits_performed_le ops, ?_, ?_, ?_, ?_⟩
  · intro s line
    rw [fst_recordHit, hshows.contents]
  · intro id line hbare
    apply countHit_of_get?_eq_none
    rw [hshows.wellFormed.bare hbare, Table.get?_empty]
  · intro s
    rw [hshows.known, FlatMap.mem_known_iff]
  · rw [hknown, Set.encard_coe_eq_coe_finsetCard, hshows.count]
  · intro s
    refine ⟨?_, hshows.contents s, ?_, (r.contents s).sorted, ?_, ?_⟩
    · rw [← contents_of_find? (find?_intern_self r s), contents_intern]
    · intro line b
      rw [Table.mem_entries_iff, hshows.contents]
    · simp only [← hshows.contents]
      exact (Table.encard_lines _).symm
    · simp only [← hshows.contents]
      exact Table.isEmpty_iff_get?

/-- A replaced breakpoint keeps its hits; that of another source with the same line is a
breakpoint of its own. -/
example :
    let room := fun _ => true
    let r := performed [.add room (.path "a") 3 { condition := some "x" }, .hit (.path "a") 3,
      .add room (.handle 3) 3 {}, .clearSource (.handle 3),
      .add room (.path "a") 3 { condition := some "", logMessage := some "y" }]
    (r.contents (.path "a")).entries = [(3, ⟨none, none, some "y", 1⟩)] ∧
      r.sources.length = 2 := by
  decide +kernel

end Registry

end Breakpoints

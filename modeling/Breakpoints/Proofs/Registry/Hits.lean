import Breakpoints.Proofs.Registry.History
import Mathlib.Data.List.DropRight

/-!
# The hits of a breakpoint

Every hit is seen when it is counted, and so is the adding of a breakpoint where
there was none. In every registry that arises the count of a breakpoint is the
number of hits seen on it since (`Arises.accounts`): none is lost and none is
counted twice, whoever shares the table. The number that is seen of a hit is the
ordinal of that hit (`Arises.ordinal_of_hit`).
-/

namespace Breakpoints

open Breakpoint (maxHits)

/-- Whether the event is a hit at that line of that table. -/
def Event.isHitAt (id : TableId) (line : Nat) : Event → Bool
  | .hit id' line' _ => id' == id && line' == line
  | _ => false

/-- The hits at a line of a table since the source that it belongs to last got a
breakpoint there where it had none. -/
def hitsSinceAdded (s : Source) (id : TableId) (line : Nat) (history : List Event) : Nat :=
  (history.rtakeWhile fun e => e != .noted (.added s line)).countP (Event.isHitAt id line)

section Counting

variable {s : Source} {id : TableId} {line : Nat} {history : List Event} {e : Event}

@[simp] theorem hitsSinceAdded_added :
    hitsSinceAdded s id line (history ++ [.noted (.added s line)]) = 0 := by
  simp [hitsSinceAdded]

theorem hitsSinceAdded_concat (he : e ≠ .noted (.added s line)) :
    hitsSinceAdded s id line (history ++ [e]) =
      hitsSinceAdded s id line history + if e.isHitAt id line = true then 1 else 0 := by
  simp [hitsSinceAdded, he, List.countP_append]

@[simp] theorem hitsSinceAdded_hit (hits : Nat) :
    hitsSinceAdded s id line (history ++ [.hit id line hits]) =
      hitsSinceAdded s id line history + 1 := by
  rw [hitsSinceAdded_concat (fun h => by cases h)]
  simp [Event.isHitAt]

/-- No other events matter. -/
theorem hitsSinceAdded_other (he : e ≠ .noted (.added s line)) (hhit : e.isHitAt id line = false) :
    hitsSinceAdded s id line (history ++ [e]) = hitsSinceAdded s id line history := by
  rw [hitsSinceAdded_concat he, hhit]
  rfl

end Counting

namespace Registry

variable {r r' : Registry} {history : List Event} {s : Source} {id : TableId} {line : Nat}
  {b : Breakpoint}

/-- The count of every breakpoint is the number of hits seen since it was added, as
far as hits are counted. -/
def Accounts (history : List Event) (r : Registry) : Prop :=
  ∀ {s id line b}, r.find? s = some id → (r.contents s).get? line = some b →
    b.hits = min (hitsSinceAdded s id line history) maxHits

theorem addNotice_of_cover? {room : Nat → Bool} {c : LineCounts}
    (h : r.counts.cover? room line = some c) (s : Source) :
    r.addNotice room s line =
      if (r.contents s).holds line then .replaced s line else .added s line := by
  simp only [addNotice, h]

/-! ## Each step -/

theorem accounts_empty : empty.Accounts [] := fun hs _ => by cases hs

/-- A breakpoint that the source had before was in the table that it still has. -/
theorem Accounts.before (h : r.Accounts history) (hk : r.Keeps r') (hs : r'.find? s = some id)
    (hb : (r.contents s).get? line = some b) :
    b.hits = min (hitsSinceAdded s id line history) maxHits := by
  obtain ⟨id₀, hid₀, -⟩ := exists_find?_of_contents_ne_empty (Table.ne_empty_of_get? hb)
  have hsame : id₀ = id := Option.some.inj ((hk s id₀ hid₀).symm.trans hs)
  exact h (hsame ▸ hid₀) hb

theorem Accounts.add (h : r.Accounts history) (hw : r.WellFormed) (room : Nat → Bool) (s : Source)
    (line : Nat) (d : Definition) :
    (r.add room s line d).Accounts (history ++ [.noted (r.addNotice room s line)]) := by
  intro s' id l b hs hb
  have hbefore {b : Breakpoint} (hb : (r.contents s').get? l = some b) :=
    h.before (keeps_add r room s line d) hs hb
  cases hc : r.counts.cover? room line with
  | none =>
    rw [add_of_cover?_eq_none hc] at hb
    rw [hitsSinceAdded_other (by simp [addNotice, hc]) rfl]
    exact hbefore hb
  | some c =>
    rw [addNotice_of_cover? hc]
    rw [hw.contents_add, hc] at hb
    by_cases hplace : s' = s ∧ l = line
    · obtain ⟨rfl, rfl⟩ := hplace
      simp only [Option.isSome_some, and_self, if_true, Table.get?_define, Option.some_inj] at hb
      subst hb
      cases hheld : (r.contents s').get? l with
      | none => simp [Table.holds, Table.hits?, hheld]
      | some b₀ =>
        -- Setting the breakpoint anew takes over its hits.
        rw [hitsSinceAdded_other (by simp [Table.holds, hheld]) (by simp [Event.isHitAt])]
        simpa [Table.hits?, hheld] using hbefore hheld
    · have hsame : (r.contents s').get? l = some b := by
        rw [← hb]
        split
        · next hs =>
          have hl : l ≠ line := fun hl => hplace ⟨hs.2, hl⟩
          rw [Table.get?_define, if_neg hl, hs.2]
        · rfl
      have hother :
          Event.noted (if (r.contents s).holds line then .replaced s line else .added s line) ≠
            .noted (.added s' l) := by
        intro he
        split at he
        · cases he
        · cases he
          exact hplace ⟨rfl, rfl⟩
      rw [hitsSinceAdded_other hother rfl]
      exact hbefore hsame

theorem Accounts.clearSource (h : r.Accounts history) (hw : r.WellFormed) (s : Source) :
    (r.clearSource s).Accounts (history ++ (r.clearSourceNotices s).map .noted) := by
  intro s' id l b hs hb
  have hcount : hitsSinceAdded s' id l (history ++ (r.clearSourceNotices s).map .noted) =
      hitsSinceAdded s' id l history := by
    unfold clearSourceNotices
    split
    · simp
    · exact hitsSinceAdded_other (fun he => by cases he) rfl
  rw [hcount]
  rw [hw.contents_clearSource] at hb
  split at hb
  · cases hb
  · exact h.before (keeps_clearSource r s) hs hb

theorem accounts_clear (r : Registry) (history : List Event) : r.clear.Accounts history :=
  fun hs _ => by cases hs

theorem Accounts.lookup (h : r.Accounts history) (s : Source) :
    (r.intern s).2.Accounts history := by
  intro s' id l b hs hb
  rw [contents_intern] at hb
  exact h.before (keeps_intern r s) hs hb

theorem Accounts.silent (h : r.Accounts history) {e : Event} (he : e.silent = true) :
    r.Accounts (history ++ [e]) := by
  intro s id line b hs hb
  have hadded : e ≠ .noted (.added s line) := by
    rintro rfl
    cases he
  have hhit : e.isHitAt id line = false := by
    cases e with
    | hit => cases he
    | _ => rfl
  rw [hitsSinceAdded_other hadded hhit]
  exact h hs hb

/-- A hit changes the count of the one breakpoint that it is seen on. -/
theorem Accounts.hit (h : r.Accounts history) (held : (r.tables.get id).get? line = some b) :
    (r.hit id line).Accounts (history ++ [.hit id line b.hit.hits]) := by
  intro s id' l b' hs hb
  rw [find?_hit] at hs
  rw [contents_hit] at hb
  by_cases hplace : id' = id ∧ l = line
  · obtain ⟨rfl, rfl⟩ := hplace
    have hheld : (r.contents s).get? l = some b := by rw [contents_of_find? hs, held]
    have hcount := h hs hheld
    rw [if_pos hs, Table.get?_hit, if_pos rfl, hheld, Option.map_some, Option.some_inj] at hb
    rw [← hb, hitsSinceAdded_hit]
    simp only [Breakpoint.hit, hcount]
    omega
  · have hsame : (r.contents s).get? l = some b' := by
      rw [← hb]
      split
      · next hid =>
        have hl : l ≠ line := fun hl => hplace ⟨Option.some.inj (hs.symm.trans hid), hl⟩
        rw [Table.get?_hit, if_neg hl]
      · rfl
    have hhit : (Event.hit id line b.hit.hits).isHitAt id' l = false := by
      simp only [Event.isHitAt, Bool.and_eq_false_iff, beq_eq_false_iff_ne]
      by_contra hn
      simp only [not_or, not_not] at hn
      exact hplace ⟨hn.1.symm, hn.2.symm⟩
    rw [hitsSinceAdded_other (fun he => by cases he) hhit]
    exact h hs hsame

/-- Setting a breakpoint anew keeps its hits, and those of all others. -/
theorem WellFormed.hits?_add (h : r.WellFormed) {hits : Nat}
    (hb : (r.contents s).hits? line = some hits) (room : Nat → Bool) (s' : Source) (line' : Nat)
    (d : Definition) : ((r.add room s' line' d).contents s).hits? line = some hits := by
  rw [h.contents_add]
  split
  · next hs =>
    rw [Table.hits?_define, ← hs.2]
    split
    · next hl => rw [← hl, hb]; rfl
    · exact hb
  · exact hb

theorem WellFormed.hits?_setAll (h : r.WellFormed) {hits : Nat}
    (hb : (r.contents s).hits? line = some hits) (room : Nat → Bool) (s' : Source)
    (placed : List (Nat × Definition)) :
    ((placed.foldl (fun r p => r.add room s' p.1 p.2) r).contents s).hits? line = some hits := by
  induction placed generalizing r with
  | nil => exact hb
  | cons p rest ih => exact ih (h.add room s' p.1 p.2) (h.hits?_add hb room s' p.1 p.2)

/-! ## Every registry that arises -/

/-- **No hit is lost and none is counted twice.** -/
theorem Arises.accounts (h : Arises history r) : r.Accounts history := by
  induction h with
  | refl => exact accounts_empty
  | step before h ih =>
    cases h with
    | add room s line d => exact ih.add (Arises.wellFormed before) room s line d
    | clearSource s => exact ih.clearSource (Arises.wellFormed before) s
    | clear => exact accounts_clear _ _
    | lookup s =>
      rw [List.append_nil]
      exact ih.lookup s
    | hit held => exact ih.hit held
    | silent h => exact ih.silent h

theorem Step.held_of_hit {hits : Nat} (h : r.Step [.hit id line hits] r') :
    ∃ b, (r.tables.get id).get? line = some b ∧ hits = b.hit.hits := by
  generalize he : [Event.hit id line hits] = events at h
  cases h with
  | hit held =>
    cases he
    exact ⟨_, held, rfl⟩
  | silent h =>
    cases he
    cases h
  | clearSource s =>
    unfold clearSourceNotices at he
    split at he <;> cases he
  | _ => cases he

/-- The number of a hit is its ordinal among those on the breakpoint of the source
that the table belongs to. -/
theorem Arises.ordinal_of_hit {hits : Nat} (h : Arises history r)
    (hstep : r.Step [.hit id line hits] r') :
    ∃ s, r.find? s = some id ∧ hits = min (hitsSinceAdded s id line history + 1) maxHits := by
  obtain ⟨b, held, rfl⟩ := hstep.held_of_hit
  obtain ⟨s, hs⟩ := h.wellFormed.exists_source (Table.ne_empty_of_get? held)
  have hcount := h.accounts hs ((congrArg (·.get? line) (contents_of_find? hs)).trans held)
  refine ⟨s, hs, ?_⟩
  simp only [Breakpoint.hit, hcount]
  omega

end Registry

end Breakpoints

import Breakpoints.Proofs.Dialogue
import Breakpoints.Proofs.Registry.Contents

/-!
# Histories of a registry

`Registry.Step` lists all that is ever done to a registry, each with the events
that are seen of it. `Evolves start history r` says that the registry is what a
history made of another one, and `Arises history r` that it made it of the empty
one. What every step keeps holds of every registry that arises
(`Arises.wellFormed`), no table changes hands (`Evolves.precedes`), and the
histories of dialogues and resolutions are made of these steps.
-/

namespace Breakpoints

namespace Registry

/-- What can be done to a registry, and what is seen of it. -/
inductive Step : Registry → List Event → Registry → Prop where
  | add (r : Registry) (room : Nat → Bool) (s : Source) (line : Nat) (d : Definition) :
    Step r [.noted (r.addNotice room s line)] (r.add room s line d)
  | clearSource (r : Registry) (s : Source) :
    Step r ((r.clearSourceNotices s).map .noted) (r.clearSource s)
  | clear (r : Registry) : Step r [.noted .allCleared] r.clear
  | lookup (r : Registry) (s : Source) : Step r [] (r.intern s).2
  | hit {r : Registry} {id : TableId} {line : Nat} {b : Breakpoint}
      (held : (r.tables.get id).get? line = some b) :
    Step r [.hit id line b.hit.hits] (r.hit id line)
  | silent (r : Registry) {e : Event} (h : e.silent = true) : Step r [e] r

theorem Step.wellFormed {r r' : Registry} {events : List Event} (h : r.Step events r')
    (hr : r.WellFormed) : r'.WellFormed := by
  cases h with
  | add room s line d => exact hr.add room s line d
  | clearSource s => exact hr.clearSource s
  | clear => exact hr.clear
  | lookup s => exact hr.intern s
  | hit held => exact hr.hit _ _
  | silent h => exact hr

/-- The registry is what the history made of the one at the start. -/
inductive Evolves (start : Registry) : List Event → Registry → Prop where
  | refl : Evolves start [] start
  | step {history events : List Event} {r r' : Registry} (before : Evolves start history r)
      (h : r.Step events r') : Evolves start (history ++ events) r'

/-- The registry is what the history made of the empty one. -/
abbrev Arises : List Event → Registry → Prop := Evolves empty

variable {start r r' : Registry} {history : List Event}

theorem Arises.wellFormed (h : Arises history r) : r.WellFormed := by
  induction h with
  | refl => exact wellFormed_empty
  | step _ h ih => exact h.wellFormed ih

theorem Evolves.trans {events : List Event} (h : Evolves start history r)
    (h' : Evolves r events r') : Evolves start (history ++ events) r' := by
  induction h' with
  | refl => simpa using h
  | step _ hstep ih => simpa using ih.step hstep

/-! ## Tables that change hands -/

/-- Whoever has one of the tables later has had it before. -/
structure Precedes (r r' : Registry) : Prop where
  made : ∀ {id}, r.tables.Has id → r'.tables.Has id
  owner : ∀ {s id}, r.tables.Has id → r'.find? s = some id → r.find? s = some id

theorem Precedes.refl (r : Registry) : r.Precedes r := ⟨fun h => h, fun _ h => h⟩

theorem Precedes.trans {r'' : Registry} (h : r.Precedes r') (h' : r'.Precedes r'') :
    r.Precedes r'' where
  made := fun hid => h'.made (h.made hid)
  owner := fun hid hs => h.owner hid (h'.owner (h.made hid) hs)

/-- A source without a table gets one that was not made before. -/
theorem precedes_intern (r : Registry) (s : Source) : r.Precedes (r.intern s).2 := by
  cases hs : r.find? s with
  | some id =>
    rw [fst_intern hs]
    exact .refl r
  | none =>
    constructor
    · intro id hid
      rw [intern_of_find?_eq_none hs]
      exact hid.grow
    · intro s' id hid hs'
      rw [find?_intern, intern_of_find?_eq_none hs] at hs'
      split at hs'
      · exact absurd (Option.some.inj hs').symm hid.ne_fresh
      · exact hs'

theorem precedes_write (r : Registry) (id : TableId) (t : Table) (c : LineCounts) :
    r.Precedes ⟨r.tables.set id t, r.sources, c⟩ :=
  ⟨fun h => Tables.has_set.2 h, fun _ h => h⟩

theorem precedes_add (r : Registry) (room : Nat → Bool) (s : Source) (line : Nat)
    (d : Definition) : r.Precedes (r.add room s line d) := by
  cases hc : r.counts.cover? room line with
  | none =>
    rw [add_of_cover?_eq_none hc]
    exact .refl r
  | some c =>
    rw [add_of_cover? hc]
    exact (precedes_intern r s).trans (precedes_write ..)

theorem precedes_setAll (r : Registry) (room : Nat → Bool) (s : Source)
    (placed : List (Nat × Definition)) :
    r.Precedes (placed.foldl (fun r p => r.add room s p.1 p.2) r) := by
  induction placed generalizing r with
  | nil => exact .refl r
  | cons p rest ih => exact (precedes_add r room s p.1 p.2).trans (ih _)

theorem precedes_clearSource (r : Registry) (s : Source) : r.Precedes (r.clearSource s) := by
  cases hs : r.find? s with
  | none =>
    rw [clearSource_of_find?_eq_none hs]
    exact .refl r
  | some id =>
    rw [clearSource_of_find? hs]
    exact precedes_write ..

theorem precedes_clear (r : Registry) : r.Precedes r.clear where
  made := fun h => has_emptied.2 h
  owner := fun _ h => by cases h

theorem precedes_hit (r : Registry) (id : TableId) (line : Nat) : r.Precedes (r.hit id line) where
  made := fun h => Tables.has_countHit.2 h
  owner := fun _ h => h

theorem Step.precedes {events : List Event} (h : r.Step events r') : r.Precedes r' := by
  cases h with
  | add room s line d => exact precedes_add ..
  | clearSource s => exact precedes_clearSource ..
  | clear => exact precedes_clear r
  | lookup s => exact precedes_intern ..
  | hit held => exact precedes_hit ..
  | silent h => exact .refl r

theorem Evolves.precedes (h : Evolves start history r) : start.Precedes r := by
  induction h with
  | refl => exact .refl start
  | step _ h ih => exact ih.trans h.precedes

/-! ## Tables that are lost -/

/-- No source loses its table. -/
def Keeps (r r' : Registry) : Prop := ∀ s id, r.find? s = some id → r'.find? s = some id

theorem Keeps.refl (r : Registry) : r.Keeps r := fun _ _ h => h

theorem Keeps.trans {r'' : Registry} (h : r.Keeps r') (h' : r'.Keeps r'') : r.Keeps r'' :=
  fun s id hs => h' s id (h s id hs)

theorem keeps_intern (r : Registry) (s : Source) : r.Keeps (r.intern s).2 := by
  intro s' id hs
  rw [find?_intern]
  split
  · next he => rw [← he, fst_intern hs]
  · exact hs

theorem keeps_add (r : Registry) (room : Nat → Bool) (s : Source) (line : Nat) (d : Definition) :
    r.Keeps (r.add room s line d) :=
  fun _ _ hs => find?_add hs room s line d

theorem keeps_setAll (r : Registry) (room : Nat → Bool) (s : Source)
    (placed : List (Nat × Definition)) :
    r.Keeps (placed.foldl (fun r p => r.add room s p.1 p.2) r) := by
  induction placed generalizing r with
  | nil => exact .refl r
  | cons p rest ih => exact (keeps_add r room s p.1 p.2).trans (ih _)

theorem keeps_clearSource (r : Registry) (s : Source) : r.Keeps (r.clearSource s) := by
  intro s' id hs
  rwa [find?_clearSource]

/-! ## Tables that stay where they are -/

/-- The sources that have a table keep it, and no table that was made changes hands. -/
structure Extends (r r' : Registry) : Prop where
  precedes : r.Precedes r'
  keeps : r.Keeps r'

theorem Extends.find?_iff {s : Source} {id : TableId} (h : r.Extends r') (hid : r.tables.Has id) :
    r'.find? s = some id ↔ r.find? s = some id :=
  ⟨h.precedes.owner hid, h.keeps s id⟩

theorem extends_setAll (r : Registry) (room : Nat → Bool) (s : Source)
    (placed : List (Nat × Definition)) :
    r.Extends (placed.foldl (fun r p => r.add room s p.1 p.2) r) :=
  ⟨precedes_setAll r room s placed, keeps_setAll r room s placed⟩

theorem extends_clearSource (r : Registry) (s : Source) : r.Extends (r.clearSource s) :=
  ⟨precedes_clearSource r s, keeps_clearSource r s⟩

theorem extends_hit (r : Registry) (id : TableId) (line : Nat) : r.Extends (r.hit id line) :=
  ⟨precedes_hit r id line, fun _ _ hs => hs⟩

theorem Extends.trans {r'' : Registry} (h : r.Extends r') (h' : r'.Extends r'') : r.Extends r'' :=
  ⟨h.precedes.trans h'.precedes, h.keeps.trans h'.keeps⟩

/-! ## What is seen of a history -/

/-- At most one event is seen of a step. -/
theorem Step.length_le_one {events : List Event} (h : r.Step events r') : events.length ≤ 1 := by
  cases h with
  | clearSource s =>
    unfold clearSourceNotices
    split <;> simp
  | lookup => exact Nat.zero_le 1
  | add | clear | hit | silent => exact Nat.le_refl 1

/-- Every event of a history is that of a step. -/
theorem Evolves.at_event {front back : List Event} {e : Event}
    (h : Evolves start (front ++ e :: back) r) :
    ∃ r₀ r₁, Evolves start front r₀ ∧ r₀.Step [e] r₁ := by
  generalize hall : front ++ e :: back = all at h
  induction h generalizing back with
  | refl => simp at hall
  | @step history events r₀ r₁ before hstep ih =>
    have hle := hstep.length_le_one
    match events, hle with
    | [], _ => exact ih (by simpa using hall)
    | [last], _ =>
      rcases List.eq_nil_or_concat back with rfl | ⟨butLast, b, rfl⟩
      · obtain ⟨rfl, hlast⟩ := List.append_inj' hall rfl
        exact ⟨r₀, r₁, before, hlast ▸ hstep⟩
      · have hsame : (front ++ e :: butLast) ++ [b] = history ++ [last] := by simpa using hall
        have hhistory : front ++ e :: butLast = history := (List.append_inj' hsame rfl).1
        exact ih hhistory

/-! ## Steps that are seen otherwise -/

theorem Evolves.silent (h : Evolves start history r) {events : List Event}
    (hs : ∀ e ∈ events, e.silent = true) : Evolves start (history ++ events) r := by
  induction events generalizing history with
  | nil => simpa using h
  | cons e rest ih =>
    have hfirst : Evolves start (history ++ [e]) r := h.step (.silent r (hs e List.mem_cons_self))
    simpa using ih hfirst fun e he => hs e (List.mem_cons_of_mem _ he)

/-- A step that nothing is seen of. -/
theorem Evolves.lookup (h : Evolves start history r) (s : Source) :
    Evolves start history (r.intern s).2 := by
  simpa using h.step (.lookup r s)

/-- Breakpoints set one after the other. -/
theorem Evolves.setBreakpoints (h : Evolves start history r) (room : Nat → Bool) (s : Source)
    (placed : List (Nat × Definition)) :
    Evolves start (history ++ (Debugger.setNotices room s placed r).map .noted)
      (placed.foldl (fun r p => r.add room s p.1 p.2) r) := by
  induction placed generalizing history r with
  | nil => simpa [Debugger.setNotices] using h
  | cons p rest ih =>
    have hfirst := h.step (.add r room s p.1 p.2)
    simpa [Debugger.setNotices] using ih hfirst

/-! ## Dialogues -/

section Dialogues

variable {α : Type} (id : TableId) (line : Nat)

theorem countHit_of_get? {ts : Tables} {b : Breakpoint} (h : (ts.get id).get? line = some b) :
    (Dialogue.countHit id line ts).1 = some b.hit.hits := by
  simp [Dialogue.countHit, Table.recordHit?, h]

theorem countHit_of_get?_eq_none {ts : Tables} (h : (ts.get id).get? line = none) :
    Dialogue.countHit id line ts = (none, ts) := by
  simp [Dialogue.countHit, Table.recordHit?, h]

/-- A dialogue does nothing but count hits, each of which is seen. -/
theorem Evolves.proceed (h : Evolves start history r) {d : Dialogue α}
    (hd : d.OnlyShows Dialogue.SilentOrHit) :
    Evolves start (history ++ (d.proceed id line r.tables).events)
      { r with tables := (d.proceed id line r.tables).tables } := by
  induction d generalizing history r with
  | done result => simpa [Dialogue.proceed] using h
  | evaluate script next => exact h.step (.silent r rfl)
  | display value next => exact h.step (.silent r rfl)
  | hit next ih =>
    simp only [Dialogue.proceed, Dialogue.Progress.after]
    cases hb : (r.tables.get id).get? line with
    | none =>
      rw [countHit_of_get?_eq_none id line hb]
      simpa [Dialogue.hitEvents] using ih none h (hd.2 none)
    | some b =>
      have hfirst := h.step (.hit hb)
      have hnext := ih (some b.hit.hits) hfirst (hd.2 _)
      rw [countHit_of_get? id line hb]
      simpa [Dialogue.hitEvents, Registry.hit] using hnext
  | print channel text next ih =>
    have hfirst : Evolves start (history ++ [.printed channel text]) r := h.step (.silent r rfl)
    simpa [Dialogue.proceed, Dialogue.Progress.after] using ih hfirst hd.2
  | note notice next ih =>
    have hsilent : Dialogue.Silent (.noted notice) := hd.1.resolve_right Bool.false_ne_true
    have hfirst : Evolves start (history ++ [.noted notice]) r := h.step (.silent r hsilent)
    simpa [Dialogue.proceed, Dialogue.Progress.after] using ih hfirst hd.2

end Dialogues

end Registry

end Breakpoints

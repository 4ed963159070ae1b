import Breakpoints.Binding
import Breakpoints.Proofs.Dialogue
import Breakpoints.Proofs.Registry.Contents

/-!
# Registries above older tables

Tables that were made before a registry was set up, and that it never refers to, only
move the identities of its own tables up. So a registry works above older tables as
it works without them: every operation commutes with putting older tables beneath
(`add_above`, `clear_above`, …), and so does a dialogue about one of its tables
(`proceed_above`).
-/

namespace Breakpoints

/-- The identity of a table once so many older tables are beneath it. -/
def TableId.above (offset : Nat) (id : TableId) : TableId := ⟨offset + id.slot⟩

/-- The binding to the same table. -/
def Binding.above (offset : Nat) (b : Binding) : Binding := { b with table := b.table.above offset }

/-- Only hits tell which table they are counted in. -/
def Event.above (offset : Nat) : Event → Event
  | .hit table line hits => .hit (table.above offset) line hits
  | e => e

theorem Event.above_of_silent {e : Event} (h : e.silent = true) (offset : Nat) :
    e.above offset = e := by
  cases e with
  | hit => cases h
  | _ => rfl

theorem Event.map_above_of_silent {events : List Event} (h : ∀ e ∈ events, e.silent = true)
    (offset : Nat) : events.map (above offset) = events :=
  (List.map_congr_left fun e he => above_of_silent (h e he) offset).trans (List.map_id' events)

@[simp] theorem Event.map_above_noted (offset : Nat) (notices : List Notice) :
    (notices.map Event.noted).map (above offset) = notices.map .noted := by
  rw [List.map_map]
  rfl

theorem lookup_map_snd {α β γ : Type} [BEq α] (f : β → γ) (entries : List (α × β)) (a : α) :
    (entries.map fun e => (e.1, f e.2)).lookup a = (entries.lookup a).map f := by
  induction entries with
  | nil => rfl
  | cons e rest ih =>
    obtain ⟨key, value⟩ := e
    simp only [List.map_cons, List.lookup_cons, ih]
    cases a == key <;> rfl

/-! ## Tables -/

namespace Tables

/-- The tables with older ones beneath. -/
def above (old : List Table) (ts : Tables) : Tables := ⟨old ++ ts.cells⟩

@[simp] theorem get_above (old : List Table) (ts : Tables) (id : TableId) :
    (ts.above old).get (id.above old.length) = ts.get id := by
  simp [get, above, TableId.above, List.getElem?_append_right]

@[simp] theorem fresh_above (old : List Table) (ts : Tables) :
    (ts.above old).fresh = ts.fresh.above old.length := by
  simp [fresh, above, TableId.above]

@[simp] theorem grow_above (old : List Table) (ts : Tables) :
    (ts.above old).grow = ts.grow.above old := by
  simp [grow, above]

@[simp] theorem set_above (old : List Table) (ts : Tables) (id : TableId) (t : Table) :
    (ts.above old).set (id.above old.length) t = (ts.set id t).above old := by
  simp [set, above, TableId.above, List.set_append_right]

end Tables

/-! ## Registries -/

namespace Registry

/-- The sources with their tables moved up. -/
def sourcesAbove (offset : Nat) (sources : List (Source × TableId)) : List (Source × TableId) :=
  sources.map fun e => (e.1, e.2.above offset)

/-- The registry with older tables beneath its own. -/
def above (old : List Table) (r : Registry) : Registry :=
  ⟨r.tables.above old, sourcesAbove old.length r.sources, r.counts⟩

variable (old) (r : Registry)

@[simp] theorem tables_above : (r.above old).tables = r.tables.above old := rfl

@[simp] theorem counts_above : (r.above old).counts = r.counts := rfl

@[simp] theorem length_sources_above : (r.above old).sources.length = r.sources.length :=
  List.length_map _

@[simp] theorem admits_above (line : Nat) : (r.above old).admits line = r.admits line := rfl

@[simp] theorem find?_above (s : Source) :
    (r.above old).find? s = (r.find? s).map (.above old.length) :=
  lookup_map_snd (TableId.above old.length) r.sources s

@[simp] theorem contents_above (s : Source) : (r.above old).contents s = r.contents s := by
  unfold contents
  rw [find?_above]
  cases r.find? s with
  | none => rfl
  | some id => exact Tables.get_above old r.tables id

@[simp] theorem intern_above (s : Source) :
    (r.above old).intern s = ((r.intern s).1.above old.length, (r.intern s).2.above old) := by
  unfold intern
  rw [find?_above]
  cases r.find? s with
  | none => simp [above, sourcesAbove]
  | some id => rfl

@[simp] theorem add_above (room : Nat → Bool) (s : Source) (line : Nat) (d : Definition) :
    (r.above old).add room s line d = (r.add room s line d).above old := by
  unfold add
  rw [counts_above]
  cases r.counts.cover? room line with
  | none => rfl
  | some c =>
    simp only [intern_above, tables_above, Tables.get_above, Tables.set_above]
    rfl

@[simp] theorem addNotice_above (room : Nat → Bool) (s : Source) (line : Nat) :
    (r.above old).addNotice room s line = r.addNotice room s line := by
  simp only [addNotice, counts_above, contents_above]

theorem setAll_above (room : Nat → Bool) (s : Source) (placed : List (Nat × Definition)) :
    placed.foldl (fun r p => r.add room s p.1 p.2) (r.above old) =
      (placed.foldl (fun r p => r.add room s p.1 p.2) r).above old := by
  induction placed generalizing r with
  | nil => rfl
  | cons p rest ih => rw [List.foldl_cons, add_above, ih, List.foldl_cons]

@[simp] theorem clearSource_above (s : Source) :
    (r.above old).clearSource s = (r.clearSource s).above old := by
  unfold clearSource
  rw [find?_above]
  cases r.find? s with
  | none => rfl
  | some id => simp [above]

@[simp] theorem clearSourceNotices_above (s : Source) :
    (r.above old).clearSourceNotices s = r.clearSourceNotices s := by
  unfold clearSourceNotices
  rw [find?_above]
  cases r.find? s with
  | none => rfl
  | some id => simp only [Option.map_some, tables_above, Tables.get_above]

theorem emptied_above (sources : List (Source × TableId)) (ts : Tables) :
    emptied (sourcesAbove old.length sources) (ts.above old) = (emptied sources ts).above old := by
  induction sources generalizing ts with
  | nil => rfl
  | cons e rest ih =>
    have hrest := ih (ts.set e.2 .empty)
    rw [← Tables.set_above] at hrest
    exact hrest

@[simp] theorem clear_above : (r.above old).clear = r.clear.above old := by
  have hemptied := emptied_above old r.sources r.tables
  simp only [clear, above, hemptied]
  rfl

@[simp] theorem bind_above (source? : Option Source) :
    (r.above old).bind source? =
      ((r.bind source?).1.map (.above old.length), (r.bind source?).2.above old) := by
  cases source? with
  | none => rfl
  | some s => simp [bind, Binding.above]

@[simp] theorem live_above (binding? : Option Binding) :
    (r.above old).live (binding?.map (.above old.length)) =
      (r.live binding?).map (.above old.length) := by
  cases binding? with
  | none => rfl
  | some b =>
    simp only [live, Option.map_some, Option.filter_some, tables_above, Binding.above,
      Tables.get_above]
    split <;> rfl

@[simp] theorem check_above (channel : Channel) (id : TableId) (line : Nat) :
    (r.above old).check channel (id.above old.length) line = r.check channel id line := by
  simp only [check, admits_above, tables_above, Tables.get_above]

end Registry

/-! ## Dialogues -/

namespace Dialogue

variable {α : Type}

/-- What a dialogue came to, with older tables beneath. -/
def Progress.above (old : List Table) (p : Progress α) : Progress α where
  tables := p.tables.above old
  events := p.events.map (.above old.length)
  standing := p.standing

theorem countHit_above (old : List Table) (id : TableId) (line : Nat) (ts : Tables) :
    countHit (id.above old.length) line (ts.above old) =
      ((countHit id line ts).1, (countHit id line ts).2.above old) := by
  unfold countHit
  rw [Tables.get_above]
  cases (ts.get id).recordHit? line with
  | none => rfl
  | some hit => simp only [Tables.set_above]

theorem hitEvents_above (offset : Nat) (id : TableId) (line : Nat) (hits? : Option Nat) :
    hitEvents (id.above offset) line hits? = (hitEvents id line hits?).map (.above offset) := by
  cases hits? <;> rfl

/-- A dialogue about a table takes the same course above older tables. -/
theorem proceed_above (old : List Table) (id : TableId) (line : Nat) (d : Dialogue α)
    (ts : Tables) :
    d.proceed (id.above old.length) line (ts.above old) = (d.proceed id line ts).above old := by
  induction d generalizing ts with
  | done | evaluate | display => rfl
  | hit next ih =>
    simp only [proceed, countHit_above, ih, hitEvents_above]
    simp [Progress.above, Progress.after]
  | print channel text next ih =>
    simp only [proceed, ih]
    simp [Progress.above, Progress.after, Event.above]
  | note notice next ih =>
    simp only [proceed, ih]
    simp [Progress.above, Progress.after, Event.above]

end Dialogue

end Breakpoints

import Breakpoints.Proofs.Guarded.Program
import Breakpoints.Proofs.Registry.Counts

/-!
# Setting and clearing while the store is held

What a registry does, as programs: whoever holds the store takes the tables one by one for
a moment. Counting a line up or down, and covering it, are checked (`LineCounts.growTo`,
`register`, `unregister`); in an exact registry no check fails (`register_eq` and its
siblings), as long as there are fewer sources than can be counted. So every program comes to
what the registry's own operation gives (`runs_setAll`, `runs_clearSource`, `runs_clear`).
-/

namespace Breakpoints

/-! ## Checked counting -/

namespace LineCounts

/-- One more than the greatest count of a line. -/
def countLimit : Nat := 0x100000000

/-- Covers a line by adding as many as are missing, if there is `room` for so many counts. -/
def growTo (room : Nat → Bool) (line : Nat) (c : LineCounts) : Except Panic (Option LineCounts) :=
  if line < c.size then .ok (some c)
  else if line + 1 < sizeLimit then do
    let missing ← checkedSub (line + 1) c.size
    if room (c.size + missing) then
      return some ⟨c.counts ++ Array.replicate missing 0⟩
    else return none
  else .ok none

/-- One more source has a breakpoint at a line, which must be covered. -/
def register (line : Nat) (c : LineCounts) : Except Panic LineCounts :=
  match c.counts[line]? with
  | none => .error (.uncovered line)
  | some n => if n + 1 < countLimit then .ok (c.increment line) else .error .overflow

/-- One source less has a breakpoint at a line, which must count one. -/
def unregister (c : LineCounts) (line : Nat) : Except Panic LineCounts :=
  match c.counts[line]? with
  | none => .error (.uncounted line)
  | some n => if 0 < n then .ok (c.decrement line) else .error (.uncounted line)

variable {room : Nat → Bool} {line : Nat} {c : LineCounts}

theorem growTo_eq (room : Nat → Bool) (line : Nat) (c : LineCounts) :
    c.growTo room line = .ok (c.cover? room line) := by
  unfold growTo cover?
  split
  · rfl
  · next hcovered =>
    have hle : c.size ≤ line + 1 := by omega
    have hmissing : checkedSub (line + 1) c.size = .ok (line + 1 - c.size) := if_pos hle
    have hsize : c.size + (line + 1 - c.size) = line + 1 := by omega
    rw [hmissing]
    by_cases hlimit : line + 1 < sizeLimit
    · cases hroom : room (line + 1) <;> simp [hlimit, bind, Except.bind, hsize, hroom] <;> rfl
    · simp [hlimit]

theorem getElem?_of_lt_size (h : line < c.size) : c.counts[line]? = some (c.count line) := by
  have hline : line < c.counts.size := h
  simp [count, Array.getElem?_eq_getElem hline]

theorem lt_size_of_count_pos (h : 0 < c.count line) : line < c.size := by
  by_contra hn
  rw [count_eq_zero_of_size_le (Nat.le_of_not_lt hn)] at h
  exact Nat.lt_irrefl 0 h

theorem register_eq (h : line < c.size) (hcount : c.count line + 1 < countLimit) :
    c.register line = .ok (c.increment line) := by
  simp only [register, getElem?_of_lt_size h, if_pos hcount]

theorem unregister_eq (h : 0 < c.count line) : c.unregister line = .ok (c.decrement line) := by
  simp only [unregister, getElem?_of_lt_size (lt_size_of_count_pos h), if_pos h]

/-- Lines that count at least one, each met once, can be counted down one after the other. -/
theorem foldlM_unregister {lines : List Nat} (hnodup : lines.Nodup)
    (h : ∀ line ∈ lines, 0 < c.count line) :
    lines.foldlM unregister c = .ok (lines.foldl decrement c) := by
  induction lines generalizing c with
  | nil => rfl
  | cons line rest ih =>
    obtain ⟨hline, hrest⟩ := List.nodup_cons.1 hnodup
    have hstep :
        (line :: rest).foldlM unregister c = rest.foldlM unregister (c.decrement line) := by
      rw [List.foldlM_cons, unregister_eq (h line List.mem_cons_self)]
      rfl
    rw [hstep, List.foldl_cons]
    refine ih hrest fun l hl => ?_
    have hne : l ≠ line := fun he => hline (he ▸ hl)
    rw [count_decrement, if_neg hne]
    exact h l (List.mem_cons_of_mem _ hl)

end LineCounts

/-- Where the counts are right with one breakpoint more, and there are fewer sources than can be
counted, the count that goes up is not the greatest one. -/
theorem Registry.Exact.register_eq {r : Registry} {c : LineCounts} {line : Nat} (h : r.Exact)
    (hcounts : r.counts = c.increment line) (hcovered : line < c.size)
    (hmany : r.sources.length < LineCounts.countLimit) :
    c.register line = .ok (c.increment line) := by
  have hle := h.count_le line
  rw [hcounts, LineCounts.count_increment hcovered, if_pos rfl] at hle
  exact LineCounts.register_eq hcovered (Nat.lt_of_le_of_lt hle hmany)

namespace Guarded

/-! ## One table -/

/-- Looks a table up for a moment. -/
def ask {α : Type} (id : TableId) (f : Table → α) : Guarded α :=
  sharing (.table id) fun t => done (f t)

/-- Changes a table in a moment. -/
def update {α : Type} (id : TableId) (f : Table → α × Table) : Guarded α :=
  holding (.table id) fun t => done (f t)

/-- No table is lent. -/
def NoTable (loans : List Loan) : Prop := ∀ id mode, (⟨.table id, mode⟩ : Loan) ∉ loans

theorem noTable_nil : NoTable [] := fun _ _ => List.not_mem_nil

variable {α : Type} {loans : List Loan}

theorem runs_ask (h : NoTable loans) (d : Debugger) (id : TableId) (f : Table → α) :
    (ask id f).Runs loans d (f (d.registry.tables.get id)) d [] :=
  Runs.sharing (h id .exclusive) (runs_done ..)

theorem runs_update (h : NoTable loans) (d : Debugger) (id : TableId) (f : Table → α × Table) :
    (update id f).Runs loans d (f (d.registry.tables.get id)).1
      (d.withTables (d.registry.tables.set id (f (d.registry.tables.get id)).2)) [] :=
  Runs.holding (h id) (runs_done ..) rfl

/-! ## The store -/

/-- The table of a source, which is made unless there is one. -/
def lookup (s : Source) (st : Store) : Guarded (TableId × Store) :=
  match st.sources.lookup s with
  | some id => done (id, st)
  | none => newTable fun id => done (id, { st with sources := st.sources ++ [(s, id)] })

/-- Sets a breakpoint, unless its line is out of range. -/
def add (room : Nat → Bool) (s : Source) (line : Nat) (definition : Definition) (st : Store) :
    Guarded Store := do
  match ← ofExcept (st.counts.growTo room line) with
  | none =>
    say [.noted (.outOfRange s line)]
    return st
  | some counts =>
    let (id, st) ← lookup s { st with counts }
    if ← update id fun t => (t.holds line, t.define line definition) then
      say [.noted (.replaced s line)]
      return st
    else
      say [.noted (.added s line)]
      return { st with counts := ← ofExcept (st.counts.register line) }

/-- Sets breakpoints of a source one after the other. -/
def setAll (room : Nat → Bool) (s : Source) : List (Nat × Definition) → Store → Guarded Store
  | [], st => done st
  | (line, definition) :: rest, st => do
    let st ← add room s line definition st
    setAll room s rest st

/-- Empties a table and tells the lines that it had breakpoints at. -/
def takeLines (id : TableId) : Guarded (List Nat) := update id fun t => (t.lines, .empty)

def clearSource (s : Source) (st : Store) : Guarded Store := do
  match st.sources.lookup s with
  | none => return st
  | some id =>
    let lines ← takeLines id
    say [.noted (.sourceCleared s lines.length)]
    return { st with counts := ← ofExcept (lines.foldlM LineCounts.unregister st.counts) }

/-- Empties tables one after the other. -/
def takeAll : List (Source × TableId) → Guarded Unit
  | [] => done ()
  | entry :: rest => do
    let _ ← takeLines entry.2
    takeAll rest

def clear (st : Store) : Guarded Store := do
  takeAll st.sources
  say [.noted .allCleared]
  return ⟨[], .empty⟩

variable {r : Registry} {d : Debugger} {room : Nat → Bool} {s : Source} {line : Nat}

theorem runs_lookup (loans : List Loan) (d : Debugger) (s : Source) (r : Registry) :
    (lookup s r.store).Runs loans (d.withTables r.tables) ((r.intern s).1, (r.intern s).2.store)
      (d.withTables (r.intern s).2.tables) [] := by
  unfold lookup
  cases hs : r.find? s with
  | some id =>
    have hstore : r.store.sources.lookup s = some id := hs
    rw [hstore, Registry.fst_intern hs]
    exact runs_done ..
  | none =>
    have hstore : r.store.sources.lookup s = none := hs
    rw [hstore, Registry.intern_of_find?_eq_none hs]
    rfl

/-- A store whose counts were changed gives the same tables to sources. -/
theorem intern_counts (r : Registry) (c : LineCounts) (s : Source) :
    (⟨r.tables, r.sources, c⟩ : Registry).intern s =
      ((r.intern s).1, ⟨(r.intern s).2.tables, (r.intern s).2.sources, c⟩) := by
  cases hs : r.find? s with
  | some id =>
    rw [Registry.fst_intern hs]
    exact Registry.fst_intern hs
  | none =>
    rw [Registry.intern_of_find?_eq_none hs]
    exact Registry.intern_of_find?_eq_none hs

theorem runs_add (hL : NoTable loans) (d : Debugger) (hw : r.WellFormed) (he : r.Exact)
    (definition : Definition)
    (hmany : (r.add room s line definition).sources.length < LineCounts.countLimit) :
    (add room s line definition r.store).Runs loans (d.withTables r.tables)
      (r.add room s line definition).store (d.withTables (r.add room s line definition).tables)
      (sightings loans [.noted (r.addNotice room s line)]) := by
  have hexact := he.add hw room s line definition
  have hgrow : r.store.counts.growTo room line = .ok (r.counts.cover? room line) :=
    LineCounts.growTo_eq ..
  unfold add
  cases hc : r.counts.cover? room line with
  | none =>
    have hnotice : r.addNotice room s line = .outOfRange s line := by
      simp only [Registry.addNotice, hc]
    rw [hgrow, hc, Registry.add_of_cover?_eq_none hc, hnotice]
    exact (runs_say ..).bind (runs_done ..)
  | some c =>
    have hnotice : r.addNotice room s line =
        if (r.contents s).holds line then .replaced s line else .added s line := by
      simp only [Registry.addNotice, hc]
    have hlookup := runs_lookup loans d s ⟨r.tables, r.sources, c⟩
    rw [intern_counts] at hlookup
    have hget : (r.intern s).2.tables.get (r.intern s).1 = r.contents s := by
      rw [← Registry.contents_of_find? (Registry.find?_intern_self r s), Registry.contents_intern]
    have hupdate := runs_update hL (d.withTables (r.intern s).2.tables) (r.intern s).1
      fun t => (t.holds line, t.define line definition)
    have htable : (d.withTables (r.intern s).2.tables).registry.tables.get (r.intern s).1 =
        r.contents s := hget
    rw [htable] at hupdate
    rw [hgrow, hc, hnotice]
    rw [Registry.add_of_cover? hc] at hmany hexact ⊢
    refine hlookup.bind (hupdate.bind ?_)
    cases hheld : (r.contents s).holds line with
    | true => exact (runs_say ..).bind (runs_done ..)
    | false =>
      rw [hheld, if_neg Bool.false_ne_true] at hexact
      have hregister : ofExcept (c.register line) = done (c.increment line) := by
        rw [hexact.register_eq rfl (LineCounts.lt_size_of_cover? hc) hmany]
        rfl
      refine (runs_say ..).bind ?_
      simp only [Registry.store, hregister]
      exact runs_done ..

theorem length_sources_intern (r : Registry) (s : Source) :
    r.sources.length ≤ (r.intern s).2.sources.length := by
  cases hs : r.find? s with
  | some id => rw [Registry.fst_intern hs]
  | none =>
    rw [Registry.intern_of_find?_eq_none hs]
    simp

theorem length_sources_add (r : Registry) (room : Nat → Bool) (s : Source) (line : Nat)
    (definition : Definition) :
    r.sources.length ≤ (r.add room s line definition).sources.length := by
  cases hc : r.counts.cover? room line with
  | none => rw [Registry.add_of_cover?_eq_none hc]
  | some c =>
    rw [Registry.add_of_cover? hc]
    exact length_sources_intern r s

theorem length_sources_setAll (r : Registry) (room : Nat → Bool) (s : Source)
    (placed : List (Nat × Definition)) :
    r.sources.length ≤ (placed.foldl (fun r p => r.add room s p.1 p.2) r).sources.length := by
  induction placed generalizing r with
  | nil => exact Nat.le_refl _
  | cons p rest ih => exact (length_sources_add r room s p.1 p.2).trans (ih _)

theorem runs_setAll (hL : NoTable loans) (d : Debugger) (hw : r.WellFormed) (he : r.Exact)
    {placed : List (Nat × Definition)}
    (hmany : (placed.foldl (fun r p => r.add room s p.1 p.2) r).sources.length <
      LineCounts.countLimit) :
    let r' := placed.foldl (fun r p => r.add room s p.1 p.2) r
    (setAll room s placed r.store).Runs loans (d.withTables r.tables) r'.store
      (d.withTables r'.tables)
      (sightings loans ((Debugger.setNotices room s placed r).map .noted)) := by
  induction placed generalizing r with
  | nil => exact runs_done ..
  | cons p rest ih =>
    have hadd : (r.add room s p.1 p.2).sources.length < LineCounts.countLimit :=
      Nat.lt_of_le_of_lt (length_sources_setAll _ room s rest) hmany
    have hrest := ih (hw.add room s p.1 p.2) (he.add hw room s p.1 p.2) hmany
    exact (runs_add hL d hw he p.2 hadd).bind hrest

/-! ## Clearing -/

theorem runs_takeLines (hL : NoTable loans) (d : Debugger) (ts : Tables) (id : TableId) :
    (takeLines id).Runs loans (d.withTables ts) (ts.get id).lines
      (d.withTables (ts.set id .empty)) [] :=
  runs_update hL (d.withTables ts) id fun t => (t.lines, .empty)

/-- Every line of the table counts at least one, since the source has a breakpoint there. -/
theorem runs_clearSource (hL : NoTable loans) (d : Debugger) (he : r.Exact) (s : Source) :
    (clearSource s r.store).Runs loans (d.withTables r.tables) (r.clearSource s).store
      (d.withTables (r.clearSource s).tables)
      (sightings loans ((r.clearSourceNotices s).map .noted)) := by
  unfold clearSource
  cases hs : r.find? s with
  | none =>
    have hstore : r.store.sources.lookup s = none := hs
    have hnotices : r.clearSourceNotices s = [] := by simp only [Registry.clearSourceNotices, hs]
    rw [hstore, Registry.clearSource_of_find?_eq_none hs, hnotices]
    exact runs_done ..
  | some id =>
    have hstore : r.store.sources.lookup s = some id := hs
    have hnotices : r.clearSourceNotices s = [.sourceCleared s (r.tables.get id).size] := by
      simp only [Registry.clearSourceNotices, hs]
    have hcounted : ∀ line ∈ (r.tables.get id).lines, 0 < r.counts.count line := by
      intro line hline
      rw [he.count_pos_iff]
      exact ⟨s, by rw [Registry.contents_of_find? hs]; exact Table.mem_lines_iff.1 hline⟩
    have hunregister : ofExcept ((r.tables.get id).lines.foldlM LineCounts.unregister r.counts) =
        done ((r.tables.get id).lines.foldl LineCounts.decrement r.counts) := by
      rw [LineCounts.foldlM_unregister (Table.nodup_lines _) hcounted]
      rfl
    have hsize : (r.tables.get id).lines.length = (r.tables.get id).size := List.length_map ..
    rw [hstore, Registry.clearSource_of_find? hs, hnotices, ← hsize]
    refine (runs_takeLines hL d r.tables id).bind ((runs_say ..).bind ?_)
    simp only [Registry.store, hunregister]
    exact runs_done ..

theorem runs_takeAll (hL : NoTable loans) (d : Debugger) (ts : Tables)
    (sources : List (Source × TableId)) :
    (takeAll sources).Runs loans (d.withTables ts) ()
      (d.withTables (Registry.emptied sources ts)) [] := by
  induction sources generalizing ts with
  | nil => exact runs_done ..
  | cons entry rest ih => exact (runs_takeLines hL d ts entry.2).bind (ih _)

theorem runs_clear (hL : NoTable loans) (d : Debugger) (r : Registry) :
    (clear r.store).Runs loans (d.withTables r.tables) r.clear.store (d.withTables r.clear.tables)
      (sightings loans [.noted .allCleared]) :=
  (runs_takeAll hL d r.tables r.sources).bind ((runs_say ..).bind (runs_done ..))

end Guarded

end Breakpoints

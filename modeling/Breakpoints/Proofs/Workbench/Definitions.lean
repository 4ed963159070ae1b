import Breakpoints.Proofs.Debugger.Separation
import Breakpoints.Proofs.Workbench

/-!
# The last definition of a line decides

Breakpoints are set one after the other, and each time the counts may grow, the source may
get its table, and a line may be counted. Still, if it is a matter of the line alone
whether it can be counted, nothing matters in the end but the last definition of each line
that can (`Decides.setAll_congr`). What the source holds afterwards says so line by line
(`Decides.get?_setAll`), how far the counts reach depends on the lines alone
(`Decides.lt_size_setAll_iff`), and the counts themselves follow from what the sources hold.
-/

namespace Breakpoints

/-- The last definition that a list has for a line. -/
def lastDefinition? (placed : List (Nat × Definition)) (line : Nat) : Option Definition :=
  placed.reverse.lookup line

section LastDefinition

variable {placed : List (Nat × Definition)} {line : Nat}

@[simp] theorem lastDefinition?_nil (line : Nat) : lastDefinition? [] line = none := rfl

theorem lastDefinition?_append (xs ys : List (Nat × Definition)) (line : Nat) :
    lastDefinition? (xs ++ ys) line = (lastDefinition? ys line).or (lastDefinition? xs line) := by
  simp [lastDefinition?, List.lookup_append]

theorem lastDefinition?_cons (p : Nat × Definition) (rest : List (Nat × Definition)) (line : Nat) :
    lastDefinition? (p :: rest) line =
      (lastDefinition? rest line).or (if line = p.1 then some p.2 else none) := by
  obtain ⟨m, d⟩ := p
  rw [← List.singleton_append, lastDefinition?_append]
  congr 1
  by_cases h : line = m
  · simp [lastDefinition?, h]
  · simp [lastDefinition?, List.lookup_cons, h, beq_eq_false_iff_ne.2]

theorem mem_of_lastDefinition? {d : Definition} (h : lastDefinition? placed line = some d) :
    (line, d) ∈ placed := by
  obtain ⟨front, back, hplaced, -⟩ := List.lookup_eq_some_iff.1 h
  rw [← List.mem_reverse, hplaced]
  simp

theorem isSome_lastDefinition?_iff :
    (lastDefinition? placed line).isSome = true ↔ line ∈ placed.map Prod.fst := by
  induction placed with
  | nil => simp
  | cons p rest ih =>
    rw [lastDefinition?_cons, Option.isSome_or, Bool.or_eq_true, ih, List.map_cons, List.mem_cons]
    by_cases h : line = p.1 <;> simp [h]

/-- The lines that are mentioned are those that have a last definition. -/
theorem exists_mem_iff_lastDefinition? {P : Nat → Prop} :
    (∃ p ∈ placed, P p.1) ↔ ∃ line, P line ∧ (lastDefinition? placed line).isSome = true := by
  simp only [isSome_lastDefinition?_iff, List.mem_map]
  constructor
  · rintro ⟨p, hp, h⟩
    exact ⟨p.1, h, p, hp, rfl⟩
  · rintro ⟨_, h, p, hp, rfl⟩
    exact ⟨p, hp, h⟩

/-- An earlier definition of a line makes no difference. -/
theorem lastDefinition?_of_redefined {p : Nat × Definition} {back : List (Nat × Definition)}
    (h : p.1 ∈ back.map Prod.fst) (front : List (Nat × Definition)) (line : Nat) :
    lastDefinition? (front ++ p :: back) line = lastDefinition? (front ++ back) line := by
  rw [lastDefinition?_append, lastDefinition?_append, lastDefinition?_cons]
  by_cases hline : line = p.1
  · obtain ⟨d, hd⟩ := Option.isSome_iff_exists.1 (isSome_lastDefinition?_iff.2 h)
    rw [hline, hd, Option.some_or, Option.some_or]
  · rw [if_neg hline, Option.or_none]

/-- If no line occurs twice, the last definition of a line is the only one. -/
theorem lastDefinition?_eq_some_iff (h : (placed.map Prod.fst).Nodup) {d : Definition} :
    lastDefinition? placed line = some d ↔ (line, d) ∈ placed := by
  constructor
  · exact mem_of_lastDefinition?
  · intro hmem
    obtain ⟨d', hd'⟩ := Option.isSome_iff_exists.1
      (isSome_lastDefinition?_iff.2 (List.mem_map_of_mem (f := Prod.fst) hmem))
    have hsame := List.inj_on_of_nodup_map h (mem_of_lastDefinition? hd') hmem rfl
    rw [hd', (Prod.mk.inj hsame).2]

/-- If no line occurs twice, the order makes no difference. -/
theorem lastDefinition?_perm {xs ys : List (Nat × Definition)} (h : xs.Perm ys)
    (hnodup : (xs.map Prod.fst).Nodup) (line : Nat) :
    lastDefinition? xs line = lastDefinition? ys line := by
  have hnodup' : (ys.map Prod.fst).Nodup := (h.map Prod.fst).nodup_iff.1 hnodup
  ext d
  rw [lastDefinition?_eq_some_iff hnodup, lastDefinition?_eq_some_iff hnodup', h.mem_iff]

end LastDefinition

/-! ## What a table holds -/

namespace Table

/-- What a table holds at a line once the line is defined anew, if it is. The number of
hits stays. -/
def redefined? (t : Table) (line : Nat) : Option Definition → Option Breakpoint
  | some d => some (.ofDefinition d ((t.hits? line).getD 0))
  | none => t.get? line

/-- A definition is superseded by a later one. -/
theorem redefined?_define (t : Table) (line m : Nat) (d : Definition)
    (later? : Option Definition) :
    (t.define m d).redefined? line later? =
      t.redefined? line (later?.or (if line = m then some d else none)) := by
  cases later? with
  | none =>
    simp only [redefined?, get?_define, Option.none_or]
    by_cases h : line = m <;> simp [h]
  | some later =>
    simp only [redefined?, hits?_define, Option.some_or]
    by_cases h : line = m <;> simp [h]

end Table

/-! ## What a registry counts -/

theorem LineCounts.ext_count {c c' : LineCounts} (hsize : c.size = c'.size)
    (hcount : ∀ line, c.count line = c'.count line) : c = c' := by
  obtain ⟨xs⟩ := c
  obtain ⟨ys⟩ := c'
  congr 1
  apply Array.ext hsize
  intro i hi hi'
  have h := hcount i
  simpa [count, hi, hi'] using h

namespace Registry

variable {r r' : Registry} {room fits : Nat → Bool} {s : Source}

/-- How often a line is counted follows from what the sources hold. -/
theorem Exact.count_eq (h : r.Exact) (h' : r'.Exact) {line : Nat}
    (hholds : ∀ s, (r.contents s).holds line = (r'.contents s).holds line) :
    r.counts.count line = r'.counts.count line := by
  have hholders : r.holders line = r'.holders line := by
    ext s
    rw [mem_holders, mem_holders, hholds]
  have hcount : (r.counts.count line : ℕ∞) = r'.counts.count line := by
    rw [h line, h' line, hholders]
  exact_mod_cast hcount

/-! ## Writing to the table of a source -/

/-- The registry with the table of a source, which is made if need be, and the counts
replaced. -/
def write (s : Source) (t : Table) (c : LineCounts) (r : Registry) : Registry :=
  ⟨(r.intern s).2.tables.set (r.intern s).1 t, (r.intern s).2.sources, c⟩

theorem add_eq_write {line : Nat} {c : LineCounts} (h : r.counts.cover? room line = some c)
    (s : Source) (d : Definition) :
    r.add room s line d = r.write s ((r.contents s).define line d)
      (if (r.contents s).holds line then c else c.increment line) :=
  add_of_cover? h s d

/-- The last write decides. -/
theorem write_write (s : Source) (t t' : Table) (c c' : LineCounts) (r : Registry) :
    (r.write s t c).write s t' c' = r.write s t' c' := by
  have hfind : (r.write s t c).find? s = some (r.intern s).1 := find?_intern_self r s
  unfold write at hfind ⊢
  rw [fst_intern hfind]
  simp [Tables.set]

theorem WellFormed.contents_write_self (h : r.WellFormed) (s : Source) (t : Table)
    (c : LineCounts) : (r.write s t c).contents s = t := by
  have hwritten := (h.intern s).contents_write (find?_intern_self r s) t c s
  rwa [if_pos rfl] at hwritten

/-! ## Setting breakpoints one after the other -/

/-- Sets breakpoints of a source one after the other. -/
abbrev setAll (room : Nat → Bool) (s : Source) (placed : List (Nat × Definition))
    (r : Registry) : Registry :=
  placed.foldl (fun r p => r.add room s p.1 p.2) r

/-- Whether a line can be counted is decided by the line alone, whatever breakpoints of the
source are set before. -/
def Decides (fits room : Nat → Bool) (s : Source) (r : Registry) : Prop :=
  ∀ placed line, ((r.setAll room s placed).counts.cover? room line).isSome = fits line

/-- It is so where there is room for fewer counts than there is room for, and the lines
that are counted already fit. -/
theorem Sound.decides (hroom : LineCounts.RoomForFewer room) (h : r.Sound room) (s : Source) :
    r.Decides (LineCounts.fits room) room s :=
  fun placed => (h.setAll hroom le_rfl s placed).fitting.isSome_cover?

theorem Decides.add (h : r.Decides fits room s) (line : Nat) (d : Definition) :
    (r.add room s line d).Decides fits room s :=
  fun placed => h ((line, d) :: placed)

theorem Decides.cover?_eq_none (h : r.Decides fits room s) {line : Nat}
    (hline : fits line = false) : r.counts.cover? room line = none := by
  rw [← Option.not_isSome_iff_eq_none, show (r.counts.cover? room line).isSome = _ from h [] line,
    hline]
  exact Bool.false_ne_true

theorem Decides.exists_cover? (h : r.Decides fits room s) {line : Nat}
    (hline : fits line = true) : ∃ c, r.counts.cover? room line = some c := by
  rw [← Option.isSome_iff_exists]
  exact (h [] line).trans hline

/-- Breakpoints at lines that cannot be counted are ignored. -/
theorem Decides.setAll_of_unfit (h : r.Decides fits room s) {placed : List (Nat × Definition)}
    (hunfit : ¬∃ p ∈ placed, fits p.1 = true) : r.setAll room s placed = r := by
  induction placed with
  | nil => rfl
  | cons p rest ih =>
    rw [List.exists_mem_cons_iff, not_or, Bool.not_eq_true] at hunfit
    rw [Registry.setAll, List.foldl_cons, add_of_cover?_eq_none (h.cover?_eq_none hunfit.1)]
    exact ih hunfit.2

/-- All other breakpoints are written to the table of the source. -/
theorem Decides.exists_setAll_eq_write (h : r.Decides fits room s)
    {placed : List (Nat × Definition)} (hplaced : ∃ p ∈ placed, fits p.1 = true) :
    ∃ t c, r.setAll room s placed = r.write s t c := by
  induction placed generalizing r with
  | nil => simp at hplaced
  | cons p rest ih =>
    have hlater := h.add p.1 p.2
    rw [Registry.setAll, List.foldl_cons]
    by_cases hrest : ∃ p ∈ rest, fits p.1 = true
    · obtain ⟨t, c, hwritten⟩ := ih hlater hrest
      refine ⟨t, c, hwritten.trans ?_⟩
      cases hp : fits p.1 with
      | false => rw [add_of_cover?_eq_none (h.cover?_eq_none hp)]
      | true =>
        obtain ⟨c', hc'⟩ := h.exists_cover? hp
        rw [add_eq_write hc', write_write]
    · -- The first line is the only one that fits.
      have hp : fits p.1 = true :=
        ((List.exists_mem_cons_iff ..).1 hplaced).resolve_right hrest
      obtain ⟨c', hc'⟩ := h.exists_cover? hp
      exact ⟨_, _, (hlater.setAll_of_unfit hrest).trans (add_eq_write hc' s p.2)⟩

/-- **What the sources hold afterwards.** The source has at each line that can be counted
the last definition that there is for the line; all else is as before. -/
theorem Decides.get?_setAll (h : r.Decides fits room s) (hw : r.WellFormed)
    (placed : List (Nat × Definition)) (s' : Source) (line : Nat) :
    ((r.setAll room s placed).contents s').get? line =
      if s' = s ∧ fits line = true then
        (r.contents s).redefined? line (lastDefinition? placed line)
      else (r.contents s').get? line := by
  induction placed generalizing r with
  | nil =>
    split
    · next hs => rw [hs.1]; rfl
    · rfl
  | cons p rest ih =>
    have hp : (r.counts.cover? room p.1).isSome = fits p.1 := h [] p.1
    rw [Registry.setAll, List.foldl_cons]
    refine (ih (h.add p.1 p.2) (hw.add room s p.1 p.2)).trans ?_
    rw [hw.contents_add, hw.contents_add, hp, lastDefinition?_cons]
    split
    · next hs =>
      cases hfits : fits p.1 with
      | false =>
        have hne : line ≠ p.1 := by
          rintro rfl
          rw [hfits] at hs
          cases hs.2
        simp [hne]
      | true => simp [Table.redefined?_define]
    · next hs =>
      split
      · next hs' =>
        have hne : line ≠ p.1 := by
          rintro rfl
          exact hs hs'.symm
        rw [Table.get?_define, if_neg hne, hs'.2]
      · rfl

/-- **How far the counts reach afterwards** depends on the lines alone. -/
theorem Decides.lt_size_setAll_iff (h : r.Decides fits room s)
    (placed : List (Nat × Definition)) (line : Nat) :
    line < (r.setAll room s placed).counts.size ↔
      line < r.counts.size ∨ ∃ p ∈ placed, line ≤ p.1 ∧ fits p.1 = true := by
  induction placed generalizing r with
  | nil => simp
  | cons p rest ih =>
    rw [Registry.setAll, List.foldl_cons]
    refine (ih (h.add p.1 p.2)).trans ?_
    rw [List.exists_mem_cons_iff]
    cases hp : fits p.1 with
    | false => simp [add_of_cover?_eq_none (h.cover?_eq_none hp)]
    | true =>
      obtain ⟨c, hc⟩ := h.exists_cover? hp
      rw [size_counts_add hc, lt_max_iff, Nat.lt_succ_iff, or_assoc, and_iff_left rfl]

/-- **Nothing matters but the last definition** of each line that can be counted. -/
theorem Decides.setAll_congr (h : r.Decides fits room s) {history : List Event}
    (ha : Arises history r) {xs ys : List (Nat × Definition)}
    (hlast : ∀ line, fits line = true → lastDefinition? xs line = lastDefinition? ys line) :
    r.setAll room s xs = r.setAll room s ys := by
  have hw : r.WellFormed := ha.wellFormed
  have hmentioned {P : Nat → Prop} :
      (∃ p ∈ xs, P p.1 ∧ fits p.1 = true) ↔ ∃ p ∈ ys, P p.1 ∧ fits p.1 = true := by
    rw [exists_mem_iff_lastDefinition? (P := fun line => P line ∧ fits line = true),
      exists_mem_iff_lastDefinition? (P := fun line => P line ∧ fits line = true)]
    refine exists_congr fun line => and_congr_right fun hline => ?_
    rw [hlast line hline.2]
  have hfits : (∃ p ∈ xs, fits p.1 = true) ↔ ∃ p ∈ ys, fits p.1 = true := by
    simpa using hmentioned (P := fun _ => True)
  by_cases hxs : ∃ p ∈ xs, fits p.1 = true
  · obtain ⟨t, c, hx⟩ := h.exists_setAll_eq_write hxs
    obtain ⟨t', c', hy⟩ := h.exists_setAll_eq_write (hfits.1 hxs)
    have hcontents (s' : Source) :
        (r.setAll room s xs).contents s' = (r.setAll room s ys).contents s' := by
      apply Table.ext_get?
      intro line
      rw [h.get?_setAll hw, h.get?_setAll hw]
      split
      · next hs => rw [hlast line hs.2]
      · rfl
    have hsize : (r.setAll room s xs).counts.size = (r.setAll room s ys).counts.size := by
      apply eq_of_forall_lt_iff
      intro line
      rw [h.lt_size_setAll_iff, h.lt_size_setAll_iff, hmentioned]
    have hexact (placed : List (Nat × Definition)) : (r.setAll room s placed).Exact :=
      Arises.exact (ha.setBreakpoints room s placed)
    have hcounts : (r.setAll room s xs).counts = (r.setAll room s ys).counts :=
      LineCounts.ext_count hsize fun line =>
        (hexact xs).count_eq (hexact ys) fun s' => by rw [hcontents]
    have ht : t = t' := by
      rw [← hw.contents_write_self s t c, ← hx, hcontents, hy, hw.contents_write_self]
    have hc : c = c' := by
      rw [hx, hy] at hcounts
      exact hcounts
    rw [hx, hy, ht, hc]
  · rw [h.setAll_of_unfit hxs, h.setAll_of_unfit (mt hfits.2 hxs)]

/-- A line that is not mentioned, or cannot be counted, is as before in every source. -/
theorem Decides.setAll_unmentioned (h : r.Decides fits room s) {history : List Event}
    (ha : Arises history r) {placed : List (Nat × Definition)} {line : Nat}
    (hline : fits line = true → line ∉ placed.map Prod.fst) :
    (∀ s', ((r.setAll room s placed).contents s').get? line = (r.contents s').get? line) ∧
      (r.setAll room s placed).counts.count line = r.counts.count line := by
  have hget (s' : Source) :
      ((r.setAll room s placed).contents s').get? line = (r.contents s').get? line := by
    rw [h.get?_setAll ha.wellFormed]
    split
    · next hs =>
      have hnone : lastDefinition? placed line = none := by
        rw [← Option.not_isSome_iff_eq_none, isSome_lastDefinition?_iff]
        exact hline hs.2
      rw [hnone, hs.1]
      rfl
    · rfl
  constructor
  · exact hget
  · have hexact : (r.setAll room s placed).Exact := Arises.exact (ha.setBreakpoints room s placed)
    exact hexact.count_eq ha.exact fun s' => congrArg Option.isSome (hget s')

end Registry

/-! ## Debuggers -/

namespace Session

/-- **Only the last definition of a line counts.** After any requests, also while checks are
suspended, let it be decided by the line alone whether a line can be counted. Then two lists
of breakpoints that have the same last definition for every line that can be counted leave
the same debugger: the same breakpoints with the same hits, counts, sources and bindings.
So the order of different lines is irrelevant, a line that is defined again later might as
well be left out, setting a list again changes nothing, and setting one list after the other
is setting both at once. Where a line is defined the source has its last definition and the
hits that it had; nothing else changes, and nothing at all if no line can be counted. -/
theorem last_definitions_decide (config : Config) (pathOf : String → Option String)
    (requests : List Request) (room fits : Nat → Bool) (s : Source)
    (h : ((new config pathOf).served requests).debugger.registry.Decides fits room s) :
    let d := ((new config pathOf).served requests).debugger
    let set (d : Debugger) (placed : List (Nat × Definition)) := d.setBreakpoints room s placed
    (∀ xs ys, (∀ line, fits line = true → lastDefinition? xs line = lastDefinition? ys line) →
        set d xs = set d ys) ∧
      (∀ xs ys, xs.Perm ys → (xs.map Prod.fst).Nodup → set d xs = set d ys) ∧
      (∀ front p back, p.1 ∈ back.map Prod.fst →
        set d (front ++ p :: back) = set d (front ++ back)) ∧
      (∀ xs, set (set d xs) xs = set d xs) ∧
      (∀ xs ys, set (set d xs) ys = set d (xs ++ ys)) ∧
      (∀ xs s' line, ((set d xs).registry.contents s').get? line =
        if s' = s ∧ fits line = true then
          (d.registry.contents s).redefined? line (lastDefinition? xs line)
        else (d.registry.contents s').get? line) ∧
      (∀ xs line, (fits line = true → line ∉ xs.map Prod.fst) →
        (∀ s', ((set d xs).registry.contents s').get? line = (d.registry.contents s').get? line) ∧
          (set d xs).registry.counts.count line = d.registry.counts.count line) ∧
      (∀ xs, (∀ p ∈ xs, fits p.1 = false) → set d xs = d) := by
  intro d set
  obtain ⟨history, hrecorded⟩ := (recorded_new config pathOf).served requests
  have ha : Registry.Arises history d.registry := hrecorded.arises
  have hcongr {xs ys : List (Nat × Definition)}
      (hlast : ∀ line, fits line = true → lastDefinition? xs line = lastDefinition? ys line) :
      set d xs = set d ys :=
    congrArg (fun registry => { d with registry }) (h.setAll_congr ha hlast)
  have happend (xs ys : List (Nat × Definition)) : set (set d xs) ys = set d (xs ++ ys) := by
    simp only [set, Debugger.setBreakpoints, List.foldl_append]
  refine ⟨fun xs ys => hcongr, ?_, ?_, ?_, happend, ?_, ?_, ?_⟩
  · intro xs ys hperm hnodup
    exact hcongr fun line _ => lastDefinition?_perm hperm hnodup line
  · intro front p back hagain
    exact hcongr fun line _ => lastDefinition?_of_redefined hagain front line
  · intro xs
    rw [happend]
    apply hcongr
    intro line _
    rw [lastDefinition?_append, Option.or_self]
  · exact h.get?_setAll ha.wellFormed
  · intro xs line hline
    exact h.setAll_unmentioned ha hline
  · intro xs hunfit
    have hnone : ¬∃ p ∈ xs, fits p.1 = true := by simpa using hunfit
    exact congrArg (fun registry => { d with registry }) (h.setAll_of_unfit hnone)

/-- A list is sent again in another order; one line is defined twice, others are out of
range. The breakpoint that was hit keeps its hit. -/
theorem last_definitions_decide_resent :
    let room : Nat → Bool := fun n => n ≤ 10
    let s : Source := .path "a"
    let requests : List Request :=
      [.tell (.setBreakpoints room s [(3, {})]), .tell (.line (Frame.inFile "a" 1 3))]
    let d := ((new {} chunkPath).served requests).debugger
    let xs : List (Nat × Definition) :=
      [(3, { condition := some "x" }), (12, {}), (5, {}), (3, { logMessage := some "y" })]
    let ys : List (Nat × Definition) := [(3, { logMessage := some "y" }), (40, {}), (5, {})]
    d.registry.Decides (LineCounts.fits room) room s ∧
      (∀ line, LineCounts.fits room line = true →
        lastDefinition? xs line = lastDefinition? ys line) ∧
      d.setBreakpoints room s xs = d.setBreakpoints room s ys ∧
      (d.setBreakpoints room s xs).breakpoints s =
        [(3, ⟨none, none, some "y", 1⟩), (5, ⟨none, none, none, 0⟩)] := by
  intro room s requests d xs ys
  obtain ⟨history, hrecorded⟩ := (recorded_new {} chunkPath).served requests
  have ha : Registry.Arises history d.registry := hrecorded.arises
  have hroom : LineCounts.RoomForFewer room := fun m n hmn hn =>
    decide_eq_true (hmn.trans (of_decide_eq_true hn))
  have hfitting : d.registry.counts.Fitting room := by
    have hsize : d.registry.counts.size = 4 := by decide +kernel
    have hcovered : ∀ line < 4, LineCounts.fits room line = true := by decide
    exact fun line hline => hcovered line (hsize ▸ hline)
  have hdecides : d.registry.Decides (LineCounts.fits room) room s :=
    Registry.Sound.decides hroom ⟨ha.wellFormed, ha.exact, hfitting⟩ s
  have hlast : ∀ line, LineCounts.fits room line = true →
      lastDefinition? xs line = lastDefinition? ys line := by
    have hnear : ∀ line < 10, lastDefinition? xs line = lastDefinition? ys line := by decide
    intro line hline
    have hfits : room (line + 1) = true := (Bool.and_eq_true_iff.1 hline).2
    exact hnear line (of_decide_eq_true hfits)
  exact ⟨hdecides, hlast,
    (last_definitions_decide {} chunkPath requests room _ s hdecides).1 xs ys hlast,
    by decide +kernel⟩

end Session

end Breakpoints

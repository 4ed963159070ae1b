import Breakpoints.Proofs.Debugger.Attribution
import Breakpoints.Proofs.Script.Comparison
import Breakpoints.Script.Guest

/-!
# Hit conditions count hits

A breakpoint that has a hit condition and nothing else is hit whenever its line is reached,
so the condition is asked about one, two, three and so on (`Debugger.Counting.step` and
`Debugger.Counting.afterLines`). The guest reads the count back out of the text that it was
pasted into, so an operator and a numeral as the hit condition compare the count with the
number (`hit_conditions_count`).
-/

namespace Breakpoints

variable {σ : Type}

open LineCounts (fits)

/-! ## A hit condition by itself -/

namespace Breakpoint

/-- A breakpoint with a hit condition and nothing else. -/
def countingHits (hitCondition : String) (hits : Nat) : Breakpoint :=
  ⟨none, some hitCondition, none, hits⟩

/-- Whether a condition holds by what came of its evaluation. -/
def satisfied : Except Fault (List Value) → Bool
  | .ok values => values.head?.any Value.isTrue
  | .error _ => false

/-- Without a log message, whether to pause is whether the hit condition holds. -/
theorem result_run_checkHit (channel : Channel) (id : TableId) (line : Nat) (hitCondition : String)
    (hits hits' : Nat) (g : Dialogue.Guest σ) (ts : Tables) (state : σ) :
    (((countingHits hitCondition hits).checkHit channel line hits').run g id line ts state).result =
      satisfied (g.evaluate (Template.script (hitExpression hits' hitCondition)) state).1 := by
  simp only [checkHit, countingHits, Option.map_some, Dialogue.holdsIfAny, Dialogue.holds,
    Dialogue.bind, Dialogue.run]
  generalize (g.evaluate (Template.script (hitExpression hits' hitCondition)) state).1 = outcome
  cases outcome with
  | error fault => rfl
  | ok values =>
    simp only [Dialogue.done_bind, satisfied]
    cases values.head?.any Value.isTrue <;> rfl

/-- The hit is counted first; then the condition is asked about the new count. -/
theorem checkAlone_countingHits (channel : Channel) (line : Nat) (hitCondition : String)
    {hits : Nat} (hlt : hits < maxHits) (g : Dialogue.Guest σ) (state : σ) :
    let e := (countingHits hitCondition hits).checkAlone channel line g state
    let script := Template.script (hitExpression (hits + 1) hitCondition)
    e.result = satisfied (g.evaluate script state).1 ∧
      (e.tables.get ⟨0⟩).get? line = some (countingHits hitCondition (hits + 1)) := by
  intro e script
  let b := countingHits hitCondition hits
  let ts : Tables := ⟨[Table.empty.set line b]⟩
  have hhit : b.hit = countingHits hitCondition (hits + 1) :=
    congrArg (countingHits hitCondition) (Nat.min_eq_left hlt)
  have hget : (ts.get ⟨0⟩).get? line = some b := by simp [ts, Tables.get]
  have hcount : (Dialogue.countHit ⟨0⟩ line ts).1 = some (hits + 1) := by
    simp only [Dialogue.countHit, Table.recordHit?, hget, Option.map_some, hhit]
    rfl
  have htables : ((Dialogue.countHit ⟨0⟩ line ts).2.get ⟨0⟩).get? line =
      some (countingHits hitCondition (hits + 1)) := by
    rw [Tables.get_countHit, if_pos rfl, Table.get?_hit, if_pos rfl, hget, Option.map_some, hhit]
  have hrun : e = ((b.checkHit channel line (hits + 1)).run g ⟨0⟩ line
      (Dialogue.countHit ⟨0⟩ line ts).2 state).after [.hit ⟨0⟩ line (hits + 1)] := by
    show (b.check channel line).run g ⟨0⟩ line ts state = _
    rw [check_eq_bind]
    show (b.checkOnceHeld channel line true).run g ⟨0⟩ line ts state = _
    simp only [checkOnceHeld, Dialogue.run, hcount]
    rfl
  rw [hrun]
  refine ⟨result_run_checkHit channel ⟨0⟩ line hitCondition hits (hits + 1) g _ state, ?_⟩
  have hsilent := b.onlyShows_checkHit channel line (hits + 1)
  show ((Dialogue.Ending.tables (Dialogue.run g ⟨0⟩ line _ _ state)).get ⟨0⟩).get? line = _
  rw [hsilent.tables_run]
  exact htables

end Breakpoint

/-! ## Reaching a line again and again -/

namespace Debugger

variable {describe : Nat → Nat → Option Chunk} {d : Debugger} {frame : Frame} {s : Source}
  {line n : Nat} {hitCondition : String}

/-- The debugger after the line of a frame was reached some number of times in a row. -/
def afterLines (g : Dialogue.Guest Unit) (frame : Frame) (d : Debugger) : Nat → Debugger
  | 0 => d
  | n + 1 => ((d.afterLines g frame n).runLine g frame ()).debugger

/-- The frame is in the source, where nothing but a hit condition decides about the line; the
line was reached `n` times. -/
structure Counting (describe : Nat → Nat → Option Chunk) (frame : Frame) (s : Source)
    (line : Nat) (hitCondition : String) (n : Nat) (d : Debugger) : Prop where
  sound : d.Sound describe fun _ => true
  describes : d.Describes describe frame
  reached : frame.At d.config d.pathOf s line
  held : (d.registry.contents s).get? line = some (.countingHits hitCondition n)

theorem Counting.hits? (h : d.Counting describe frame s line hitCondition n) :
    d.hits? s line = some n :=
  congrArg (Option.map Breakpoint.hits) h.held

/-- **One more line** is one more hit, and the hit condition decides about it. -/
theorem Counting.step (h : d.Counting describe frame s line hitCondition n)
    (hlt : n < Breakpoint.maxHits) (g : Dialogue.Guest σ) (state : σ) :
    let o := d.runLine g frame state
    let script := Template.script (Breakpoint.hitExpression (n + 1) hitCondition)
    o.pause = Breakpoint.satisfied (g.evaluate script state).1 ∧
      o.debugger.Counting describe frame s line hitCondition (n + 1) := by
  intro o script
  obtain ⟨⟨hpause, -, -, hget⟩, -, -⟩ :=
    h.sound.runLine_at h.describes h.reached h.held (Nat.le_of_lt hlt) g state
  obtain ⟨hresult, htables⟩ :=
    Breakpoint.checkAlone_countingHits d.config.channel line hitCondition hlt g state
  have hsettings : d.SameSettings o.debugger := d.sameSettings_obey (.line frame g state)
  refine ⟨hpause.trans hresult, h.sound.runLine h.describes g state,
    hsettings.describes h.describes, ?_, hget.trans htables⟩
  rw [hsettings.config, hsettings.pathOf]
  exact h.reached

/-- Lines in a row are counted one by one. -/
theorem Counting.afterLines (h : d.Counting describe frame s line hitCondition 0)
    (g : Dialogue.Guest Unit) (hle : n ≤ Breakpoint.maxHits) :
    (d.afterLines g frame n).Counting describe frame s line hitCondition n := by
  induction n with
  | zero => exact h
  | succ n ih => exact ((ih (Nat.le_of_succ_le hle)).step hle g ()).2

end Debugger

/-! ## Comparing the count with a number -/

namespace Script

open Text (allBlank Numeral)

/-- The count of hits is read back out of the script, and compared as an integer. -/
theorem evaluate_hitExpression (locals : Locals) (op : Operator) {blanks numeral : List Char}
    {k : Int} {hits : Nat} (hblanks : allBlank blanks = true) (hnumeral : Numeral numeral k)
    (hk : isInt64 k = true) (hhits : isInt64 hits = true) :
    evaluate locals (Template.script (Breakpoint.hitExpression hits
      (String.ofList (op.symbol ++ (blanks ++ numeral))))) =
        .ok [.boolean (decide (op.Holds (hits : Int) k))] := by
  have hscript : Template.script (Breakpoint.hitExpression hits
      (String.ofList (op.symbol ++ (blanks ++ numeral)))) =
        "return " ++ String.ofList
          ((Text.decimalDigits hits ++ [' ']) ++ (op.symbol ++ (blanks ++ numeral))) := by
    have hblank : " " = String.ofList [' '] := rfl
    simp only [Template.script, Breakpoint.hitExpression, Text.decimal, hblank,
      ← String.ofList_append]
  have hcount : Denotes locals (Text.decimalDigits hits) (.integer hits) :=
    .integer (Text.numeral_decimalIntDigits hits) hhits
  have hleft : IsOperand locals (Text.decimalDigits hits ++ [' ']) (.integer hits) :=
    ⟨[], Text.decimalDigits hits, [' '], rfl, rfl, rfl, hcount⟩
  have hright : IsOperand locals (blanks ++ numeral) (.integer k) :=
    ⟨blanks, numeral, [], hblanks, rfl, by rw [List.append_nil], .integer hnumeral hk⟩
  have hquote : ¬Quoted (Text.decimalDigits hits ++ [' ']) := by
    rw [← List.nil_append (_ ++ _), quoted_append_iff rfl hcount]
    intro hhead
    have hdigit := Text.isDigit_of_mem_decimalDigits (List.mem_of_mem_head? hhead)
    exact absurd hdigit (by decide)
  rw [hscript, evaluate_of_operands op hleft hright fun h => absurd h hquote, compareValues_integer]
  rfl

end Script

/-! ## From a new debugger on -/

theorem LineCounts.cover?_of_fits {room : Nat → Bool} {line : Nat} (h : fits room line = true)
    (c : LineCounts) : c.cover? room line = c.cover? (fun _ => true) line := by
  simp only [fits, Bool.and_eq_true] at h
  simp only [cover?, h.1, h.2, Bool.and_true]

theorem Registry.add_of_fits {room : Nat → Bool} {line : Nat} (h : fits room line = true)
    (s : Source) (d : Definition) (r : Registry) :
    r.add room s line d = r.add (fun _ => true) s line d := by
  simp only [add, LineCounts.cover?_of_fits h]

/-- A frame in a file belongs to the source with the path of the file. -/
theorem Frame.inFile_at {path : String} (hpath : path ≠ "") (function line : Nat) :
    (inFile path function line).At {} chunkPath (.path path) line := by
  have hlist : ("@" ++ path).toList = '@' :: path.toList := by rw [String.toList_append]; rfl
  have hknown : chunkPath ("@" ++ path) = some path := by
    have hne : path.toList ≠ [] := fun h => hpath (String.toList_eq_nil_iff.1 h)
    obtain ⟨c, cs, hcs⟩ := List.exists_cons_of_ne_nil hne
    rw [chunkPath, hlist, hcs]
    exact congrArg some (by rw [← hcs, String.ofList_toList])
  refine ⟨rfl, rfl, _, rfl, .named ⟨'@', by decide, ?_⟩ hknown⟩
  show ("@" ++ path).toList.head? = some '@'
  rw [hlist]
  rfl

/-- A new debugger with one breakpoint has not counted a hit. -/
theorem Debugger.counting_new {room : Nat → Bool} {path hitCondition : String} {line : Nat}
    (hpath : path ≠ "") (hline : fits room line = true) (htext : hitCondition ≠ "")
    (function : Nat) :
    ((new {} chunkPath).setBreakpoints room (.path path)
      [(line, { hitCondition := some hitCondition })]).Counting
        (fun _ _ => (Frame.inFile path function line).chunk) (Frame.inFile path function line)
        (.path path) line hitCondition 0 := by
  have hsound : (new {} chunkPath).Sound (fun _ _ => (Frame.inFile path function line).chunk)
      (fun _ => true) := sound_new {} chunkPath
  have hroom : LineCounts.RoomForFewer fun _ => true := fun _ _ _ _ => rfl
  have hset : (new {} chunkPath).setBreakpoints room (.path path)
      [(line, { hitCondition := some hitCondition })] =
        (new {} chunkPath).setBreakpoints (fun _ => true) (.path path)
          [(line, { hitCondition := some hitCondition })] := by
    simp only [setBreakpoints, List.foldl_cons, List.foldl_nil, Registry.add_of_fits hline]
  have hfits : fits (fun _ => true) line = true := by
    simp only [fits, Bool.and_eq_true] at hline ⊢
    exact ⟨hline.1, trivial⟩
  have htext' : nonempty (some hitCondition) = some hitCondition := by
    simp [nonempty, htext]
  rw [hset]
  refine ⟨⟨hsound.registry.setAll hroom le_rfl _ _, hsound.coherent.setBreakpoints _ _ _⟩, ?_,
    Frame.inFile_at hpath function line, ?_⟩
  · exact fun _ epoch function _ _ => rfl
  · show (Registry.contents (List.foldl _ _ _) _).get? line = _
    rw [hsound.registry.contents_setAll hroom, if_pos rfl]
    simp only [Table.defineAll, List.foldl_cons, List.foldl_nil, hfits, if_true, Table.get?_define,
      Breakpoint.ofDefinition, htext', nonempty_none]
    rfl

/-- **Hit conditions count hits.** Take a new debugger with one breakpoint, whose only text is
an operator and a numeral of 64 bits as its hit condition. When the line of the breakpoint is
reached in its file again and again, the `j`-th time pauses exactly if `j` stands in the
relation of the operator to the number, and makes `j` hits, whatever locals the guest has. -/
theorem hit_conditions_count (locals : Script.Locals) {room : Nat → Bool} {path : String}
    (function : Nat) {line : Nat} (op : Script.Operator) {blanks numeral : List Char} {k : Int}
    {j : Nat} (hpath : path ≠ "") (hline : fits room line = true)
    (hblanks : Text.allBlank blanks = true) (hnumeral : Text.Numeral numeral k)
    (hk : Script.isInt64 k = true) (hpos : 0 < j) (hj : j < 0x8000000000000000) :
    let hitCondition := String.ofList (op.symbol ++ (blanks ++ numeral))
    let d := (Debugger.new {} chunkPath).setBreakpoints room (.path path)
      [(line, { hitCondition := some hitCondition })]
    let frame := Frame.inFile path function line
    let before := d.afterLines (Script.guest locals) frame (j - 1)
    let o := before.runLine (Script.guest locals) frame ()
    (o.pause = true ↔ op.Holds (j : Int) k) ∧ o.debugger.hits? (.path path) line = some j := by
  intro hitCondition d frame before o
  obtain ⟨n, rfl⟩ : ∃ n, j = n + 1 := ⟨j - 1, by omega⟩
  have htext : hitCondition ≠ "" := by
    simp [hitCondition, op.symbol_ne_nil]
  have hcount : Script.isInt64 (n + 1 : Nat) = true := by
    simp only [Script.isInt64, Bool.and_eq_true, decide_eq_true_eq]
    omega
  have hlt : n < Breakpoint.maxHits := by
    simp only [Breakpoint.maxHits]
    omega
  have hbefore := (Debugger.counting_new hpath hline htext function).afterLines
    (Script.guest locals) (Nat.le_of_lt hlt)
  obtain ⟨hpause, hafter⟩ := hbefore.step hlt (Script.guest locals) ()
  constructor
  · have hevaluated : ((Script.guest locals).evaluate
        (Template.script (Breakpoint.hitExpression (n + 1) hitCondition)) ()).1 = _ :=
      Script.evaluate_hitExpression locals op hblanks hnumeral hk hcount
    rw [show o.pause = _ from hpause, hevaluated]
    simp [Breakpoint.satisfied, Value.isTrue]
  · exact hafter.hits?

/-- `>= +2` pauses at the second line; a local plays no part. -/
theorem hit_conditions_count_second :
    let d := (Debugger.new {} chunkPath).setBreakpoints (· ≤ 100) (.path "a")
      [(3, { hitCondition := some ">= +2" })]
    let frame := Frame.inFile "a" 1 3
    let guest := Script.guest [("hits", .boolean false)]
    let o := (d.afterLines guest frame 1).runLine guest frame ()
    o.pause = true ∧ o.debugger.hits? (.path "a") 3 = some 2 := by
  have hnumeral : Text.Numeral ['+', '2'] 2 := Text.readInt_eq_some_iff.1 (by decide)
  have hpath : "a" ≠ "" := by decide
  have hline : fits (· ≤ 100) 3 = true := by decide
  have hblanks : Text.allBlank [' '] = true := by decide
  obtain ⟨hpause, hhits⟩ := hit_conditions_count [("hits", .boolean false)] 1 .ge (j := 2) hpath
    hline hblanks hnumeral (by decide) (by decide) (by decide)
  exact ⟨hpause.2 (by decide), hhits⟩

end Breakpoints

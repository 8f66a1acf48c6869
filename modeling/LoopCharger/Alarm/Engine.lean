import Mathlib.Data.List.ReduceOption
import Mathlib.Tactic.SplitIfs
import LoopCharger.Lib.Machine

/-!
# The alarm engine

`lib/alarm/alarm_engine.c`: one pass reads the register of every row of an alarm table, evaluates
the row's condition on it and emits trigger and clear events. The read function is outside the
engine, and its answers may change from one call to the next within a pass, so a pass is given by
the answer to each of its calls.

A row touches no other row's state. The engine therefore runs one *row machine* for each row of
its table (`alarmEngineRun_row`), and what the events of a row are is settled on that machine.

## Main definitions

* `AlarmEntry`, `AlarmState`, `AlarmCtx`, `alarmEngineRun`: the engine.
* `rowMachine`: one row with its state, reading one value or failing to in each pass.
* `lastRead`: the value of the last successful read of a row.

## Main results

* `alarmEngineRun_row`: the engine, seen at one row, is the machine of that row.
* `sticky_events`: the events of a `BITMASK` or `RANGE` row.
* `change_events_iff`: the events of a `CHANGE` row are the documented ones exactly in the runs
  where the register never returns to zero.
-/

namespace LoopCharger.Alarm

/-! ### The engine -/

/-- The trigger conditions; `unknown` stands for a value outside the enumeration. -/
inductive AlarmCond
  | bitmask
  | range
  | change
  | unknown
  deriving DecidableEq, Repr

inductive AlarmEvent
  | trigger
  | clear
  deriving DecidableEq, Repr

/-- One row of an alarm table. -/
structure AlarmEntry where
  deviceAddress : UInt16
  condition : AlarmCond
  loLimit : UInt16
  hiLimit : UInt16
  errorCode : UInt16
  description : String
  deriving DecidableEq, Repr

/-- The runtime state of a row, zeroed at startup. -/
structure AlarmState where
  isActive : Bool := false
  prevValue : UInt16 := 0
  deriving DecidableEq, Repr

/-- One call of the event callback. The callback gets a pointer to the row, which is its index
in the table. -/
structure AlarmEmission where
  index : ℕ
  entry : AlarmEntry
  value : UInt16
  event : AlarmEvent
  deriving DecidableEq, Repr

/-- The answers of the read function during one pass: to its `i`-th call, made for the given
register address. -/
abbrev AlarmReads := ℕ → UInt16 → Option UInt16

/-- An engine context: a table and a state for each of its rows. -/
structure AlarmCtx where
  table : List AlarmEntry
  states : List AlarmState
  length_states : states.length = table.length

/-- All bits of the mask `hi_limit` are set in the value. -/
def evalBitmask (entry : AlarmEntry) (value : UInt16) : Bool :=
  (value &&& entry.hiLimit) == entry.hiLimit

/-- The value is outside the limits. -/
def evalRange (entry : AlarmEntry) (value : UInt16) : Bool :=
  value < entry.loLimit || value > entry.hiLimit

/-- The value is not the one of the last pass. -/
def evalChange (state : AlarmState) (value : UInt16) : Bool :=
  value != state.prevValue

/-- The sticky state machine of the `BITMASK` and `RANGE` conditions. -/
def applySticky (state : AlarmState) (triggered : Bool) : AlarmState × Option AlarmEvent :=
  if triggered && !state.isActive then ({ state with isActive := true }, some .trigger)
  else if !triggered && state.isActive then ({ state with isActive := false }, some .clear)
  else (state, none)

/-- The `switch` of the loop body, on a value that was read. -/
def evalEntry (entry : AlarmEntry) (state : AlarmState) (value : UInt16) :
    AlarmState × Option AlarmEvent :=
  match entry.condition with
  | .bitmask => applySticky state (evalBitmask entry value)
  | .range => applySticky state (evalRange entry value)
  | .change =>
    let changed := evalChange state value
    ({ state with prevValue := value }, if changed then some .trigger else none)
  | .unknown => (state, none)

/-- The loop body: a row whose register cannot be read is skipped. -/
def evalRow (entry : AlarmEntry) (state : AlarmState) (read : Option UInt16) :
    AlarmState × List (UInt16 × AlarmEvent) :=
  match read with
  | none => (state, [])
  | some value =>
    let r := evalEntry entry state value
    (r.1, r.2.toList.map fun event => (value, event))

/-- The loop over the rows from the `i`-th on. -/
def alarmEngineLoop (read : AlarmReads) :
    ℕ → List AlarmEntry → List AlarmState → List AlarmState × List AlarmEmission
  | i, entry :: table, state :: states =>
    let r := evalRow entry state (read i entry.deviceAddress)
    let rest := alarmEngineLoop read (i + 1) table states
    (r.1 :: rest.1, r.2.map (fun e => ⟨i, entry, e.1, e.2⟩) ++ rest.2)
  | _, _, states => (states, [])

@[simp] theorem length_alarmEngineLoop (read : AlarmReads) (i : ℕ) (table : List AlarmEntry)
    (states : List AlarmState) :
    (alarmEngineLoop read i table states).1.length = states.length := by
  induction table generalizing i states with
  | nil => cases states <;> rfl
  | cons entry table ih =>
    cases states with
    | nil => rfl
    | cons state states => simp only [alarmEngineLoop, List.length_cons, ih]

/-- One pass over the table. -/
def alarmEngineRun (ctx : AlarmCtx) (read : AlarmReads) : AlarmCtx × List AlarmEmission :=
  let r := alarmEngineLoop read 0 ctx.table ctx.states
  (⟨ctx.table, r.1, by rw [length_alarmEngineLoop, ctx.length_states]⟩, r.2)

/-- A context with zeroed states. -/
def AlarmCtx.start (table : List AlarmEntry) : AlarmCtx :=
  ⟨table, List.replicate table.length {}, List.length_replicate⟩

/-- The runs of the engine: one input is one pass. -/
def alarmMachine : Lib.Machine AlarmCtx AlarmReads AlarmEmission where
  step := alarmEngineRun

/-! ### One row -/

/-- The runs of one row. -/
def rowMachine (entry : AlarmEntry) :
    Lib.Machine AlarmState (Option UInt16) (UInt16 × AlarmEvent) where
  step := evalRow entry

@[simp] theorem step_rowMachine (entry : AlarmEntry) :
    (rowMachine entry).step = evalRow entry := rfl

/-- The events of the row `i`, as values and kinds. -/
def rowEvents (i : ℕ) (emitted : List AlarmEmission) : List (UInt16 × AlarmEvent) :=
  (emitted.filter fun e => e.index = i).map fun e => (e.value, e.event)

@[simp] theorem rowEvents_append (i : ℕ) (es fs : List AlarmEmission) :
    rowEvents i (es ++ fs) = rowEvents i es ++ rowEvents i fs := by
  simp only [rowEvents, List.filter_append, List.map_append]

theorem rowEvents_map_mk (i j : ℕ) (entry : AlarmEntry) (l : List (UInt16 × AlarmEvent)) :
    rowEvents i (l.map fun e => ⟨j, entry, e.1, e.2⟩) = if j = i then l else [] := by
  split_ifs with h <;> simp [rowEvents, List.filter_map, Function.comp_def, h]

/-- The rows from the `i`-th on emit nothing for an earlier row. -/
theorem rowEvents_alarmEngineLoop_of_lt (read : AlarmReads) {i j : ℕ} (hij : i < j)
    (table : List AlarmEntry) (states : List AlarmState) :
    rowEvents i (alarmEngineLoop read j table states).2 = [] := by
  induction table generalizing j states with
  | nil => cases states <;> rfl
  | cons entry table ih =>
    cases states with
    | nil => rfl
    | cons state states =>
      simp only [alarmEngineLoop, rowEvents_append, rowEvents_map_mk, ih (Nat.lt_succ_of_lt hij),
        List.append_nil, if_neg (Nat.ne_of_gt hij)]

/-- The loop, seen at one row, is the loop body of that row. -/
theorem alarmEngineLoop_row (read : AlarmReads) (i k : ℕ) (table : List AlarmEntry)
    (states : List AlarmState) {entry : AlarmEntry} {state : AlarmState}
    (he : table[k]? = some entry) (hs : states[k]? = some state) :
    (alarmEngineLoop read i table states).1[k]? =
        some (evalRow entry state (read (i + k) entry.deviceAddress)).1 ∧
      rowEvents (i + k) (alarmEngineLoop read i table states).2 =
        (evalRow entry state (read (i + k) entry.deviceAddress)).2 := by
  induction table generalizing i k states with
  | nil => simp at he
  | cons entry₀ table ih =>
    cases states with
    | nil => simp at hs
    | cons state₀ states =>
      cases k with
      | zero =>
        obtain rfl : entry₀ = entry := by simpa using he
        obtain rfl : state₀ = state := by simpa using hs
        refine ⟨rfl, ?_⟩
        simp only [alarmEngineLoop, Nat.add_zero, rowEvents_append, rowEvents_map_mk, if_true,
          rowEvents_alarmEngineLoop_of_lt read (Nat.lt_succ_self i), List.append_nil]
      | succ k =>
        have hk : i + (k + 1) = i + 1 + k := by omega
        obtain ⟨hstate, hevents⟩ := ih (i + 1) k states (by simpa using he) (by simpa using hs)
        rw [hk]
        refine ⟨by simpa only [alarmEngineLoop, List.getElem?_cons_succ] using hstate, ?_⟩
        simp only [alarmEngineLoop, rowEvents_append, rowEvents_map_mk, hevents,
          if_neg (show i ≠ i + 1 + k by omega), List.nil_append]

/-- **The engine, seen at one row, is the machine of that row.** The state of a row and its
events depend on the reads of that row only. -/
theorem alarmEngineRun_row (table : List AlarmEntry) {i : ℕ} {entry : AlarmEntry}
    (he : table[i]? = some entry) (passes : List AlarmReads) :
    let ctx := alarmMachine.state (.start table) passes
    let reads := passes.map fun read => read i entry.deviceAddress
    ctx.table = table ∧ ctx.states[i]? = some ((rowMachine entry).state {} reads) ∧
      rowEvents i (alarmMachine.trace (.start table) passes) =
        (rowMachine entry).trace {} reads := by
  induction passes using List.reverseRecOn with
  | nil =>
    have hi : i < table.length := (List.getElem?_eq_some_iff.mp he).1
    exact ⟨rfl, by simp [AlarmCtx.start, hi], rfl⟩
  | append_singleton passes read ih =>
    obtain ⟨htable, hstate, hevents⟩ := ih
    have hrow := alarmEngineLoop_row read 0 i _ _ (htable ▸ he) hstate
    simp only [Nat.zero_add] at hrow
    simp only [List.map_append, List.map_cons, List.map_nil, Lib.Machine.state_append,
      Lib.Machine.trace_append, Lib.Machine.state_cons, Lib.Machine.state_nil,
      Lib.Machine.trace_cons, Lib.Machine.trace_nil, List.append_nil, rowEvents_append, hevents]
    refine ⟨htable, hrow.1, ?_⟩
    exact congrArg _ hrow.2

/-- The events of a row in the next pass. -/
theorem rowEvents_alarmEngineRun (table : List AlarmEntry) {i : ℕ} {entry : AlarmEntry}
    (he : table[i]? = some entry) (passes : List AlarmReads) (read : AlarmReads) :
    rowEvents i (alarmEngineRun (alarmMachine.state (.start table) passes) read).2 =
      (evalRow entry
        ((rowMachine entry).state {} (passes.map fun read => read i entry.deviceAddress))
        (read i entry.deviceAddress)).2 := by
  obtain ⟨htable, hstate, -⟩ := alarmEngineRun_row table he passes
  have he' : (alarmMachine.state (.start table) passes).table[i]? = some entry := by
    rw [htable, he]
  have hrow := (alarmEngineLoop_row read 0 i _ _ he' hstate).2
  rw [Nat.zero_add] at hrow
  exact hrow

/-- The value of the last successful read, if there was one. -/
def lastRead (reads : List (Option UInt16)) : Option UInt16 := reads.reduceOption.getLast?

@[simp] theorem lastRead_nil : lastRead [] = none := rfl

@[simp] theorem lastRead_concat (reads : List (Option UInt16)) (read : Option UInt16) :
    lastRead (reads ++ [read]) = read.or (lastRead reads) := by
  cases read <;> simp [lastRead, List.reduceOption_append]

/-! ### Sticky rows -/

/-- Whether the condition of a `BITMASK` or `RANGE` row holds of a value. -/
def AlarmEntry.holds (entry : AlarmEntry) (value : UInt16) : Bool :=
  match entry.condition with
  | .bitmask => evalBitmask entry value
  | .range => evalRange entry value
  | _ => false

/-- Whether the condition holds of the value of the last successful read. -/
def AlarmEntry.lastHolds (entry : AlarmEntry) (reads : List (Option UInt16)) : Bool :=
  (lastRead reads).any entry.holds

/-- A row of one of the two sticky kinds. -/
def AlarmEntry.Sticky (entry : AlarmEntry) : Prop :=
  entry.condition = .bitmask ∨ entry.condition = .range

/-- `TRIGGER, CLEAR, TRIGGER, ...`, starting with `TRIGGER`. -/
def alternating (n : ℕ) : List AlarmEvent :=
  (List.range n).map fun k => if k % 2 = 0 then .trigger else .clear

/-- The loop body of a sticky row that is active while `b` holds. -/
theorem evalRow_sticky {entry : AlarmEntry} (hc : entry.Sticky) (b : Bool) (prev : UInt16)
    (read : Option UInt16) :
    (evalRow entry ⟨b, prev⟩ read).1 = ⟨(read.map entry.holds).getD b, prev⟩ ∧
      (evalRow entry ⟨b, prev⟩ read).2 =
        match read with
        | none => []
        | some v => if entry.holds v = b then []
          else [(v, if entry.holds v then .trigger else .clear)] := by
  cases read with
  | none => exact ⟨rfl, rfl⟩
  | some v =>
    have heval : evalEntry entry ⟨b, prev⟩ v = applySticky ⟨b, prev⟩ (entry.holds v) := by
      rcases hc with h | h <;> simp only [evalEntry, AlarmEntry.holds, h]
    simp only [evalRow, heval, applySticky, Option.map_some, Option.getD_some]
    cases entry.holds v <;> cases b <;> exact ⟨rfl, rfl⟩

/-- A sticky row is active exactly while its condition holds of the last value read. -/
theorem state_rowMachine_sticky {entry : AlarmEntry} (hc : entry.Sticky)
    (reads : List (Option UInt16)) :
    (rowMachine entry).state {} reads = ⟨entry.lastHolds reads, 0⟩ := by
  induction reads using List.reverseRecOn with
  | nil => rfl
  | append_singleton reads read ih =>
    simp only [Lib.Machine.state_append, Lib.Machine.state_cons, Lib.Machine.state_nil, ih]
    refine (evalRow_sticky hc _ _ read).1.trans ?_
    cases read <;> simp [AlarmEntry.lastHolds]

theorem alternating_succ (n : ℕ) :
    alternating (n + 1) = alternating n ++ [if n % 2 = 0 then .trigger else .clear] := by
  simp only [alternating, List.range_succ, List.map_append, List.map_cons, List.map_nil]

/-- The events of a sticky row alternate, and the row is active after an odd number of them. -/
theorem trace_rowMachine_sticky {entry : AlarmEntry} (hc : entry.Sticky)
    (reads : List (Option UInt16)) :
    ((rowMachine entry).trace {} reads).map Prod.snd =
        alternating ((rowMachine entry).trace {} reads).length ∧
      (entry.lastHolds reads = true ↔ ((rowMachine entry).trace {} reads).length % 2 = 1) := by
  induction reads using List.reverseRecOn with
  | nil => exact ⟨rfl, by simp [AlarmEntry.lastHolds]⟩
  | append_singleton reads read ih =>
    obtain ⟨halt, hodd⟩ := ih
    have hstep := (evalRow_sticky hc (entry.lastHolds reads) 0 read).2
    simp only [Lib.Machine.trace_append, Lib.Machine.trace_cons, Lib.Machine.trace_nil,
      List.append_nil, state_rowMachine_sticky hc, step_rowMachine, hstep]
    cases read with
    | none => simpa [AlarmEntry.lastHolds] using ⟨halt, hodd⟩
    | some v =>
      have hlast : entry.lastHolds (reads ++ [some v]) = entry.holds v := by
        simp [AlarmEntry.lastHolds]
      rw [hlast]
      dsimp only
      split_ifs with hsame hv
      · rw [List.append_nil, ← hodd, hsame]
        exact ⟨halt, Iff.rfl⟩
      all_goals
        simp only [List.map_append, halt, List.map_cons, List.map_nil, List.length_append,
          List.length_cons, List.length_nil, alternating_succ]
        grind

/-- **Sticky rows.** Whatever the other rows of the table are, and whatever is read or fails to
be read, the events of a `BITMASK` or `RANGE` row alternate, starting with a trigger; a pass
emits one exactly when its read succeeds and the condition is not what it was at the last
successful read; and the row is active exactly while the condition holds of the value read
last. -/
theorem sticky_events (table : List AlarmEntry) {i : ℕ} {entry : AlarmEntry}
    (he : table[i]? = some entry) (hc : entry.Sticky) (passes : List AlarmReads) :
    let ctx := alarmMachine.state (.start table) passes
    let events := rowEvents i (alarmMachine.trace (.start table) passes)
    let reads := passes.map fun read => read i entry.deviceAddress
    events.map Prod.snd = alternating events.length ∧
      (∀ read : AlarmReads, rowEvents i (alarmEngineRun ctx read).2 =
        match read i entry.deviceAddress with
        | none => []
        | some v => if entry.holds v = entry.lastHolds reads then []
          else [(v, if entry.holds v then .trigger else .clear)]) ∧
      ctx.states[i]?.map AlarmState.isActive = some (entry.lastHolds reads) := by
  obtain ⟨-, hstate, hevents⟩ := alarmEngineRun_row table he passes
  refine ⟨?_, fun read => ?_, ?_⟩
  · simp only [hevents]
    exact (trace_rowMachine_sticky hc _).1
  · rw [rowEvents_alarmEngineRun table he passes read, state_rowMachine_sticky hc]
    exact (evalRow_sticky hc _ 0 _).2
  · rw [hstate, state_rowMachine_sticky hc]
    rfl

/-- A `BITMASK` row that triggers, survives a failed read, and clears. -/
theorem sticky_events_bitmask :
    let row : AlarmEntry := ⟨0, .bitmask, 0, 0x0100, 1, "warning reg1 bit 0x0100"⟩
    let passes : List AlarmReads := [fun _ _ => some 0x0101, fun _ _ => none, fun _ _ => some 1]
    (rowEvents 0 (alarmMachine.trace (.start [row]) passes)).map Prod.snd =
        alternating (rowEvents 0 (alarmMachine.trace (.start [row]) passes)).length ∧
      rowEvents 0 (alarmMachine.trace (.start [row]) passes) =
        [(0x0101, .trigger), (1, .clear)] :=
  ⟨(sticky_events [⟨0, .bitmask, 0, 0x0100, 1, "warning reg1 bit 0x0100"⟩] rfl (Or.inl rfl)
    [fun _ _ => some 0x0101, fun _ _ => none, fun _ _ => some 1]).1, by decide⟩

/-! ### Change rows -/

/-- The value a `CHANGE` row compares with: the last one read, and `0` before the first. -/
def lastValue (reads : List (Option UInt16)) : UInt16 := (lastRead reads).getD 0

/-- The events that the header documents for a `CHANGE` row in a pass: a trigger when the value
is not zero and not the previous one, and never a clear. -/
def documentedChange (prev : UInt16) (read : Option UInt16) : List (UInt16 × AlarmEvent) :=
  match read with
  | none => []
  | some v => if v ≠ 0 ∧ v ≠ prev then [(v, .trigger)] else []

/-- The loop body of a `CHANGE` row. -/
theorem evalRow_change {entry : AlarmEntry} (hc : entry.condition = .change) (b : Bool)
    (prev : UInt16) (read : Option UInt16) :
    (evalRow entry ⟨b, prev⟩ read).1 = ⟨b, read.getD prev⟩ ∧
      (evalRow entry ⟨b, prev⟩ read).2 =
        match read with
        | none => []
        | some v => if v ≠ prev then [(v, .trigger)] else [] := by
  cases read with
  | none => exact ⟨rfl, rfl⟩
  | some v =>
    simp only [evalRow, evalEntry, hc, evalChange, Option.getD_some, true_and]
    by_cases h : v = prev <;> simp [h]

theorem state_rowMachine_change {entry : AlarmEntry} (hc : entry.condition = .change)
    (reads : List (Option UInt16)) :
    (rowMachine entry).state {} reads = ⟨false, lastValue reads⟩ := by
  induction reads using List.reverseRecOn with
  | nil => rfl
  | append_singleton reads read ih =>
    simp only [Lib.Machine.state_append, Lib.Machine.state_cons, Lib.Machine.state_nil, ih]
    refine (evalRow_change hc _ _ read).1.trans ?_
    cases read <;> simp [lastValue]

/-- The events of the row `i` are the documented ones in every pass of a run. -/
def ChangeAsDocumented (table : List AlarmEntry) (i : ℕ) (entry : AlarmEntry)
    (passes : List AlarmReads) : Prop :=
  ∀ before read after, passes = before ++ read :: after →
    rowEvents i (alarmEngineRun (alarmMachine.state (.start table) before) read).2 =
      documentedChange (lastValue (before.map fun read => read i entry.deviceAddress))
        (read i entry.deviceAddress)

/-- No pass of a run reads `0` from the register after a non-zero value. -/
def NoReturnToZero (i : ℕ) (entry : AlarmEntry) (passes : List AlarmReads) : Prop :=
  ∀ before read after, passes = before ++ read :: after → read i entry.deviceAddress = some 0 →
    lastValue (before.map fun read => read i entry.deviceAddress) = 0

/-- **Change rows.** The events of a `CHANGE` row are the documented ones exactly in the runs in
which the register never returns to zero: the evaluator does not test the value for zero. -/
theorem change_events_iff (table : List AlarmEntry) {i : ℕ} {entry : AlarmEntry}
    (he : table[i]? = some entry) (hc : entry.condition = .change) (passes : List AlarmReads) :
    ChangeAsDocumented table i entry passes ↔ NoReturnToZero i entry passes := by
  refine forall_congr' fun before => forall_congr' fun read => forall_congr' fun after =>
    imp_congr_right fun _ => ?_
  rw [rowEvents_alarmEngineRun table he before read, state_rowMachine_change hc,
    (evalRow_change hc _ _ _).2]
  cases read i entry.deviceAddress with
  | none => simp [documentedChange]
  | some v =>
    simp only [documentedChange, Option.some.injEq]
    by_cases hv : v = 0
    · subst hv
      simp [eq_comm]
    · simp [hv]

/-- A `CHANGE` row whose register goes from one non-zero value to another. -/
theorem change_events_iff_seven_nine :
    let row : AlarmEntry := ⟨5, .change, 0, 0, 0x30, "fault register changed"⟩
    ChangeAsDocumented [row] 0 row [fun _ _ => some 7, fun _ _ => some 9] ↔
      NoReturnToZero 0 row [fun _ _ => some 7, fun _ _ => some 9] :=
  change_events_iff [⟨5, .change, 0, 0, 0x30, "fault register changed"⟩] rfl rfl _

/-- A register that returns to zero raises a second, undocumented trigger. -/
theorem not_changeAsDocumented_return_to_zero :
    let row : AlarmEntry := ⟨5, .change, 0, 0, 0x30, "fault register changed"⟩
    ¬ ChangeAsDocumented [row] 0 row [fun _ _ => some 7, fun _ _ => some 0] := by
  intro row h
  exact absurd (h [fun _ _ => some 7] (fun _ _ => some 0) [] rfl) (by decide)

end LoopCharger.Alarm

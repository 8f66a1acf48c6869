import LoopCharger.Alarm.Log

/-!
# The alarm log when the database fails

`write_log` of `src/ups_alarm_manager.c` over a database in which any statement may fail: the query
for the number of rows, and the `INSERT` or `UPDATE` that is chosen by it. A statement that fails
changes nothing. When the query fails, the number is taken to be zero.

## Main definitions

* `SqlOutcome`, `writeLogWith`: one call, with what the database does in it.
* `CountKnown`: the condition on a call.
* `faultMachine`: the runs.

## Main results

* `writeLogWith_of_ok`: without a failure it is `writeLog`.
* `logs_capped_iff`: the runs in which the table keeps its limit.
-/

namespace LoopCharger.Alarm

open Lib

/-! ### A call -/

/-- Which of the statements of a call are prepared, and carried out. -/
structure SqlOutcome where
  countPrepared : Bool
  countStepped : Bool
  writePrepared : Bool
  writeStepped : Bool
  deriving DecidableEq

/-- What `sqlite3_column_int` gives of the number of rows. -/
def columnInt (rows : ℕ) : ℤ := (rows : ℤ).bmod 0x100000000

/-- The variable `count`. -/
def SqlOutcome.count (o : SqlOutcome) (logs : List LogRow) : ℤ :=
  if o.countPrepared then if o.countStepped then columnInt logs.length else 0 else 0

/-- The `INSERT`. -/
def insertLog (logs : List LogRow) (e : String × LogText) : List LogRow × List LogRow :=
  let row := ⟨nextId logs, e.1, e.2⟩
  (logs ++ [row], [row])

/-- The `UPDATE` of the first row in the order of the timestamps and the ids. -/
def updateLog (logs : List LogRow) (e : String × LogText) : List LogRow × List LogRow :=
  match oldest logs with
  | none => (logs, [])
  | some old =>
    let row := ⟨old.id, e.1, e.2⟩
    (updateRow logs row, [row])

/-- Write an event to the table: also the row that is written. -/
def writeLogWith (o : SqlOutcome) (m : AlarmManager) (ts event detail : String) :
    AlarmManager × List LogRow :=
  if !m.dbOpen then (m, [])
  else
    let e := (ts, ⟨LOG_NODE, event, detail⟩)
    let r := if o.count m.logs < LOG_MAX_ROWS then insertLog m.logs e else updateLog m.logs e
    if !o.writePrepared then (m, [])
    else if !o.writeStepped then (m, [])
    else ({ m with logs := r.1 }, r.2)

/-! ### The number of rows -/

/-- The query for the number of rows gives it. -/
def SqlOutcome.Counts (o : SqlOutcome) : Prop := o.countPrepared = true ∧ o.countStepped = true

/-- The `INSERT` or `UPDATE` is carried out. -/
def SqlOutcome.Writes (o : SqlOutcome) : Prop := o.writePrepared = true ∧ o.writeStepped = true

instance (o : SqlOutcome) : Decidable o.Counts := inferInstanceAs (Decidable (_ ∧ _))

instance (o : SqlOutcome) : Decidable o.Writes := inferInstanceAs (Decidable (_ ∧ _))

/-- The table has room, or the full table is known to be full, or nothing is written. -/
def CountKnown (o : SqlOutcome) (logs : List LogRow) : Prop :=
  logs.length < LOG_MAX_ROWS ∨ o.Counts ∨ ¬o.Writes

theorem SqlOutcome.count_of_counts {o : SqlOutcome} (h : o.Counts) {logs : List LogRow}
    (hlogs : logs.length ≤ LOG_MAX_ROWS) : o.count logs = logs.length := by
  rw [LOG_MAX_ROWS] at hlogs
  rw [count, if_pos h.1, if_pos h.2]
  exact Int.bmod_eq_of_le (by omega) (by omega)

theorem SqlOutcome.count_of_not_counts {o : SqlOutcome} (h : ¬o.Counts) (logs : List LogRow) :
    o.count logs = 0 := by
  rw [count]
  by_cases hprepared : o.countPrepared = true
  · rw [if_pos hprepared, if_neg fun hstepped => h ⟨hprepared, hstepped⟩]
  · rw [if_neg hprepared]

/-- Without a failure it is `writeLog`. -/
theorem writeLogWith_of_ok {m : AlarmManager} (h : m.logs.length ≤ LOG_MAX_ROWS)
    (ts event detail : String) :
    writeLogWith ⟨true, true, true, true⟩ m ts event detail = writeLog m ts event detail := by
  have hcount := SqlOutcome.count_of_counts (o := ⟨true, true, true, true⟩) ⟨rfl, rfl⟩ h
  simp only [writeLogWith, writeLog, hcount, storeRow, insertLog, updateLog, Int.ofNat_lt]
  cases m.dbOpen with
  | false => rfl
  | true =>
    by_cases hlt : m.logs.length < LOG_MAX_ROWS
    · simp [hlt]
    · cases hold : oldest m.logs <;> simp [hlt]

theorem length_updateLog (logs : List LogRow) (e : String × LogText) :
    (updateLog logs e).1.length = logs.length := by
  rw [updateLog]
  cases oldest logs with
  | none => rfl
  | some old => exact List.length_map _

/-- A call adds a row where its `INSERT` is carried out. -/
theorem length_writeLogWith {o : SqlOutcome} {m : AlarmManager} (hm : m.dbOpen = true)
    (ts event detail : String) :
    (writeLogWith o m ts event detail).1.logs.length =
      if o.Writes ∧ o.count m.logs < LOG_MAX_ROWS then m.logs.length + 1 else m.logs.length := by
  rw [writeLogWith, hm]
  by_cases hprepared : o.writePrepared = true
  · by_cases hstepped : o.writeStepped = true
    · by_cases hcount : o.count m.logs < LOG_MAX_ROWS
      · simp [hprepared, hstepped, hcount, SqlOutcome.Writes, insertLog]
      · simp [hprepared, hstepped, hcount, SqlOutcome.Writes, length_updateLog]
    · simp [hprepared, hstepped, SqlOutcome.Writes]
  · simp [hprepared, SqlOutcome.Writes]

/-- What one call does to the limit. -/
theorem length_writeLogWith_le_iff {o : SqlOutcome} {m : AlarmManager} (hm : m.dbOpen = true)
    (hlogs : m.logs.length ≤ LOG_MAX_ROWS) (ts event detail : String) :
    (writeLogWith o m ts event detail).1.logs.length ≤ LOG_MAX_ROWS ↔ CountKnown o m.logs := by
  rw [length_writeLogWith hm, CountKnown]
  by_cases hwrites : o.Writes
  · by_cases hcounts : o.Counts
    · simp only [SqlOutcome.count_of_counts hcounts hlogs, Int.ofNat_lt, hwrites, hcounts,
        true_and, true_or, or_true, iff_true]
      split_ifs <;> omega
    · have hzero : (0 : ℤ) < LOG_MAX_ROWS := by decide
      simp only [SqlOutcome.count_of_not_counts hcounts, hwrites, hcounts, hzero, and_self,
        if_true, not_true, or_false]
      omega
  · simp only [hwrites, false_and, if_false, not_false_iff, or_true, iff_true]
    exact hlogs

/-! ### Runs -/

/-- A call of `write_log`. -/
structure LogCall where
  ts : String
  event : String
  detail : String
  outcome : SqlOutcome

/-- The runs of `write_log` on the open database. -/
def faultMachine : Machine AlarmManager LogCall LogRow where
  step m c := writeLogWith c.outcome m c.ts c.event c.detail

/-- The manager with an open database and an empty table. -/
def AlarmManager.opened : AlarmManager := ⟨true, false, []⟩

theorem dbOpen_faultMachine (calls : List LogCall) :
    (faultMachine.state .opened calls).dbOpen = true := by
  refine faultMachine.invariant (fun m => m.dbOpen = true) rfl (fun m c hm => ?_) calls
  change (writeLogWith c.outcome m c.ts c.event c.detail).1.dbOpen = true
  rw [writeLogWith]
  split_ifs <;> exact hm

/-- The table keeps its limit in the runs in which every call that writes to a full table knows that
it is full. -/
theorem logs_capped_iff (calls : List LogCall) :
    (∀ run, run <+: calls → (faultMachine.state .opened run).logs.length ≤ LOG_MAX_ROWS) ↔
      ∀ before c after, calls = before ++ c :: after →
        CountKnown c.outcome (faultMachine.state .opened before).logs := by
  have hstep : ∀ before c, (faultMachine.state .opened before).logs.length ≤ LOG_MAX_ROWS →
      ((faultMachine.state .opened (before ++ [c])).logs.length ≤ LOG_MAX_ROWS ↔
        CountKnown c.outcome (faultMachine.state .opened before).logs) := by
    intro before c hlogs
    rw [Machine.state_append]
    exact length_writeLogWith_le_iff (dbOpen_faultMachine before) hlogs _ _ _
  constructor
  · intro h before c after hcalls
    have hbefore : before <+: calls := ⟨c :: after, hcalls.symm⟩
    have hlast : before ++ [c] <+: calls := ⟨after, by rw [hcalls, List.append_assoc]; rfl⟩
    exact (hstep before c (h before hbefore)).mp (h _ hlast)
  · intro h run hrun
    induction run using List.reverseRecOn with
    | nil => exact Nat.zero_le _
    | append_singleton before c ih =>
      obtain ⟨after, hafter⟩ := hrun
      have hcalls : calls = before ++ c :: after := by rw [← hafter, List.append_assoc]; rfl
      exact (hstep before c (ih ⟨c :: after, hcalls.symm⟩)).mpr (h before c after hcalls)

/-- A table that is being filled has one row for each call. -/
theorem length_logs_replicate (ts event detail : String) :
    ∀ n ≤ LOG_MAX_ROWS, (faultMachine.state .opened
      (List.replicate n ⟨ts, event, detail, ⟨true, true, true, true⟩⟩)).logs.length = n
  | 0, _ => rfl
  | n + 1, hn => by
    have ih := length_logs_replicate ts event detail n (Nat.le_of_succ_le hn)
    rw [List.replicate_succ', Machine.state_append]
    refine (length_writeLogWith (dbOpen_faultMachine _) ts event detail).trans ?_
    have hcount := SqlOutcome.count_of_counts (o := ⟨true, true, true, true⟩) ⟨rfl, rfl⟩
      (ih.le.trans (Nat.le_of_succ_le hn))
    rw [hcount, ih, if_pos ⟨⟨rfl, rfl⟩, Int.ofNat_lt.mpr hn⟩]

/-- With the table full, an event whose query fails is inserted. -/
theorem logs_capped_counterexample :
    ¬ ∀ calls : List LogCall,
      (faultMachine.state .opened calls).logs.length ≤ LOG_MAX_ROWS := by
  intro h
  let last : LogCall := ⟨"2024-05-01 12:00:01", "ALARM_CLEAR", "", ⟨false, false, true, true⟩⟩
  obtain ⟨full, hfull⟩ : ∃ full : List LogCall,
      (faultMachine.state .opened full).logs.length = LOG_MAX_ROWS :=
    ⟨_, length_logs_replicate "2024-05-01 12:00:00" "ALARM_TRIGGER" "" _ le_rfl⟩
  have hlast := h (full ++ [last])
  rw [Machine.state_append] at hlast
  have hknown := (length_writeLogWith_le_iff (o := last.outcome) (dbOpen_faultMachine full)
    hfull.le last.ts last.event last.detail).mp hlast
  rw [CountKnown, hfull] at hknown
  rcases hknown with hlt | hcounts | hwrites
  · exact Nat.lt_irrefl _ hlt
  · exact Bool.false_ne_true hcounts.1
  · exact hwrites ⟨rfl, rfl⟩

end LoopCharger.Alarm

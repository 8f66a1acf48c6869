import Mathlib.Data.String.Basic
import LoopCharger.Alarm.Engine
import LoopCharger.Lib.Overwrite

/-!
# The alarm log

`src/ups_alarm_manager.c`, the callback of the alarm engine: it writes each event to the table
`logs` of a database, with the local time to the second. The table has at most `LOG_MAX_ROWS` rows.
Above that, an event is written over the row that is the first in the order of the timestamps and
the ids.

Timestamps are compared as text, which for `%Y-%m-%d %H:%M:%S` is their order. What is printed to
the console is left out.

## Main definitions

* `AlarmManager`, `writeLog`, `upsAlarmManagerHandleEvent`: the manager.
* `LogKeepsRecent`: at any time the table has the last `LOG_MAX_ROWS` events.

## Main results

* `logKeepsRecent_iff`: when this is so.
-/

namespace LoopCharger.Alarm

open Lib

/-! ### The manager -/

def LOG_NODE : String := "ups_alarm_node"

def LOG_MAX_ROWS : ℕ := 10000

/-- The texts of a row. -/
structure LogText where
  node : String
  event : String
  detail : String
  deriving DecidableEq

abbrev LogRow := Row String LogText

/-- The static data of the manager, with the table of the file. -/
structure AlarmManager where
  dbOpen : Bool
  dbOpenFailed : Bool
  logs : List LogRow

/-- Before the first event, with an empty table. -/
def AlarmManager.start : AlarmManager := ⟨false, false, []⟩

/-- Open the database once: `opens` is the outcome. -/
def logInit (opens : Bool) (m : AlarmManager) : AlarmManager :=
  if m.dbOpen then m
  else if m.dbOpenFailed then m
  else if opens then { m with dbOpen := true }
  else { m with dbOpenFailed := true }

/-- Write an event to the table: also the row that is written. -/
def writeLog (m : AlarmManager) (ts event detail : String) : AlarmManager × List LogRow :=
  if !m.dbOpen then (m, [])
  else
    let r := storeRow LOG_MAX_ROWS m.logs (ts, ⟨LOG_NODE, event, detail⟩)
    ({ m with logs := r.1 }, r.2)

def hexDigit (n : ℕ) : Char := "0123456789ABCDEF".toList.getD n '0'

/-- The format `%04X`. -/
def hex4 (w : UInt16) : String :=
  String.ofList [hexDigit (w.toNat / 4096), hexDigit (w.toNat / 256 % 16),
    hexDigit (w.toNat / 16 % 16), hexDigit (w.toNat % 16)]

/-- The text that `snprintf` leaves in a buffer of 128 bytes. -/
def detailText (start : String) (entry : AlarmEntry) (value : UInt16) : String :=
  let text := start ++ "err=0x" ++ hex4 entry.errorCode ++ " | value=0x" ++ hex4 value ++ " | " ++
    entry.description
  String.ofList (text.toList.take 127)

/-- Handle an event, at a local time. -/
def upsAlarmManagerHandleEvent (opens : Bool) (m : AlarmManager) (call : String × AlarmEmission) :
    AlarmManager × List LogRow :=
  let m := logInit opens m
  match call.2.event with
  | .trigger => writeLog m call.1 "ALARM_TRIGGER" (detailText "" call.2.entry call.2.value)
  | .clear => writeLog m call.1 "ALARM_CLEAR" (detailText "CLEARED " call.2.entry call.2.value)

/-- The runs of the manager, over a database that can be opened. -/
def managerMachine : Machine AlarmManager (String × AlarmEmission) LogRow where
  step := upsAlarmManagerHandleEvent true

/-! ### What is logged -/

/-- The texts of an event. -/
def logText (e : AlarmEmission) : LogText where
  node := LOG_NODE
  event := match e.event with
    | .trigger => "ALARM_TRIGGER"
    | .clear => "ALARM_CLEAR"
  detail := match e.event with
    | .trigger => detailText "" e.entry e.value
    | .clear => detailText "CLEARED " e.entry e.value

/-- What a row says of an event. -/
def logRecord (call : String × AlarmEmission) : String × LogText := (call.1, logText call.2)

/-- At any time every event has been written, each with its time and its texts, and the table has
the rows of the last `LOG_MAX_ROWS` events. -/
def LogKeepsRecent (calls : List (String × AlarmEmission)) : Prop :=
  ∀ run, run <+: calls →
    (managerMachine.trace .start run).map (fun r => (r.time, r.content)) = run.map logRecord ∧
      (managerMachine.state .start run).logs.Perm
        ((managerMachine.trace .start run).drop (run.length - LOG_MAX_ROWS))

/-- One event is one write. -/
theorem upsAlarmManagerHandleEvent_eq {m : AlarmManager} (hm : m.dbOpenFailed = false)
    (call : String × AlarmEmission) :
    upsAlarmManagerHandleEvent true m call =
      (⟨true, false, (storeRow LOG_MAX_ROWS m.logs (logRecord call)).1⟩,
        (storeRow LOG_MAX_ROWS m.logs (logRecord call)).2) := by
  obtain ⟨dbOpen, dbOpenFailed, logs⟩ := m
  obtain rfl : dbOpenFailed = false := hm
  have hinit : logInit true ⟨dbOpen, false, logs⟩ = ⟨true, false, logs⟩ := by cases dbOpen <;> rfl
  obtain ⟨ts, index, entry, value, event⟩ := call
  cases event <;> simp only [upsAlarmManagerHandleEvent, hinit] <;> rfl

/-- The manager runs as its table does. -/
theorem managerMachine_eq {m : AlarmManager} (hm : m.dbOpenFailed = false)
    (calls : List (String × AlarmEmission)) :
    (managerMachine.state m calls).logs =
        (storeMachine LOG_MAX_ROWS).state m.logs (calls.map logRecord) ∧
      managerMachine.trace m calls =
        (storeMachine LOG_MAX_ROWS).trace m.logs (calls.map logRecord) := by
  induction calls generalizing m with
  | nil => exact ⟨rfl, rfl⟩
  | cons call calls ih =>
    have hstep : managerMachine.step m call = _ := upsAlarmManagerHandleEvent_eq hm call
    obtain ⟨hstate, htrace⟩ :=
      @ih ⟨true, false, (storeRow LOG_MAX_ROWS m.logs (logRecord call)).1⟩ rfl
    rw [Machine.state_cons, Machine.trace_cons, hstep, hstate, htrace]
    exact ⟨rfl, rfl⟩

theorem logKeepsRecent_iff_keepsRecent (calls : List (String × AlarmEmission)) :
    LogKeepsRecent calls ↔ KeepsRecent LOG_MAX_ROWS (calls.map logRecord) := by
  have hrecords := fun run => map_trace_storeMachine (by decide : 0 < LOG_MAX_ROWS)
    (List.map logRecord run) []
  have hrun := fun run => managerMachine_eq (m := .start) rfl run
  constructor
  · intro h run hpart
    obtain ⟨events, hevents, rfl⟩ : ∃ events, events <+: calls ∧ events.map logRecord = run :=
      ⟨calls.take run.length, List.take_prefix _ _, by
        rw [List.map_take]
        exact (List.prefix_iff_eq_take.mp hpart).symm⟩
    have hperm := (h events hevents).2
    rw [(hrun events).1, (hrun events).2] at hperm
    rwa [List.length_map]
  · intro h run hpart
    have hperm := h _ (hpart.map logRecord)
    rw [List.length_map] at hperm
    rw [(hrun run).1, (hrun run).2]
    exact ⟨hrecords run, hperm⟩

theorem logKeepsRecent_iff_roundsApart {calls : List (String × AlarmEmission)}
    (hsorted : (calls.map Prod.fst).Pairwise (· ≤ ·)) :
    LogKeepsRecent calls ↔ RoundsApart LOG_MAX_ROWS (calls.map logRecord) := by
  have hsortedRows : ((calls.map logRecord).map Prod.fst).Pairwise (· ≤ ·) := by
    rwa [List.map_map]
  rw [logKeepsRecent_iff_keepsRecent, keepsRecent_iff (by decide) hsortedRows]

/-- The condition on the timestamps of the rows is the one on those of the events. -/
theorem roundsApart_map_logRecord (calls : List (String × AlarmEmission)) :
    RoundsApart LOG_MAX_ROWS (calls.map logRecord) ↔
      ∀ k < calls.length, LOG_MAX_ROWS ≤ k → k % LOG_MAX_ROWS ≠ 0 →
        ∀ a ∈ calls[k - LOG_MAX_ROWS]?, ∀ b ∈ calls[LOG_MAX_ROWS * (k / LOG_MAX_ROWS)]?,
          a.1 < b.1 := by
  simp only [RoundsApart, List.length_map, List.getElem?_map, Option.mem_def,
    Option.map_eq_some_iff, forall_exists_index, and_imp, forall_apply_eq_imp_iff₂, logRecord]

/-! ### The last events -/

/-- **The table has the last events** at any time, if and only if each event that a write must
replace has an earlier timestamp than the event with which the ids began anew before the write. -/
theorem logKeepsRecent_iff (calls : List (String × AlarmEmission))
    (hsorted : (calls.map Prod.fst).Pairwise (· ≤ ·)) :
    LogKeepsRecent calls ↔ ∀ k < calls.length, LOG_MAX_ROWS ≤ k → k % LOG_MAX_ROWS ≠ 0 →
      ∀ a ∈ calls[k - LOG_MAX_ROWS]?, ∀ b ∈ calls[LOG_MAX_ROWS * (k / LOG_MAX_ROWS)]?,
        a.1 < b.1 := by
  rw [logKeepsRecent_iff_roundsApart hsorted, roundsApart_map_logRecord]

/-- A change of the fault register at a time of day. -/
def faultChange (ts : String) : String × AlarmEmission :=
  (ts, ⟨5, ⟨0x0005, .change, 0, 0, 0x0030, "fault register changed"⟩, 1, .trigger⟩)

/-- The table is full with events of one second when 5000 more come in a later one. -/
theorem logKeepsRecent_full :
    LogKeepsRecent (List.replicate 10000 (faultChange "2026-07-04 10:00:00") ++
      List.replicate 5000 (faultChange "2026-07-04 10:00:05")) := by
  have hlater : "2026-07-04 10:00:00" < "2026-07-04 10:00:05" := by decide
  refine (logKeepsRecent_iff _ ?_).mpr fun k hk hle _ a ha b hb => ?_
  · simp only [List.map_append, List.map_replicate, List.pairwise_append, List.pairwise_replicate]
    refine ⟨.inr le_rfl, .inr le_rfl, fun x hx y hy => ?_⟩
    rw [List.eq_of_mem_replicate hx, List.eq_of_mem_replicate hy]
    exact hlater.le
  · rw [List.length_append, List.length_replicate, List.length_replicate] at hk
    unfold LOG_MAX_ROWS at hle ha hb
    obtain ⟨hfirst, hround⟩ : k - 10000 < 10000 ∧ 10000 * (k / 10000) = 10000 := by omega
    rw [Option.mem_def, List.getElem?_append_left (by rwa [List.length_replicate]),
      List.getElem?_replicate_of_lt hfirst] at ha
    rw [Option.mem_def, hround, List.getElem?_append_right (by rw [List.length_replicate]),
      List.length_replicate, List.getElem?_replicate_of_lt (by decide)] at hb
    rw [← Option.some.inj ha, ← Option.some.inj hb]
    exact hlater

/-- Of 10002 events in one second, the last one is written over the one before it. -/
theorem not_logKeepsRecent_burst :
    let calls := List.replicate 10002 (faultChange "2026-07-04 10:00:00")
    (calls.map Prod.fst).Pairwise (· ≤ ·) ∧ ¬ LogKeepsRecent calls := by
  intro calls
  have hsorted : (calls.map Prod.fst).Pairwise (· ≤ ·) := by
    rw [List.map_replicate, List.pairwise_replicate]
    exact .inr le_rfl
  refine ⟨hsorted, fun h => ?_⟩
  rw [logKeepsRecent_iff_roundsApart hsorted, roundsApart_map_logRecord] at h
  have hget : ∀ i < 10002, calls[i]? = some (faultChange "2026-07-04 10:00:00") :=
    fun i hi => List.getElem?_replicate_of_lt hi
  exact lt_irrefl _ (h 10001 (by rw [List.length_replicate]; decide) (by decide) (by decide) _
    (hget _ (by decide)) _ (hget _ (by decide)))

end LoopCharger.Alarm

import LoopCharger.Main.Program

/-!
# The records of the alarms

The table that `src/ups_alarm_manager.c` fills, beside the threads that store into the pool and the
monitor that reads it. A row of the alarm table is evaluated on what is in the pool, and that is the
value of the last store of its register. The database may fail to open, and its statements may fail.

## Main definitions

* `Samples`: the values that a row was evaluated on.
* `Sampled`, `Recorded`: the contexts and the table against the events of a run.

## Main results

* `alarms_from_device`: what the manager is called for.
* `records_of_alarms`: what the table says of it.
-/

namespace LoopCharger.Main

open Lib Cmos Modbus DeviceMap Ups Alarm

variable {γ : Type*} (api : UnitApi γ) (owners : List ℕ) (upsCount : ℕ)

/-! ### What is seen of the alarms -/

def ProgramEvent.call? : ProgramEvent → Option (ℕ × String × AlarmEmission)
  | .alarm c call => some (c, call)
  | _ => none

def ProgramEvent.row? : ProgramEvent → Option LogRow
  | .written row => some row
  | _ => none

/-- The calls of the manager, each with its context and its time. -/
def callsOf (events : List ProgramEvent) : List (ℕ × String × AlarmEmission) :=
  events.filterMap ProgramEvent.call?

/-- The alarms of the row `i` of a context, as values and kinds. -/
def alarmsOf (c i : ℕ) (events : List ProgramEvent) : List (UInt16 × AlarmEvent) :=
  rowEvents i (((callsOf events).filter fun x => x.1 = c).map fun x => x.2.2)

/-- The rows that the manager has written. -/
def rowsOf (events : List ProgramEvent) : List LogRow := events.filterMap ProgramEvent.row?

/-- The values that a row of the context `c` was evaluated on: each is that of the last store of its
register. -/
inductive Samples (c : ℕ) (entry : AlarmEntry) : List ProgramEvent → List UInt16 → Prop
  | nil : Samples c entry [] []
  | evaluated {events values v} (h : Samples c entry events values)
      (hv : CurrentValue entry.deviceAddress v (unitEvents (telemetryEvents events))) :
      Samples c entry (events ++ [.evaluated c entry]) (values ++ [v])
  | other {events values e} (h : Samples c entry events values) (he : e ≠ .evaluated c entry) :
      Samples c entry (events ++ [e]) values

theorem callsOf_append (es fs : List ProgramEvent) :
    callsOf (es ++ fs) = callsOf es ++ callsOf fs := List.filterMap_append

theorem rowsOf_append (es fs : List ProgramEvent) :
    rowsOf (es ++ fs) = rowsOf es ++ rowsOf fs := List.filterMap_append

theorem alarmsOf_append (c i : ℕ) (es fs : List ProgramEvent) :
    alarmsOf c i (es ++ fs) = alarmsOf c i es ++ alarmsOf c i fs := by
  simp only [alarmsOf, callsOf_append, List.filter_append, List.map_append, rowEvents_append]

theorem Samples.append {c : ℕ} {entry : AlarmEntry} {events new : List ProgramEvent}
    {values : List UInt16} (h : Samples c entry events values)
    (hnew : ∀ e ∈ new, e ≠ .evaluated c entry) : Samples c entry (events ++ new) values := by
  induction new generalizing events with
  | nil => rwa [List.append_nil]
  | cons e new ih =>
    rw [← List.singleton_append, ← List.append_assoc]
    exact ih (h.other (hnew e List.mem_cons_self)) fun e' he' =>
      hnew e' (List.mem_cons_of_mem e he')

/-! ### One step -/

/-- What a step that is not one of the monitor leaves: the contexts and the table. -/
theorem programStep_other (p : Program γ) {a : ProgramAction}
    (ha : ∀ nowMs env, a ≠ .monitor nowMs env) :
    (programStep api owners upsCount p a).1.monitor.ctxs = p.monitor.ctxs ∧
      (programStep api owners upsCount p a).1.manager.logs = p.manager.logs ∧
      (programStep api owners upsCount p a).1.manager.dbOpenFailed = p.manager.dbOpenFailed ∧
      ∃ es : List TelemetryEvent, (programStep api owners upsCount p a).2 = es.map .units := by
  cases a with
  | monitor nowMs env => exact absurd rfl (ha nowMs env)
  | unit k | poll arrived result => exact ⟨rfl, rfl, rfl, _, rfl⟩
  | signal => exact ⟨rfl, rfl, rfl, [], rfl⟩
  | onWrite uid addr val =>
    simp only [programStep]
    split_ifs
    · exact ⟨rfl, rfl, rfl, [], rfl⟩
    · exact ⟨rfl, rfl, rfl, _, rfl⟩
  | subscriber =>
    simp only [programStep]
    split_ifs <;> exact ⟨rfl, rfl, rfl, [], rfl⟩
  | main =>
    have hkeep : (mainStep api owners upsCount p).monitor.ctxs = p.monitor.ctxs ∧
        (mainStep api owners upsCount p).manager.logs = p.manager.logs ∧
        (mainStep api owners upsCount p).manager.dbOpenFailed = p.manager.dbOpenFailed := by
      have hstep := mainStep_cases api owners upsCount p
      generalize mainStep api owners upsCount p = q at hstep ⊢
      cases hstep <;> exact ⟨rfl, rfl, rfl⟩
    exact ⟨hkeep.1, hkeep.2.1, hkeep.2.2, [], rfl⟩

/-- A write leaves the table as it is, or it writes one row. -/
theorem writeLogWith_cases (o : SqlOutcome) (m : AlarmManager) (ts event detail : String) :
    let r := writeLogWith o m ts event detail
    (r.1.logs = m.logs ∧ r.2 = []) ∨
      ∃ row : LogRow, (row.time, row.content) = (ts, ⟨LOG_NODE, event, detail⟩) ∧ r.2 = [row] ∧
        ∀ x ∈ r.1.logs, x ∈ m.logs ∨ x = row := by
  intro r
  have hinsert : ∀ row : LogRow, ∀ x ∈ m.logs ++ [row], x ∈ m.logs ∨ x = row := fun row x hx =>
    (List.mem_append.mp hx).imp_right List.mem_singleton.mp
  have hupdate : ∀ row : LogRow, ∀ x ∈ updateRow m.logs row, x ∈ m.logs ∨ x = row := by
    intro row x hx
    obtain ⟨y, hy, rfl⟩ := List.mem_map.mp hx
    split_ifs
    · exact .inr rfl
    · exact .inl hy
  simp only [r, writeLogWith]
  split_ifs
  · exact .inl ⟨rfl, rfl⟩
  · exact .inl ⟨rfl, rfl⟩
  · exact .inl ⟨rfl, rfl⟩
  · exact .inr ⟨_, rfl, rfl, hinsert _⟩
  · simp only [updateLog]
    cases oldest m.logs with
    | none => exact .inl ⟨rfl, rfl⟩
    | some old => exact .inr ⟨_, rfl, rfl, hupdate _⟩

/-- **A call of the manager.** It writes one row at most, which says what the call was for, and the
table has this row and what was in it. -/
theorem upsAlarmManagerHandleEventWith_cases (env : LogEnv) (m : AlarmManager) (e : AlarmEmission) :
    let r := upsAlarmManagerHandleEventWith env m e
    (r.1.logs = m.logs ∧ r.2 = []) ∨
      ∃ row : LogRow, (row.time, row.content) = logRecord (env.ts, e) ∧ r.2 = [row] ∧
        ∀ x ∈ r.1.logs, x ∈ m.logs ∨ x = row := by
  have hinit : (logInit env.opens m).logs = m.logs := by
    unfold logInit
    split_ifs <;> rfl
  rw [← hinit]
  obtain ⟨index, entry, value, event⟩ := e
  cases event <;> exact writeLogWith_cases env.outcome (logInit env.opens m) env.ts _ _

/-- The alarm that a row raises, if it does. -/
def raised (c i : ℕ) (entry : AlarmEntry) (v : UInt16) (event : Option AlarmEvent) :
    List MonitorEvent :=
  event.toList.map fun event => .alarm c ⟨i, entry, v, event⟩

/-- What a step of the monitor does: nothing, or it evaluates a row, and the manager is called with
the alarm that this raises. -/
inductive MonitorStep (p : Program γ) (env : LogEnv) : Program γ → List ProgramEvent → Prop
  | silent (m : Monitor) (hctxs : m.ctxs = p.monitor.ctxs) :
      MonitorStep p env { p with monitor := m } []
  | row (m : Monitor) (c i : ℕ) (b : AlarmBinding) (entry : AlarmEntry) (state : AlarmState)
      (v : UInt16) (hb : p.monitor.ctxs[c]? = some b) (hentry : b.ctx.table[i]? = some entry)
      (hstate : b.ctx.states[i]? = some state)
      (hread : poolReadByDeviceAddr p.units.fleet.pool b.profile entry.deviceAddress = some v)
      (hctxs : m.ctxs = p.monitor.ctxs.set c { b with ctx := (b.ctx.evalRowAt i (some v)).1 }) :
      MonitorStep p env
        { p with
          monitor := m
          manager := (managerOf env).state p.manager
            (raised c i entry v (evalEntry entry state v).2) }
        (.evaluated c entry ::
          (managerOf env).trace p.manager (raised c i entry v (evalEntry entry state v).2))

theorem programStep_monitor (p : Program γ) (nowMs : UInt64) (env : LogEnv) :
    MonitorStep p env (programStep api owners upsCount p (.monitor nowMs env)).1
      (programStep api owners upsCount p (.monitor nowMs env)).2 := by
  simp only [programStep]
  rcases monitorStep_cases p.monitor nowMs p.units.fleet.pool with
    ⟨hnew, hctxs⟩ | ⟨c, b, i, entry, state, v, hb, hentry, hstate, hread, hctxs, hnew⟩
  · rw [hnew]
    exact .silent _ hctxs
  · rw [hnew]
    exact .row _ c i b entry state v hb hentry hstate hread hctxs

/-! ### Alarms -/

/-- The contexts against the events: each row of a context is in the state that the values leave
which it was evaluated on, and it has raised their alarms. -/
structure Sampled (p : Program γ) (events : List ProgramEvent) : Prop where
  bound : ∀ (c : ℕ) b, p.monitor.ctxs[c]? = some b →
    b.profile = ups1Profile ∧ b.ctx.table = upsAlarmTable
  rows : ∀ (c i : ℕ) b entry, p.monitor.ctxs[c]? = some b → upsAlarmTable[i]? = some entry →
    ∃ values, Samples c entry events values ∧
      b.ctx.states[i]? = some ((rowMachine entry).state {} (values.map some)) ∧
      alarmsOf c i events = (rowMachine entry).trace {} (values.map some)
  calls : ∀ x ∈ callsOf events, upsAlarmTable[x.2.2.index]? = some x.2.2.entry

/-- The alarms of a row, as the manager is called for them. -/
theorem callsOf_managerOf (env : LogEnv) (m : AlarmManager) (c i : ℕ) (entry : AlarmEntry)
    (v : UInt16) (event : Option AlarmEvent) :
    callsOf ((managerOf env).trace m (raised c i entry v event)) =
      event.toList.map fun event => (c, env.ts, ⟨i, entry, v, event⟩) := by
  have hrows : ∀ rows : List LogRow, callsOf (rows.map .written) = [] := fun rows => by
    simp [callsOf, List.filterMap_map, Function.comp_def, ProgramEvent.call?]
  cases event with
  | none => rfl
  | some event =>
    simp only [raised, Option.toList_some, List.map_cons, List.map_nil, Machine.trace_cons,
      Machine.trace_nil, List.append_nil]
    exact congrArg (_ :: ·) (hrows _)

/-- No row is evaluated by the manager. -/
theorem ne_evaluated_of_mem_managerOf {env : LogEnv} {m : AlarmManager} {c i : ℕ}
    {entry : AlarmEntry} {v : UInt16} {event : Option AlarmEvent} {e : ProgramEvent}
    (he : e ∈ (managerOf env).trace m (raised c i entry v event)) (c' : ℕ)
    (entry' : AlarmEntry) : e ≠ .evaluated c' entry' := by
  cases event with
  | none => cases he
  | some event =>
    simp only [raised, Option.toList_some, List.map_cons, List.map_nil, Machine.trace_cons,
      Machine.trace_nil, List.append_nil] at he
    rcases List.mem_cons.mp he with rfl | he
    · exact ProgramEvent.noConfusion
    · obtain ⟨row, -, rfl⟩ := List.mem_map.mp he
      exact ProgramEvent.noConfusion

/-- The alarms of each row, when one of them is evaluated. -/
theorem alarmsOf_row (env : LogEnv) (m : AlarmManager) (c i : ℕ) (entry : AlarmEntry) (v : UInt16)
    (event : Option AlarmEvent) (c' i' : ℕ) :
    alarmsOf c' i' (.evaluated c entry ::
        (managerOf env).trace m (raised c i entry v event)) =
      if c = c' ∧ i = i' then event.toList.map fun event => (v, event) else [] := by
  have hcalls : callsOf (.evaluated c entry :: (managerOf env).trace m (raised c i entry v event)) =
      event.toList.map fun event => (c, env.ts, ⟨i, entry, v, event⟩) :=
    callsOf_managerOf env m c i entry v event
  rw [alarmsOf, hcalls]
  cases event with
  | none => simp [rowEvents]
  | some event => by_cases hc : c = c' <;> by_cases hi : i = i' <;> simp [rowEvents, hc, hi]

variable {p : Program γ} {events : List ProgramEvent}

/-- A step without alarms. -/
theorem Sampled.of_eq (h : Sampled p events) {q : Program γ} {new : List ProgramEvent}
    (hctxs : q.monitor.ctxs = p.monitor.ctxs) (hcalls : callsOf new = [])
    (hnew : ∀ e ∈ new, ∀ c entry, e ≠ .evaluated c entry) : Sampled q (events ++ new) := by
  refine ⟨fun c b hb => h.bound c b (hctxs ▸ hb), fun c i b entry hb hentry => ?_, fun x hx => ?_⟩
  · obtain ⟨values, hsamples, hstate, halarms⟩ := h.rows c i b entry (hctxs ▸ hb) hentry
    have hnone : alarmsOf c i new = [] := by simp only [alarmsOf, hcalls]; rfl
    refine ⟨values, hsamples.append fun e he => hnew e he c entry, hstate, ?_⟩
    rw [alarmsOf_append, hnone, List.append_nil, halarms]
  · rw [callsOf_append, hcalls, List.append_nil] at hx
    exact h.calls x hx

theorem nodup_upsAlarmTable : upsAlarmTable.Nodup := by decide

/-- A row that is evaluated on the current value of its register. -/
theorem Sampled.row (h : Sampled p events) {c i : ℕ} {b : AlarmBinding} {entry : AlarmEntry}
    {state : AlarmState} {v : UInt16} (hb : p.monitor.ctxs[c]? = some b)
    (hentry : b.ctx.table[i]? = some entry) (hstate : b.ctx.states[i]? = some state)
    (hcurrent : CurrentValue entry.deviceAddress v (unitEvents (telemetryEvents events)))
    {q : Program γ}
    (hctxs : q.monitor.ctxs = p.monitor.ctxs.set c { b with ctx := (b.ctx.evalRowAt i (some v)).1 })
    (env : LogEnv) (m : AlarmManager) :
    Sampled q (events ++ .evaluated c entry ::
      (managerOf env).trace m (raised c i entry v (evalEntry entry state v).2)) := by
  have hrow : upsAlarmTable[i]? = some entry := (h.bound c b hb).2 ▸ hentry
  have hother : ∀ c' i' entry', upsAlarmTable[i']? = some entry' → ¬(c = c' ∧ i = i') →
      ∀ e ∈ ProgramEvent.evaluated c entry ::
        (managerOf env).trace m (raised c i entry v (evalEntry entry state v).2),
        e ≠ .evaluated c' entry' := by
    intro c' i' entry' hentry' hne e he
    rcases List.mem_cons.mp he with rfl | he
    · rintro ⟨⟩
      refine hne ⟨rfl, ?_⟩
      exact (List.getElem?_inj (List.getElem?_eq_some_iff.mp hrow).1 nodup_upsAlarmTable).mp
        (hrow.trans hentry'.symm)
    · exact ne_evaluated_of_mem_managerOf he c' entry'
  refine ⟨fun c' b' hb' => ?_, fun c' i' b' entry' hb' hentry' => ?_, fun x hx => ?_⟩
  · rw [hctxs] at hb'
    obtain ⟨b₀, hb₀, hprofile', htable', -⟩ := exists_of_evalRowAt hb hentry hstate v hb'
    exact ⟨hprofile'.trans (h.bound c' b₀ hb₀).1, htable'.trans (h.bound c' b₀ hb₀).2⟩
  · rw [hctxs] at hb'
    obtain ⟨b₀, hb₀, -, -, hstates⟩ := exists_of_evalRowAt hb hentry hstate v hb'
    rw [alarmsOf_append, alarmsOf_row, hstates]
    by_cases hsame : c = c' ∧ i = i'
    · obtain ⟨rfl, rfl⟩ := hsame
      obtain rfl : entry = entry' := Option.some.inj (hrow.symm.trans hentry')
      obtain ⟨values, hsamples, hold, halarms⟩ := h.rows c i b entry hb hrow
      obtain rfl : state = (rowMachine entry).state {} (values.map some) :=
        Option.some.inj (hstate.symm.trans hold)
      refine ⟨values ++ [v], ?_, ?_, ?_⟩
      · rw [List.append_cons]
        exact (hsamples.evaluated hcurrent).append fun e he =>
          ne_evaluated_of_mem_managerOf he c entry
      · rw [if_pos ⟨rfl, rfl⟩, List.map_append, Machine.state_append]
        rfl
      · rw [if_pos ⟨rfl, rfl⟩, List.map_append, Machine.trace_append, halarms]
        exact congrArg _ (List.append_nil _).symm
    · obtain ⟨values, hsamples, hold, halarms⟩ := h.rows c' i' b₀ entry' hb₀ hentry'
      rw [if_neg hsame, if_neg hsame, List.append_nil]
      exact ⟨values, hsamples.append (hother c' i' entry' hentry' hsame), hold, halarms⟩
  · rw [callsOf_append, List.mem_append] at hx
    refine hx.elim (h.calls x) fun hx => ?_
    rw [show callsOf (.evaluated c entry :: _) = _ from callsOf_managerOf env m c i entry v _] at hx
    obtain ⟨event, -, rfl⟩ := List.mem_map.mp hx
    exact hrow

/-! ### The table -/

/-- The table against the events: what is written says what the calls were for, in their order, and
what the table has is written or was there before. -/
structure Recorded (stored : List LogRow) (p : Program γ) (events : List ProgramEvent) : Prop where
  written : ((rowsOf events).map fun r => (r.time, r.content)).Sublist
    ((callsOf events).map fun x => logRecord x.2)
  kept : ∀ row ∈ p.manager.logs, row ∈ stored ∨ row ∈ rowsOf events

theorem rowsOf_map_written (rows : List LogRow) : rowsOf (rows.map .written) = rows := by
  simp [rowsOf, List.filterMap_map, Function.comp_def, ProgramEvent.row?]

theorem rowsOf_managerOf (env : LogEnv) (m : AlarmManager) (c i : ℕ) (entry : AlarmEntry)
    (v : UInt16) (event : AlarmEvent) :
    rowsOf ((managerOf env).trace m (raised c i entry v (some event))) =
      (upsAlarmManagerHandleEventWith env m ⟨i, entry, v, event⟩).2 := by
  simp only [raised, Option.toList_some, List.map_cons, List.map_nil, Machine.trace_cons,
    Machine.trace_nil, List.append_nil]
  exact rowsOf_map_written _

/-- The rows that are written for an alarm. -/
theorem managerOf_rows (env : LogEnv) (m : AlarmManager) (c i : ℕ) (entry : AlarmEntry) (v : UInt16)
    (event : Option AlarmEvent) :
    let new := (managerOf env).trace m (raised c i entry v event)
    ((rowsOf new).map fun r => (r.time, r.content)).Sublist
        ((callsOf new).map fun x => logRecord x.2) ∧
      ∀ row ∈ ((managerOf env).state m (raised c i entry v event)).logs,
        row ∈ m.logs ∨ row ∈ rowsOf new := by
  intro new
  have hcalls : callsOf new = _ := callsOf_managerOf env m c i entry v event
  rw [hcalls]
  cases event with
  | none => exact ⟨List.nil_sublist _, fun row hrow => .inl hrow⟩
  | some event =>
    rw [rowsOf_managerOf]
    rcases upsAlarmManagerHandleEventWith_cases env m ⟨i, entry, v, event⟩ with
      ⟨hlogs, hnil⟩ | ⟨row, hrow, hone, hlogs⟩
    · rw [hnil]
      exact ⟨List.nil_sublist _, fun row hrow => .inl (hlogs ▸ hrow)⟩
    · rw [hone]
      refine ⟨?_, fun x hx => (hlogs x hx).imp_right List.mem_singleton.mpr⟩
      rw [List.map_singleton, hrow]
      exact List.Sublist.refl _

/-- A step without alarms. -/
theorem Recorded.of_eq {stored : List LogRow} (h : Recorded stored p events) {q : Program γ}
    {new : List ProgramEvent} (hlogs : q.manager.logs = p.manager.logs) (hcalls : callsOf new = [])
    (hrows : rowsOf new = []) : Recorded stored q (events ++ new) := by
  refine ⟨?_, fun row hrow => ?_⟩
  · rw [rowsOf_append, callsOf_append, hrows, hcalls, List.append_nil, List.append_nil]
    exact h.written
  · rw [rowsOf_append, hrows, List.append_nil]
    exact h.kept row (hlogs ▸ hrow)

/-- A row that is evaluated, and the call for its alarm. -/
theorem Recorded.row {stored : List LogRow} (h : Recorded stored p events) (env : LogEnv)
    (c i : ℕ) (entry : AlarmEntry) (v : UInt16) (event : Option AlarmEvent) {q : Program γ}
    (hmanager : q.manager = (managerOf env).state p.manager (raised c i entry v event)) :
    Recorded stored q (events ++ .evaluated c entry ::
      (managerOf env).trace p.manager (raised c i entry v event)) := by
  obtain ⟨hwritten, hkept⟩ := managerOf_rows env p.manager c i entry v event
  have hrows : ∀ new, rowsOf (.evaluated c entry :: new) = rowsOf new := fun _ => rfl
  have hcalls : ∀ new, callsOf (.evaluated c entry :: new) = callsOf new := fun _ => rfl
  refine ⟨?_, fun row hrow => ?_⟩
  · rw [rowsOf_append, callsOf_append, hrows, hcalls, List.map_append, List.map_append]
    exact h.written.append hwritten
  · rw [rowsOf_append, hrows, List.mem_append]
    rw [hmanager] at hrow
    rcases hkept row hrow with hold | hnew
    · exact (h.kept row hold).imp_right .inl
    · exact .inr (.inr hnew)

/-! ### Runs -/

/-- What a step of the units is for the alarms. -/
theorem alarms_map_units (es : List TelemetryEvent) :
    callsOf (es.map .units) = [] ∧ rowsOf (es.map .units) = [] ∧
      ∀ e ∈ es.map ProgramEvent.units, ∀ c entry, e ≠ .evaluated c entry := by
  refine ⟨?_, ?_, fun e he c entry => ?_⟩
  · simp [callsOf, List.filterMap_map, Function.comp_def, ProgramEvent.call?]
  · simp [rowsOf, List.filterMap_map, Function.comp_def, ProgramEvent.row?]
  · obtain ⟨e, -, rfl⟩ := List.mem_map.mp he
    exact ProgramEvent.noConfusion

/-- What is in the pool is what was stored last, in every run of the program. -/
theorem latest_programStep (h : Latest p.units.fleet (unitEvents (telemetryEvents events)))
    (a : ProgramAction) :
    Latest (programStep api owners upsCount p a).1.units.fleet
      (unitEvents (telemetryEvents (events ++ (programStep api owners upsCount p a).2))) := by
  rw [telemetryEvents_append, unitEvents_append]
  rcases programStep_units api owners upsCount p a with ⟨b, hunits, hnew⟩ | ⟨hunits, hnew⟩
  · obtain ⟨as, hstate, htrace⟩ := telemetryStep_fleet api owners upsCount p.units b
    rw [hunits, hnew, hstate, htrace]
    refine (fleetMachine upsUidProfileMap api).trace_invariant
      (fun f new => Latest f (unitEvents (telemetryEvents events) ++ new))
      (by rwa [List.append_nil]) (fun f new a h => ?_) as
    rw [← List.append_assoc]
    exact h.step a
  · rw [hunits, hnew]
    exact (congrArg (Latest p.units.fleet) (List.append_nil _)).mpr h

/-- What is in the pool, the contexts and the table. -/
structure Tracked (stored : List LogRow) (p : Program γ) (events : List ProgramEvent) : Prop where
  latest : Latest p.units.fleet (unitEvents (telemetryEvents events))
  sampled : Sampled p events
  recorded : Recorded stored p events

/-- A row is evaluated on the current value of its register. -/
theorem Tracked.current {stored : List LogRow} (h : Tracked stored p events) {c : ℕ}
    {b : AlarmBinding} {addr v : UInt16} (hb : p.monitor.ctxs[c]? = some b)
    (hread : poolReadByDeviceAddr p.units.fleet.pool b.profile addr = some v) :
    CurrentValue addr v (unitEvents (telemetryEvents events)) := by
  rw [(h.sampled.bound c b hb).1] at hread
  obtain ⟨m, hfind, hpool⟩ := Option.bind_eq_some_iff.mp hread
  obtain ⟨slot, hslot, rfl⟩ := Option.map_eq_some_iff.mp hpool
  obtain ⟨hm, rfl⟩ := deviceFindSlot_sound hfind
  exact h.latest.pool m hm slot hslot

theorem Tracked.step {stored : List LogRow} (h : Tracked stored p events) (a : ProgramAction) :
    Tracked stored (programStep api owners upsCount p a).1
      (events ++ (programStep api owners upsCount p a).2) := by
  have hlatest := latest_programStep api owners upsCount h.latest a
  by_cases ha : ∀ nowMs env, a ≠ .monitor nowMs env
  · obtain ⟨hctxs, hlogs, -, es, hnew⟩ := programStep_other api owners upsCount p ha
    obtain ⟨hcalls, hrows, hne⟩ := alarms_map_units es
    rw [hnew] at hlatest ⊢
    exact ⟨hlatest, h.sampled.of_eq hctxs hcalls hne, h.recorded.of_eq hlogs hcalls hrows⟩
  · obtain ⟨nowMs, env, rfl⟩ : ∃ nowMs env, a = .monitor nowMs env := by
      simpa only [not_forall, ne_eq, not_not] using ha
    have hstep := programStep_monitor api owners upsCount p nowMs env
    generalize programStep api owners upsCount p (.monitor nowMs env) = r at hstep hlatest ⊢
    obtain ⟨q, new⟩ := r
    cases hstep with
    | silent m hctxs =>
      exact ⟨hlatest, h.sampled.of_eq hctxs rfl fun _ he => absurd he List.not_mem_nil,
        h.recorded.of_eq rfl rfl rfl⟩
    | row m c i b entry state v hb hentry hstate hread hctxs =>
      exact ⟨hlatest, h.sampled.row hb hentry hstate (h.current hb hread) hctxs env p.manager,
        h.recorded.row env c i entry v _ rfl⟩

section Run

variable (created : ℕ → Bool) (monitored : Bool) (conns : ℕ → γ) (ups : List ModuleConfig)
  (stored : List LogRow) (actions : List ProgramAction)

theorem tracked_run :
    Tracked stored (Program.reached api created monitored conns ups stored actions)
      (Program.seen api created monitored conns ups stored actions) := by
  refine (programMachine api _ ups.length).trace_invariant (Tracked stored) ?_
    (fun p events a h => h.step api _ _ a) actions
  have hctx : ∀ (c : ℕ) b, (Program.start created monitored conns ups stored).monitor.ctxs[c]? =
      some b → b.profile = ups1Profile ∧ b.ctx = .start upsAlarmTable := by
    intro c b hb
    have hmem : b ∈ upsAlarmRegisterAll upsUidProfileMap ups := List.mem_of_getElem? hb
    obtain ⟨⟨uid, hprofile⟩, hstart⟩ := mem_upsAlarmRegisterAll hmem
    exact ⟨eq_ups1Profile hprofile, hstart⟩
  refine ⟨.start created conns ups, ⟨fun c b hb => ?_, fun c i b entry hb hentry => ?_,
    fun x hx => absurd hx List.not_mem_nil⟩, List.Sublist.refl _, fun row hrow => .inl hrow⟩
  · obtain ⟨hprofile, hstart⟩ := hctx c b hb
    exact ⟨hprofile, by rw [hstart]; rfl⟩
  · refine ⟨[], .nil, ?_, rfl⟩
    have hi := (List.getElem?_eq_some_iff.mp hentry).1
    rw [(hctx c b hb).2]
    simp [AlarmCtx.start, hi]

/-- The last of the alternating events. -/
theorem getLast?_alternating (n : ℕ) :
    (alternating n).getLast? = some .trigger ↔ n % 2 = 1 := by
  cases n with
  | zero => simp [alternating]
  | succ n =>
    rw [alternating_succ, List.getLast?_concat]
    split_ifs with hn
    · simp only [true_iff]
      omega
    · simp only [Option.some.injEq, reduceCtorEq, false_iff]
      omega

/-- **From the device to the alarms.** In every run of the program, the alarms for which a row of a
context has called the manager are the ones that the row raises on the values that it was evaluated
on, and each of these is the value of the last store of its register, from a request of a unit that
returned `MB_TCP_CLIENT_OK`, or zero before the first. So the last alarm of a sticky row is a
trigger exactly if its condition held of the last of these values. Each call is for a row of the
table. -/
theorem alarms_from_device (actions : List ProgramAction) :
    let p := Program.reached api created monitored conns ups stored actions
    let events := Program.seen api created monitored conns ups stored actions
    (∀ (c i : ℕ) b entry, p.monitor.ctxs[c]? = some b → upsAlarmTable[i]? = some entry →
      ∃ values, Samples c entry events values ∧
        alarmsOf c i events = (rowMachine entry).trace {} (values.map some) ∧
        (entry.Sticky → (((alarmsOf c i events).map Prod.snd).getLast? = some .trigger ↔
          entry.lastHolds (values.map some) = true))) ∧
      ∀ x ∈ callsOf events, upsAlarmTable[x.2.2.index]? = some x.2.2.entry := by
  intro p events
  have h := tracked_run api created monitored conns ups stored actions
  refine ⟨fun c i b entry hb hentry => ?_, h.sampled.calls⟩
  obtain ⟨values, hsamples, -, halarms⟩ := h.sampled.rows c i b entry hb hentry
  refine ⟨values, hsamples, halarms, fun hsticky => ?_⟩
  obtain ⟨halternate, hodd⟩ := trace_rowMachine_sticky hsticky (values.map some)
  rw [halarms, halternate, getLast?_alternating, hodd]

end Run

end LoopCharger.Main

import LoopCharger.Alarm.Daemon
import LoopCharger.Alarm.Faults
import LoopCharger.Ups.Connection

/-!
# The whole program

`src/main.c` and what it starts and stops: the threads of the units, the two threads of the bridge,
and the monitor with the manager of its alarms. `main` waits for a signal, and then stops and joins
one after the other: the monitor, the subscriber and the poll thread of the bridge, and the units.
At the end it closes the database of the manager.

A signal is handled on the thread of `main`. It ends a call of `pause` that has begun, and between
the test of the flag and this call it only sets the flag. The subscriber is seen here by the writes
of its handlers and by its end. What `main` does before all modules are started is left out, and
where a start of the bridge fails.

## Main definitions

* `MainPhase`, `Program`: where `main` stands, and the program.
* `programStep`, `programMachine`: one step of a thread or of `main`, and the runs.
* `MainStep`: what a step of `main` does.
* `Program.reached`, `Program.seen`: the state and the events of a run from the start.

## Main results

* `mainStep_cases`: the step of `main` is one of these.
* `exists_fleet_run`: what the program does to the units is a run of the units.
-/

namespace LoopCharger.Main

open Lib Cmos Modbus DeviceMap Ups Alarm

/-! ### The manager -/

/-- What a call of the manager finds: the local time, whether the database opens, and which of its
statements are carried out. -/
structure LogEnv where
  ts : String
  opens : Bool
  outcome : SqlOutcome

/-- Handle an event, over a database in which statements may fail. -/
def upsAlarmManagerHandleEventWith (env : LogEnv) (m : AlarmManager) (e : AlarmEmission) :
    AlarmManager × List LogRow :=
  let m := logInit env.opens m
  match e.event with
  | .trigger => writeLogWith env.outcome m env.ts "ALARM_TRIGGER" (detailText "" e.entry e.value)
  | .clear =>
    writeLogWith env.outcome m env.ts "ALARM_CLEAR" (detailText "CLEARED " e.entry e.value)

def upsAlarmManagerClose (m : AlarmManager) : AlarmManager := { m with dbOpen := false }

/-! ### The program -/

/-- The thread of the subscriber. -/
inductive SubThread
  | running
  /-- It is cancelled, and ends at the next point where it can. -/
  | cancelled
  | ended
  deriving DecidableEq

/-- Where `main` stands, when all modules are started. -/
inductive MainPhase
  /-- At the head of its loop. -/
  | testing
  /-- Before the call of `pause`. -/
  | calling
  | pausing
  /-- In `alarm_bridge_stop`. -/
  | stoppingMonitor
  | joiningMonitor
  /-- In `ups_cmos_bridge_stop`. -/
  | stoppingBridge
  | joiningSubscriber
  | joiningPoller
  /-- In the loops of `stop_ups_modules`, at the `k`-th unit. -/
  | stoppingUnits (k : ℕ)
  | joiningUnits (k : ℕ)
  | closing
  | returned
  deriving DecidableEq

structure Program (γ : Type*) where
  units : Telemetry γ
  monitor : Monitor
  manager : AlarmManager
  subscriber : SubThread
  /-- `g_running` is cleared. -/
  signalled : Bool
  phase : MainPhase

inductive ProgramAction
  /-- A step of the thread of a unit. -/
  | unit (k : ℕ)
  /-- A handler of the subscriber writes a register. -/
  | onWrite (uid : UInt8) (addr val : UInt16)
  /-- Another step of the subscriber, which ends it when it is cancelled. -/
  | subscriber
  | poll (arrived : Bool) (result : ℕ → ℤ)
  /-- A step of the monitor, when the clock shows `nowMs`. -/
  | monitor (nowMs : UInt64) (env : LogEnv)
  | signal
  /-- A step of `main`. -/
  | main

inductive ProgramEvent
  | units (e : TelemetryEvent)
  /-- The monitor evaluates a row of the context `c`. -/
  | evaluated (c : ℕ) (entry : AlarmEntry)
  /-- The context `c` calls the manager, at a local time. -/
  | alarm (c : ℕ) (call : String × AlarmEmission)
  /-- The manager has written a row of its table. -/
  | written (row : LogRow)

/-- The manager beside the monitor. -/
def managerOf (env : LogEnv) : Machine AlarmManager MonitorEvent ProgramEvent where
  step m
    | .evaluated c entry => (m, [.evaluated c entry])
    | .alarm c e =>
      let r := upsAlarmManagerHandleEventWith env m e
      (r.1, .alarm c (env.ts, e) :: r.2.map .written)

-- `owners` are the configurations of the units, in the order of the units.
variable {γ : Type*} (api : UnitApi γ) (owners : List ℕ) (upsCount : ℕ)

/-- What the threads of the units and of the bridge do among it all. -/
def unitsStep (p : Program γ) (a : TelemetryAction) : Program γ × List ProgramEvent :=
  let r := telemetryStep upsUidProfileMap api owners upsCount p.units a
  ({ p with units := r.1 }, r.2.map .units)

/-- A step of `main`. A join goes on when the thread has ended. -/
def mainStep (p : Program γ) : Program γ :=
  match p.phase with
  | .testing => { p with phase := if p.signalled then .stoppingMonitor else .calling }
  | .calling => { p with phase := .pausing }
  | .pausing => p
  | .stoppingMonitor =>
    if p.monitor.running then
      { p with monitor := { p.monitor with running := false }, phase := .joiningMonitor }
    else { p with phase := .stoppingBridge }
  | .joiningMonitor =>
    match p.monitor.phase with
    | .stopped => { p with phase := .stoppingBridge }
    | _ => p
  | .stoppingBridge =>
    { p with
      units := (telemetryStep upsUidProfileMap api owners upsCount p.units .stopBridge).1
      subscriber := if p.subscriber = .running then .cancelled else p.subscriber
      phase := .joiningSubscriber }
  | .joiningSubscriber => if p.subscriber = .ended then { p with phase := .joiningPoller } else p
  | .joiningPoller =>
    match p.units.poller with
    | .ended => { p with phase := .stoppingUnits 0 }
    | _ => p
  | .stoppingUnits k =>
    if k < p.units.fleet.units.length then
      { p with
        units := (telemetryStep upsUidProfileMap api owners upsCount p.units (.stop k)).1
        phase := .stoppingUnits (k + 1) }
    else { p with phase := .joiningUnits 0 }
  | .joiningUnits k =>
    match p.units.fleet.units[k]?, p.units.due k with
    | none, _ => { p with phase := .closing }
    | some _, some _ => p
    | some t, none =>
      match t.phase with
      | .stopped => { p with phase := .joiningUnits (k + 1) }
      | _ => p
  | .closing => { p with manager := upsAlarmManagerClose p.manager, phase := .returned }
  | .returned => p

def programStep (p : Program γ) : ProgramAction → Program γ × List ProgramEvent
  | .unit k => unitsStep api owners upsCount p (.thread k)
  | .onWrite uid addr val =>
    if p.subscriber = .ended then (p, [])
    else unitsStep api owners upsCount p (.onWrite uid addr val)
  | .subscriber =>
    if p.subscriber = .cancelled then ({ p with subscriber := .ended }, []) else (p, [])
  | .poll arrived result => unitsStep api owners upsCount p (.poll arrived result)
  | .monitor nowMs env =>
    let r := monitorStep p.monitor nowMs p.units.fleet.pool
    ({ p with monitor := r.1, manager := (managerOf env).state p.manager r.2 },
      (managerOf env).trace p.manager r.2)
  | .signal =>
    ({ p with signalled := true, phase := if p.phase = .pausing then .testing else p.phase }, [])
  | .main => (mainStep api owners upsCount p, [])

/-- The runs of the program. -/
def programMachine : Machine (Program γ) ProgramAction ProgramEvent where
  step := programStep api owners upsCount

/-- The program when `main` comes to its loop: `created` and `monitored` are the outcomes of
`pthread_create` for the units and for the monitor, and the database has the rows `stored`. -/
def Program.start (created : ℕ → Bool) (monitored : Bool) (conns : ℕ → γ)
    (ups : List ModuleConfig) (stored : List LogRow) : Program γ where
  units := .start upsUidProfileMap created conns ups
  monitor := ⟨upsAlarmRegisterAll upsUidProfileMap ups, monitored, 0, true,
    if monitored then .starting else .stopped⟩
  manager := ⟨false, false, stored⟩
  subscriber := .running
  signalled := false
  phase := .testing

/-! ### The units among it all -/

def ProgramEvent.units? : ProgramEvent → Option TelemetryEvent
  | .units e => some e
  | _ => none

/-- What is seen of the units and the bridge. -/
def telemetryEvents (events : List ProgramEvent) : List TelemetryEvent :=
  events.filterMap ProgramEvent.units?

@[simp] theorem telemetryEvents_append (es fs : List ProgramEvent) :
    telemetryEvents (es ++ fs) = telemetryEvents es ++ telemetryEvents fs := List.filterMap_append

@[simp] theorem telemetryEvents_map_units (es : List TelemetryEvent) :
    telemetryEvents (es.map .units) = es := by
  simp [telemetryEvents, List.filterMap_map, Function.comp_def, ProgramEvent.units?]

/-- The monitor and its manager do nothing to the units. -/
theorem telemetryEvents_managerOf (env : LogEnv) (m : AlarmManager) (es : List MonitorEvent) :
    telemetryEvents ((managerOf env).trace m es) = [] := by
  induction es generalizing m with
  | nil => rfl
  | cons e es ih =>
    rw [Machine.trace_cons, telemetryEvents_append, ih, List.append_nil]
    cases e with
    | evaluated c entry => rfl
    | alarm c e =>
      simp [managerOf, telemetryEvents, ProgramEvent.units?]

/-! ### A step of `main` -/

/-- `main` stays where it is: it waits for a signal or for a thread, or it has returned. -/
def Program.Waits (p : Program γ) : Prop :=
  match p.phase with
  | .pausing | .returned => True
  | .joiningMonitor => p.monitor.phase ≠ .stopped
  | .joiningSubscriber => p.subscriber ≠ .ended
  | .joiningPoller => p.units.poller ≠ .ended
  | .joiningUnits k =>
    ∃ t, p.units.fleet.units[k]? = some t ∧ ¬ (t.phase = .stopped ∧ p.units.due k = none)
  | _ => False

/-- Where `main` goes on to with what it sees. -/
inductive GoesOn (p : Program γ) : MainPhase → Prop
  | signalled (hphase : p.phase = .testing) (h : p.signalled = true) : GoesOn p .stoppingMonitor
  | running (hphase : p.phase = .testing) (h : p.signalled = false) : GoesOn p .calling
  | calls (hphase : p.phase = .calling) : GoesOn p .pausing
  /-- There is no monitor to stop. -/
  | unmonitored (hphase : p.phase = .stoppingMonitor) (h : p.monitor.running = false) :
      GoesOn p .stoppingBridge
  | monitor (hphase : p.phase = .joiningMonitor) (h : p.monitor.phase = .stopped) :
      GoesOn p .stoppingBridge
  | subscriber (hphase : p.phase = .joiningSubscriber) (h : p.subscriber = .ended) :
      GoesOn p .joiningPoller
  | poller (hphase : p.phase = .joiningPoller) (h : p.units.poller = .ended) :
      GoesOn p (.stoppingUnits 0)
  | stopped {k : ℕ} (hphase : p.phase = .stoppingUnits k)
      (h : p.units.fleet.units.length ≤ k) : GoesOn p (.joiningUnits 0)
  | unit {k : ℕ} {t : UnitThread γ} (hphase : p.phase = .joiningUnits k)
      (hget : p.units.fleet.units[k]? = some t) (h : t.phase = .stopped ∧ p.units.due k = none) :
      GoesOn p (.joiningUnits (k + 1))
  | last {k : ℕ} (hphase : p.phase = .joiningUnits k) (h : p.units.fleet.units.length ≤ k) :
      GoesOn p .closing

/-- What a step of `main` does. -/
inductive MainStep (p : Program γ) : Program γ → Prop
  | waits (h : p.Waits) : MainStep p p
  | goesOn {phase : MainPhase} (h : GoesOn p phase) : MainStep p { p with phase }
  | stopMonitor (hphase : p.phase = .stoppingMonitor) (h : p.monitor.running = true) :
      MainStep p
        { p with monitor := { p.monitor with running := false }, phase := .joiningMonitor }
  | stopBridge (hphase : p.phase = .stoppingBridge) :
      MainStep p
        { p with
          units := (telemetryStep upsUidProfileMap api owners upsCount p.units .stopBridge).1
          subscriber := if p.subscriber = .running then .cancelled else p.subscriber
          phase := .joiningSubscriber }
  | stopUnit {k : ℕ} (hphase : p.phase = .stoppingUnits k)
      (h : k < p.units.fleet.units.length) :
      MainStep p
        { p with
          units := (telemetryStep upsUidProfileMap api owners upsCount p.units (.stop k)).1
          phase := .stoppingUnits (k + 1) }
  | closes (hphase : p.phase = .closing) :
      MainStep p { p with manager := upsAlarmManagerClose p.manager, phase := .returned }

theorem mainStep_cases (p : Program γ) :
    MainStep api owners upsCount p (mainStep api owners upsCount p) := by
  have hstay : mainStep api owners upsCount p = p → p.Waits →
      MainStep api owners upsCount p (mainStep api owners upsCount p) := fun hsame hwaits =>
    hsame.symm ▸ .waits hwaits
  have hgo : ∀ {phase}, mainStep api owners upsCount p = { p with phase } → GoesOn p phase →
      MainStep api owners upsCount p (mainStep api owners upsCount p) := fun hnext h =>
    hnext.symm ▸ .goesOn h
  cases hphase : p.phase with
  | testing =>
    cases hsignalled : p.signalled with
    | true => exact hgo (by simp [mainStep, hphase, hsignalled]) (.signalled hphase hsignalled)
    | false => exact hgo (by simp [mainStep, hphase, hsignalled]) (.running hphase hsignalled)
  | calling => exact hgo (by simp only [mainStep, hphase]) (.calls hphase)
  | pausing | returned =>
    exact hstay (by simp only [mainStep, hphase]) (by simp only [Program.Waits, hphase])
  | stoppingMonitor =>
    cases hrunning : p.monitor.running with
    | true => simpa [mainStep, hphase, hrunning] using .stopMonitor hphase hrunning
    | false => exact hgo (by simp [mainStep, hphase, hrunning]) (.unmonitored hphase hrunning)
  | joiningMonitor =>
    cases hended : p.monitor.phase with
    | stopped => exact hgo (by simp only [mainStep, hphase, hended]) (.monitor hphase hended)
    | _ =>
      refine hstay (by simp only [mainStep, hphase, hended]) ?_
      simp [Program.Waits, hphase, hended]
  | stoppingBridge => simpa only [mainStep, hphase] using .stopBridge hphase
  | joiningSubscriber =>
    by_cases hended : p.subscriber = .ended
    · exact hgo (by simp only [mainStep, hphase, if_pos hended]) (.subscriber hphase hended)
    · refine hstay (by simp only [mainStep, hphase, if_neg hended]) ?_
      simpa only [Program.Waits, hphase] using hended
  | joiningPoller =>
    cases hended : p.units.poller with
    | ended => exact hgo (by simp only [mainStep, hphase, hended]) (.poller hphase hended)
    | _ =>
      refine hstay (by simp only [mainStep, hphase, hended]) ?_
      simp [Program.Waits, hphase, hended]
  | stoppingUnits k =>
    by_cases hk : k < p.units.fleet.units.length
    · simpa only [mainStep, hphase, if_pos hk] using .stopUnit hphase hk
    · exact hgo (by simp only [mainStep, hphase, if_neg hk])
        (.stopped hphase (Nat.not_lt.mp hk))
  | joiningUnits k =>
    rcases hget : p.units.fleet.units[k]? with _ | t
    · exact hgo (by simp only [mainStep, hphase, hget])
        (.last hphase (List.getElem?_eq_none_iff.mp hget))
    cases hdue : p.units.due k with
    | some state =>
      refine hstay (by simp only [mainStep, hphase, hget, hdue]) ?_
      simp [Program.Waits, hphase, hget, hdue]
    | none =>
      cases hended : t.phase with
      | stopped =>
        exact hgo (by simp only [mainStep, hphase, hget, hdue, hended])
          (.unit hphase hget ⟨hended, hdue⟩)
      | _ =>
        refine hstay (by simp only [mainStep, hphase, hget, hdue, hended]) ?_
        simp [Program.Waits, hphase, hget, hdue, hended]
  | closing => simpa only [mainStep, hphase] using .closes hphase

/-- What `main` does to the units: it tells a thread to stop, or nothing. -/
theorem mainStep_units (p : Program γ) :
    (mainStep api owners upsCount p).units = p.units ∨
      ∃ a, (a = .stopBridge ∨ ∃ k, a = .stop k) ∧ (mainStep api owners upsCount p).units =
        (telemetryStep upsUidProfileMap api owners upsCount p.units a).1 := by
  have hstep := mainStep_cases api owners upsCount p
  generalize mainStep api owners upsCount p = q at hstep ⊢
  cases hstep with
  | waits | goesOn | stopMonitor | closes => exact .inl rfl
  | stopBridge => exact .inr ⟨_, .inl rfl, rfl⟩
  | stopUnit => exact .inr ⟨_, .inr ⟨_, rfl⟩, rfl⟩

/-- Who tells a thread of the units or of the bridge to stop is not seen. -/
theorem telemetryStep_stop (g : Telemetry γ) {a : TelemetryAction}
    (ha : a = .stopBridge ∨ ∃ k, a = .stop k) :
    (telemetryStep upsUidProfileMap api owners upsCount g a).2 = [] := by
  rcases ha with rfl | ⟨k, rfl⟩
  · rfl
  · simp only [telemetryStep]
    split <;> rfl

/-- What a step does to the units: a step of theirs or nothing. -/
theorem programStep_units (p : Program γ) (a : ProgramAction) :
    (∃ b, (programStep api owners upsCount p a).1.units =
        (telemetryStep upsUidProfileMap api owners upsCount p.units b).1 ∧
      telemetryEvents (programStep api owners upsCount p a).2 =
        (telemetryStep upsUidProfileMap api owners upsCount p.units b).2) ∨
      (programStep api owners upsCount p a).1.units = p.units ∧
        telemetryEvents (programStep api owners upsCount p a).2 = [] := by
  cases a with
  | unit k => exact .inl ⟨_, rfl, telemetryEvents_map_units _⟩
  | poll arrived result => exact .inl ⟨_, rfl, telemetryEvents_map_units _⟩
  | signal => exact .inr ⟨rfl, rfl⟩
  | monitor nowMs env => exact .inr ⟨rfl, telemetryEvents_managerOf env _ _⟩
  | onWrite uid addr val =>
    simp only [programStep]
    split_ifs
    · exact .inr ⟨rfl, rfl⟩
    · exact .inl ⟨_, rfl, telemetryEvents_map_units _⟩
  | subscriber =>
    simp only [programStep]
    split_ifs <;> exact .inr ⟨rfl, rfl⟩
  | main =>
    rcases mainStep_units api owners upsCount p with hsame | ⟨b, hb, hunits⟩
    · exact .inr ⟨hsame, rfl⟩
    · exact .inl ⟨b, hunits, (telemetryStep_stop api owners upsCount p.units hb).symm⟩

/-- The units take the steps of a run of theirs. -/
theorem telemetryStep_fleet (g : Telemetry γ) (a : TelemetryAction) :
    ∃ as, (telemetryStep upsUidProfileMap api owners upsCount g a).1.fleet =
        (fleetMachine upsUidProfileMap api).state g.fleet as ∧
      unitEvents (telemetryStep upsUidProfileMap api owners upsCount g a).2 =
        (fleetMachine upsUidProfileMap api).trace g.fleet as := by
  have hstep := telemetryStep_cases upsUidProfileMap api owners upsCount g a
  generalize telemetryStep upsUidProfileMap api owners upsCount g a = r at hstep ⊢
  obtain ⟨g', new⟩ := r
  cases hstep with
  | fleet a due =>
    refine ⟨[a], rfl, ?_⟩
    rw [unitEvents_map_fleet, Machine.trace_cons, Machine.trace_nil, List.append_nil]
    rfl
  | silent => exact ⟨[], rfl, rfl⟩
  | accepted arrived => exact ⟨[], rfl, unitEvents_map_pub _⟩
  | looked it items hpoller => exact ⟨[], rfl, rfl⟩
  | published state it items line result hpoller hline => exact ⟨[], rfl, unitEvents_map_pub _⟩

section Run

variable (created : ℕ → Bool) (monitored : Bool) (conns : ℕ → γ) (ups : List ModuleConfig)
  (stored : List LogRow)

/-- The state after a run, from the start of the program. -/
def Program.reached (actions : List ProgramAction) : Program γ :=
  (programMachine api (unitOwners upsUidProfileMap created ups) ups.length).state
    (.start created monitored conns ups stored) actions

/-- What is seen of a run. -/
def Program.seen (actions : List ProgramAction) : List ProgramEvent :=
  (programMachine api (unitOwners upsUidProfileMap created ups) ups.length).trace
    (.start created monitored conns ups stored) actions

/-- **The units of the program.** What a run of the program does to the units is a run of the units
alone. -/
theorem exists_fleet_run (actions : List ProgramAction) :
    ∃ as, (Program.reached api created monitored conns ups stored actions).units.fleet =
        (fleetMachine upsUidProfileMap api).state (.start upsUidProfileMap created conns ups) as ∧
      unitEvents (telemetryEvents (Program.seen api created monitored conns ups stored actions)) =
        (fleetMachine upsUidProfileMap api).trace (.start upsUidProfileMap created conns ups)
          as := by
  refine (programMachine api _ ups.length).trace_invariant (fun p events => ∃ as, p.units.fleet =
      (fleetMachine upsUidProfileMap api).state (.start upsUidProfileMap created conns ups) as ∧
    unitEvents (telemetryEvents events) =
      (fleetMachine upsUidProfileMap api).trace (.start upsUidProfileMap created conns ups) as)
    ⟨[], rfl, rfl⟩ (fun p events a h => ?_) actions
  obtain ⟨as, hfleet, hevents⟩ := h
  change ∃ as, (programStep api _ ups.length p a).1.units.fleet = _ ∧
    unitEvents (telemetryEvents (events ++ (programStep api _ ups.length p a).2)) = _
  rw [telemetryEvents_append, unitEvents_append, hevents]
  rcases programStep_units api (unitOwners upsUidProfileMap created ups) ups.length p a with
    ⟨b, hunits, hnew⟩ | ⟨hunits, hnew⟩
  · obtain ⟨bs, hstate, htrace⟩ := telemetryStep_fleet api
      (unitOwners upsUidProfileMap created ups) ups.length p.units b
    refine ⟨as ++ bs, ?_, ?_⟩
    · rw [hunits, hstate, Machine.state_append, hfleet]
    · rw [hnew, htrace, Machine.trace_append, hfleet]
  · refine ⟨as, by rw [hunits, hfleet], ?_⟩
    rw [hnew]
    exact List.append_nil _

end Run

end LoopCharger.Main

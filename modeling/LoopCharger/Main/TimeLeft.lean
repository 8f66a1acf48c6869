import LoopCharger.Main.Records
import LoopCharger.Main.Shutdown
import LoopCharger.Ups.Response

/-!
# The threads on their way to their ends

A thread of the program of `src/main.c` that is told to stop does not end at once: a unit finishes
its pass and drains its queue, the poll thread of the bridge finishes its pass over the
configurations, and the monitor its pass over the rows. Here are the steps that each of them still
takes, and a bound for them that holds in every run.

## Main definitions

* `haltTime`, `unitTime`, `pollerTime`, `monitorTime`: the steps to the end of a thread.
* `Program.timeLeft`: the same for every thread of the program.
* `stopBound`: the bound.

## Main results

* `unitTime_telemetryStep`, `pollerTime_pollStep`, `monitorTime_monitorStep`: a thread that is told
  to stop comes nearer to its end with each step of its own.
* `timeLeft_reached`: the bound, in every run.
-/

namespace LoopCharger.Main

open Lib Cmos Modbus DeviceMap Ups Alarm

variable {γ : Type*} (api : UnitApi γ) (owners : List ℕ) (upsCount : ℕ)

/-! ### The thread of a unit -/

/-- The steps of a thread that is told to stop, until it has ended. -/
def haltTime (t : UnitThread γ) : ℕ :=
  match t.phase with
  | .stopped => 0
  | .failed => 3
  | .draining => 2 * t.unit.cmdQueue.count + scanSteps (segments t.unit.profile) + 4
  | .writing _ => 2 * t.unit.cmdQueue.count + scanSteps (segments t.unit.profile) + 5
  | phase => phase.distance + 1

/-- The same, with the assignment that the thread has still to make. -/
def unitTime (g : Telemetry γ) (k : ℕ) : ℕ :=
  match g.fleet.units[k]? with
  | none => 0
  | some t => haltTime t + (g.due k).isSome.toNat

theorem haltTime_eq_zero {t : UnitThread γ} : haltTime t = 0 ↔ t.phase = .stopped := by
  cases hphase : t.phase <;> simp [haltTime, hphase]

/-- The time of a unit is up when its thread has ended. -/
theorem unitTime_eq_zero {g : Telemetry γ} {k : ℕ} {t : UnitThread γ}
    (hget : g.fleet.units[k]? = some t) :
    unitTime g k = 0 ↔ t.phase = .stopped ∧ g.due k = none := by
  simp [unitTime, hget, haltTime_eq_zero]

/-- A thread that is told to stop comes nearer to its end with each step. -/
theorem haltTime_threadStep {t : UnitThread γ} (hrunning : t.running = false)
    (hphase : t.phase ≠ .stopped) :
    haltTime (threadStep api t).1 +
      (dueAfter t.phase (threadStep api t).1.phase).isSome.toNat < haltTime t := by
  cases hp : t.phase with
  | stopped => exact absurd hp hphase
  | connecting =>
    simp [threadStep, hp, hrunning, haltTime, dueAfter]
  | polling =>
    simp [threadStep, hp, hrunning, haltTime, dueAfter, Phase.distance]
  | failed =>
    simp [threadStep, hp, haltTime, dueAfter, Phase.distance]
  | writing cmd =>
    simp [threadStep, hp, haltTime, dueAfter]
  | draining =>
    by_cases hzero : t.unit.cmdQueue.count = 0
    · have hpop : queuePop t.unit.cmdQueue = (none, t.unit.cmdQueue) := if_pos hzero
      simp only [threadStep, hp, hpop, haltTime, dueAfter, Phase.distance]
      simp only [Option.isSome_none, Bool.toNat_false]
      omega
    · obtain ⟨cmd, q, hpop, hcount⟩ : ∃ cmd q, queuePop t.unit.cmdQueue = (some cmd, q) ∧
          q.count = t.unit.cmdQueue.count - 1 := ⟨_, _, if_neg hzero, rfl⟩
      simp only [threadStep, hp, hpop, haltTime, dueAfter, hcount]
      simp only [Option.isSome_none, Bool.toNat_false]
      omega
  | scanning buf segs =>
    cases segs with
    | nil => simp [threadStep, hp, haltTime, dueAfter, Phase.distance, scanSteps]
    | cons seg segs =>
      have hsteps := scanSteps_cons seg segs
      have hone : 0 < scanSteps segs := Nat.succ_pos _
      simp only [threadStep, hp]
      split_ifs
      · simp only [haltTime, hp, dueAfter, Phase.distance, hsteps, Option.isSome_none,
          Bool.toNat_false]
        omega
      · simp only [haltTime, hp, dueAfter, Phase.distance, hsteps, Option.isSome_none,
          Bool.toNat_false]
        omega
      · generalize (_ : List UInt16) ++ _ = buf'
        have hstores := length_readToPoolStores_le t.unit.profile buf' seg
        simp only [haltTime, hp, dueAfter, Phase.distance, hsteps, Option.isSome_none,
          Bool.toNat_false]
        omega
  | storing stores buf segs =>
    cases stores with
    | nil => simp [threadStep, hp, haltTime, dueAfter, Phase.distance]
    | cons s stores => simp [threadStep, hp, haltTime, dueAfter, Phase.distance]

/-- The thread of a unit that is told to stop, beside the others. -/
theorem unitTime_telemetryStep {g : Telemetry γ} {k : ℕ}
    (hrunning : ∀ t, g.fleet.units[k]? = some t → t.running = false) {a : TelemetryAction}
    (ha : ∀ uid addr val, a ≠ .onWrite uid addr val) :
    let g' := (telemetryStep upsUidProfileMap api owners upsCount g a).1
    unitTime g' k ≤ unitTime g k ∧
      (a = .thread k → 0 < unitTime g k → unitTime g' k < unitTime g k) := by
  intro g'
  have hsame : g'.fleet.units[k]? = g.fleet.units[k]? → g'.due k = g.due k →
      unitTime g' k = unitTime g k := fun hunits hdue => by rw [unitTime, hunits, hdue]; rfl
  cases a with
  | onWrite uid addr val => exact absurd rfl (ha uid addr val)
  | poll arrived result =>
    obtain ⟨hfleet, -, hdue⟩ := pollStep_frame upsCount g arrived result
    exact ⟨(hsame (by rw [show g'.fleet = _ from hfleet])
      (by rw [show g'.due = _ from hdue])).le, fun h => TelemetryAction.noConfusion h⟩
  | stopBridge => exact ⟨le_rfl, fun h => TelemetryAction.noConfusion h⟩
  | stop j =>
    refine ⟨?_, fun h => TelemetryAction.noConfusion h⟩
    simp only [g', telemetryStep]
    split
    · simp only [unitTime, fleetStep, List.getElem?_modify]
      cases g.fleet.units[k]? with
      | none => exact le_rfl
      | some t => split_ifs <;> exact le_rfl
    · exact le_rfl
  | thread j =>
    cases hdue : g.due j with
    | some state =>
      have hg' : g' = { g with
          connection := Function.update g.connection (owners.getD j 0) state
          due := Function.update g.due j none } := by
        simp only [g', telemetryStep, unitStep, hdue]
      by_cases hjk : j = k
      · subst hjk
        rcases hget : g.fleet.units[j]? with _ | t
        · simp [unitTime, hg', hget]
        · simp [unitTime, hg', hget, hdue]
      · refine ⟨(hsame (by rw [hg']) ?_).le, fun h => absurd (TelemetryAction.thread.inj h) hjk⟩
        rw [hg']
        exact Function.update_of_ne (Ne.symm hjk) _ _
    | none =>
      rcases hget : g.fleet.units[j]? with _ | t
      · have hg' : g' = g := by simp only [g', telemetryStep, unitStep, hdue, hget]
        rw [hg']
        refine ⟨le_rfl, fun h htime => ?_⟩
        obtain rfl := TelemetryAction.thread.inj h
        rw [unitTime, hget] at htime
        exact absurd htime (Nat.lt_irrefl 0)
      have hg' : g' = { g with
          fleet := (fleetStep upsUidProfileMap api g.fleet (.thread j)).1
          due := Function.update g.due j (dueAfter t.phase (threadStep api t).1.phase) } := by
        simp only [g', telemetryStep, unitStep, hdue, hget]
      by_cases hjk : j = k
      · subst hjk
        have htime : unitTime g j = haltTime t := by simp [unitTime, hget, hdue]
        have htime' : unitTime g' j = haltTime (threadStep api t).1 +
            (dueAfter t.phase (threadStep api t).1.phase).isSome.toNat := by
          simp only [unitTime, hg', fleetStep_thread upsUidProfileMap api hget,
            Function.update_self]
        rw [htime, htime']
        by_cases hphase : t.phase = .stopped
        · have hstep : threadStep api t = (t, []) := by simp only [threadStep, hphase]
          rw [hstep, hphase, haltTime_eq_zero.mpr hphase]
          exact ⟨le_rfl, fun _ h => absurd h (Nat.lt_irrefl 0)⟩
        · have hlt := haltTime_threadStep api (hrunning t hget) hphase
          exact ⟨hlt.le, fun _ _ => hlt⟩
      · refine ⟨(hsame ?_ ?_).le, fun h => absurd (TelemetryAction.thread.inj h) hjk⟩
        · simp only [hg', fleetStep, hget, List.getElem?_set_ne hjk]
        · rw [hg']
          exact Function.update_of_ne (Ne.symm hjk) _ _

/-! ### The threads of the bridge and of the monitor -/

/-- The steps of the poll thread until it has ended, when it is told to stop. -/
def pollerTime : Poller → ℕ
  | .ended => 0
  | .head => 1
  | .pass items => 2 * items.length + 2
  | .looked _ _ items => 2 * items.length + 3

theorem pollerTime_eq_zero {poller : Poller} : pollerTime poller = 0 ↔ poller = .ended := by
  cases poller <;> simp [pollerTime]

/-- What the other threads leave of the poll thread. -/
theorem telemetryStep_poller (g : Telemetry γ) {a : TelemetryAction}
    (ha : ∀ arrived result, a ≠ .poll arrived result) :
    (telemetryStep upsUidProfileMap api owners upsCount g a).1.poller = g.poller := by
  cases a with
  | onWrite uid addr val | stopBridge => rfl
  | poll arrived result => exact absurd rfl (ha arrived result)
  | thread k =>
    simp only [telemetryStep, unitStep]
    split
    · rfl
    · split <;> rfl
  | stop k =>
    simp only [telemetryStep]
    split <;> rfl

/-- The poll thread comes nearer to its end with each step when it is told to stop. -/
theorem pollerTime_pollStep {g : Telemetry γ} (hstop : g.bridgeRunning = false)
    (hpoller : g.poller ≠ .ended) (arrived : Bool) (result : ℕ → ℤ) :
    pollerTime (pollStep upsCount g arrived result).1.poller < pollerTime g.poller := by
  cases hp : g.poller with
  | ended => exact absurd hp hpoller
  | head => simp [pollStep, hp, hstop, pollerTime]
  | pass items =>
    cases items with
    | nil => simp [pollStep, hp, pollerTime]
    | cons it items =>
      simp only [pollStep, hp, pollerTime, List.length_cons]
      omega
  | looked state it items =>
    simp only [pollStep, hp]
    split <;> simp [pollerTime]

/-- A pass has all registers of all configurations at most. -/
theorem length_items_pollStep {g : Telemetry γ}
    (h : g.poller.items.length ≤ (pollPass upsCount).length) (arrived : Bool) (result : ℕ → ℤ) :
    (pollStep upsCount g arrived result).1.poller.items.length ≤ (pollPass upsCount).length := by
  cases hp : g.poller with
  | head =>
    simp only [pollStep, hp]
    split_ifs
    · exact le_rfl
    · exact Nat.zero_le _
  | ended => simpa only [pollStep, hp] using h
  | pass items =>
    rw [hp] at h
    cases items with
    | nil =>
      simp only [pollStep, hp]
      exact Nat.zero_le _
    | cons it items =>
      simp only [pollStep, hp]
      exact h
  | looked state it items =>
    rw [hp] at h
    have hitems : items.length ≤ (pollPass upsCount).length := (Nat.le_succ _).trans h
    simp only [pollStep, hp]
    split <;> exact hitems

theorem pollerTime_le (poller : Poller) : pollerTime poller ≤ 2 * poller.items.length + 2 := by
  cases poller with
  | looked state it items =>
    simp only [pollerTime, Poller.items, List.length_cons]
    omega
  | _ => simp [pollerTime, Poller.items]

/-- The rows that a pass of the monitor evaluates, and the ends of the contexts. -/
def passTime (ctxs : List AlarmBinding) : ℕ := (ctxs.map fun b => b.ctx.table.length + 1).sum

/-- What is left of a pass before the row `i` of the context `c`. -/
def passTimeAt (ctxs : List AlarmBinding) (c i : ℕ) : ℕ :=
  match ctxs[c]? with
  | none => 0
  | some b => b.ctx.table.length - i + 1 + passTime (ctxs.drop (c + 1))

/-- The steps of the monitor until it has ended, when it is told to stop. -/
def monitorTime (m : Monitor) : ℕ :=
  match m.phase with
  | .stopped => 0
  | .waiting => 1
  | .starting => 2
  | .evaluating c i => passTimeAt m.ctxs c i + 2

theorem monitorTime_eq_zero {m : Monitor} : monitorTime m = 0 ↔ m.phase = .stopped := by
  cases hp : m.phase <;> simp [monitorTime, hp]

theorem passTime_drop {ctxs : List AlarmBinding} {c : ℕ} {b : AlarmBinding}
    (hb : ctxs[c]? = some b) :
    passTime (ctxs.drop c) = b.ctx.table.length + 1 + passTime (ctxs.drop (c + 1)) := by
  obtain ⟨hc, rfl⟩ := List.getElem?_eq_some_iff.mp hb
  rw [List.drop_eq_getElem_cons hc, passTime, List.map_cons, List.sum_cons]
  rfl

theorem passTime_drop_le (ctxs : List AlarmBinding) (c : ℕ) :
    passTime (ctxs.drop c) ≤ passTime ctxs := by
  have hsplit : passTime ctxs = passTime (ctxs.take c) + passTime (ctxs.drop c) := by
    rw [passTime, passTime, passTime, ← List.sum_append, ← List.map_append, List.take_append_drop]
  rw [hsplit]
  exact Nat.le_add_left _ _

theorem passTimeAt_some {ctxs : List AlarmBinding} {c : ℕ} {b : AlarmBinding}
    (hb : ctxs[c]? = some b) (i : ℕ) :
    passTimeAt ctxs c i = b.ctx.table.length - i + 1 + passTime (ctxs.drop (c + 1)) := by
  simp only [passTimeAt, hb]

theorem passTimeAt_zero (ctxs : List AlarmBinding) (c : ℕ) :
    passTimeAt ctxs c 0 = passTime (ctxs.drop c) := by
  rcases hb : ctxs[c]? with _ | b
  · rw [List.drop_eq_nil_of_le (List.getElem?_eq_none_iff.mp hb), passTimeAt, hb]
    rfl
  · rw [passTimeAt_some hb, passTime_drop hb, Nat.sub_zero]

theorem passTimeAt_le (ctxs : List AlarmBinding) (c i : ℕ) :
    passTimeAt ctxs c i ≤ passTime (ctxs.drop c) := by
  rw [← passTimeAt_zero]
  rcases hb : ctxs[c]? with _ | b
  · simp only [passTimeAt, hb, le_refl]
  · rw [passTimeAt_some hb, passTimeAt_some hb]
    omega

theorem monitorTime_le (m : Monitor) : monitorTime m ≤ passTime m.ctxs + 2 := by
  cases hp : m.phase with
  | evaluating c i =>
    have hpass := (passTimeAt_le m.ctxs c i).trans (passTime_drop_le m.ctxs c)
    simpa only [monitorTime, hp] using Nat.add_le_add_right hpass 2
  | _ => simp [monitorTime, hp]

theorem table_evalRowAt (ctx : AlarmCtx) (i : ℕ) (read : Option UInt16) :
    (ctx.evalRowAt i read).1.table = ctx.table := by
  unfold AlarmCtx.evalRowAt
  split <;> rfl

/-- The monitor comes nearer to its end with each step when it is told to stop. -/
theorem monitorTime_monitorStep {m : Monitor} (hstop : m.running = false)
    (hphase : m.phase ≠ .stopped) (nowMs : UInt64) (pool : Pool) :
    monitorTime (monitorStep m nowMs pool).1 < monitorTime m := by
  cases hp : m.phase with
  | stopped => exact absurd hp hphase
  | starting => simp [monitorStep, hp, monitorTime]
  | waiting => simp [monitorStep, hp, hstop, monitorTime]
  | evaluating c i =>
    cases hb : m.ctxs[c]? with
    | none => simp [monitorStep, hp, hb, monitorTime]
    | some b =>
      cases hentry : b.ctx.table[i]? with
      | none =>
        simp only [monitorStep, hp, hb, hentry, monitorTime, passTimeAt_zero, passTimeAt_some hb]
        omega
      | some entry =>
        have hi := (List.getElem?_eq_some_iff.mp hentry).1
        have hc := (List.getElem?_eq_some_iff.mp hb).1
        simp only [monitorStep, hp, hb, hentry, monitorTime]
        rw [passTimeAt_some hb, passTimeAt_some (List.getElem?_set_self hc),
          List.drop_set_of_lt (Nat.lt_add_one c), table_evalRowAt]
        omega

/-- The steps of a thread until it has ended, when it is told to stop. -/
def Program.timeLeft (p : Program γ) : Party → ℕ
  | .main => 0
  | .monitor => monitorTime p.monitor
  | .subscriber => if p.subscriber = .ended then 0 else 1
  | .poller => pollerTime p.units.poller
  | .unit k => unitTime p.units k

/-! ### Bounds -/

/-- The queues of the units in every run. -/
theorem queue_wellFormed (map : UidProfileMap) (created : ℕ → Bool) (conns : ℕ → γ)
    (ups : List ModuleConfig) (actions : List FleetAction) :
    ∀ t ∈ ((fleetMachine map api).state (.start map created conns ups) actions).units,
      t.unit.cmdQueue.WellFormed := by
  refine (fleetMachine map api).invariant (fun f => ∀ t ∈ f.units, t.unit.cmdQueue.WellFormed)
    (fun t ht => ?_) (fun f a h u hu => ?_) actions
  · rcases mem_startLoop map created conns 0 ups 0 [] ht with hnil | ⟨cfg, profile, j, -, rfl⟩
    · cases hnil
    · exact wellFormed_queueInit
  change u ∈ (fleetStep map api f a).1.units at hu
  cases a with
  | onWrite uid addr val =>
    rcases fleetStep_onWrite_cases map api f uid addr val with
      hrej | ⟨_, _, k, t, -, -, -, -, hget, -, hacc⟩
    · exact h u (by rwa [hrej] at hu)
    · rw [hacc] at hu
      rcases List.mem_or_eq_of_mem_set hu with hu | rfl
      · exact h u hu
      · exact (h t (List.mem_of_getElem? hget)).push _ _ _ _
  | thread k =>
    rcases hget : f.units[k]? with _ | t
    · simp only [fleetStep, hget] at hu
      exact h u hu
    · simp only [fleetStep, hget] at hu
      rcases List.mem_or_eq_of_mem_set hu with hu | rfl
      · exact h u hu
      · exact (threadStep_queue api (h t (List.mem_of_getElem? hget))).1
  | stop k =>
    obtain ⟨j, hj⟩ := List.mem_iff_getElem?.mp hu
    obtain ⟨t, ht, rfl | rfl⟩ := exists_of_getElem?_stop hj
    · exact h _ (List.mem_of_getElem? ht)
    · exact h t (List.mem_of_getElem? ht)

/-- The steps that the thread of a unit takes to its end, at most. -/
def haltBound : ℕ := 2 * UPS_CMD_QUEUE_CAPACITY + scanSteps (segments ups1Profile) + 6

/-- The steps that a thread takes to its end, at most. -/
def stopBound (upsCount : ℕ) : ℕ :=
  max haltBound (max (2 * (pollPass upsCount).length + 2) (upsAlarmTable.length + 3))

theorem haltTime_le {t : UnitThread γ} (hprofile : t.unit.profile = ups1Profile)
    (hqueue : t.unit.cmdQueue.WellFormed)
    (hdistance : t.phase.distance ≤ scanSteps (segments t.unit.profile) + 2) :
    haltTime t < haltBound := by
  have hcount := hqueue.count_le
  rw [hprofile] at hdistance
  rw [haltTime, haltBound, hprofile]
  split <;> omega

section Run

variable (created : ℕ → Bool) (monitored : Bool) (conns : ℕ → γ) (ups : List ModuleConfig)
  (stored : List LogRow)

theorem length_fleetStep (map : UidProfileMap) (f : Fleet γ) (a : FleetAction) :
    (fleetStep map api f a).1.units.length = f.units.length := by
  cases a with
  | onWrite uid addr val =>
    rcases fleetStep_onWrite_cases map api f uid addr val with
      hrej | ⟨_, _, k, t, -, -, -, -, -, -, hacc⟩
    · rw [hrej]
    · rw [hacc, List.length_set]
  | thread k =>
    simp only [fleetStep]
    split
    · rfl
    · exact List.length_set
  | stop k => exact List.length_modify _ _ _

/-- The poll thread in every run. -/
theorem length_items_reached (actions : List ProgramAction) :
    (Program.reached api created monitored conns ups stored
      actions).units.poller.items.length ≤ (pollPass ups.length).length := by
  refine (programMachine api _ ups.length).invariant
    (fun p => p.units.poller.items.length ≤ (pollPass ups.length).length) (Nat.zero_le _)
    (fun p a h => ?_) actions
  change (programStep api _ ups.length p a).1.units.poller.items.length ≤ _
  rcases programStep_units api (unitOwners upsUidProfileMap created ups) ups.length p a with
    ⟨b, hunits, -⟩ | ⟨hunits, -⟩
  · rw [hunits]
    by_cases hb : ∀ arrived result, b ≠ .poll arrived result
    · rwa [telemetryStep_poller api _ ups.length p.units hb]
    · obtain ⟨arrived, result, rfl⟩ : ∃ arrived result, b = .poll arrived result := by
        simpa only [not_forall, ne_eq, not_not] using hb
      exact length_items_pollStep ups.length h arrived result
  · rwa [hunits]

/-- The contexts of the monitor in every run. -/
theorem length_ctxs_reached (actions : List ProgramAction) :
    (Program.reached api created monitored conns ups stored actions).monitor.ctxs.length ≤ 1 := by
  refine (programMachine api _ ups.length).invariant (fun p => p.monitor.ctxs.length ≤ 1)
    (List.length_filterMap_le _ _) (fun p a h => ?_) actions
  change (programStep api _ ups.length p a).1.monitor.ctxs.length ≤ 1
  by_cases ha : ∀ nowMs env, a ≠ .monitor nowMs env
  · rwa [(programStep_other api _ ups.length p ha).1]
  · obtain ⟨nowMs, env, rfl⟩ : ∃ nowMs env, a = .monitor nowMs env := by
      simpa only [not_forall, ne_eq, not_not] using ha
    have hstep := programStep_monitor api (unitOwners upsUidProfileMap created ups) ups.length p
      nowMs env
    generalize programStep api _ ups.length p (.monitor nowMs env) = r at hstep ⊢
    obtain ⟨q, new⟩ := r
    cases hstep with
    | silent m hctxs => rwa [hctxs]
    | row m c i b entry state v hb hentry hstate hread hctxs => rwa [hctxs, List.length_set]

/-- The number of the units in every run. -/
theorem length_units_reached (actions : List ProgramAction) :
    (Program.reached api created monitored conns ups stored
        actions).units.fleet.units.length =
      (startUpsModules upsUidProfileMap created conns ups).2.length := by
  obtain ⟨as, hfleet, -⟩ := exists_fleet_run api created monitored conns ups stored actions
  rw [hfleet]
  exact (fleetMachine upsUidProfileMap api).invariant (fun f => f.units.length = _) rfl
    (fun f a h => (length_fleetStep api _ f a).trans h) as

/-- The threads are never further from their ends than the bound. -/
theorem timeLeft_reached (actions : List ProgramAction) (x : Party) :
    (Program.reached api created monitored conns ups stored actions).timeLeft x ≤
      stopBound ups.length := by
  have htracked := tracked_run api created monitored conns ups stored actions
  cases x with
  | main => exact Nat.zero_le _
  | subscriber =>
    have hone : 1 ≤ stopBound ups.length :=
      (Nat.le_add_left 1 (upsAlarmTable.length + 2)).trans
        ((le_max_right _ _).trans (le_max_right _ _))
    simp only [Program.timeLeft]
    split_ifs
    · exact Nat.zero_le _
    · exact hone
  | unit k =>
    refine le_trans ?_ (le_max_left _ _)
    obtain ⟨as, hfleet, -⟩ := exists_fleet_run api created monitored conns ups stored actions
    rw [Program.timeLeft, unitTime]
    rcases hget : (Program.reached api created monitored conns ups stored
      actions).units.fleet.units[k]? with _ | t
    · exact Nat.zero_le _
    have hmem := List.mem_of_getElem? hget
    have hprofile := htracked.latest.ingested.profile k t hget
    rw [hfleet] at hmem
    have hlt := haltTime_le hprofile
      (queue_wellFormed api _ created conns ups as t hmem)
      (distance_le _ api created conns ups as t hmem)
    have hdue := Bool.toNat_le ((Program.reached api created monitored conns ups stored
      actions).units.due k).isSome
    dsimp only
    omega
  | poller =>
    have hitems := length_items_reached api created monitored conns ups stored actions
    refine le_trans ?_ ((le_max_left _ _).trans (le_max_right _ _))
    exact (pollerTime_le _).trans (Nat.add_le_add_right (Nat.mul_le_mul_left 2 hitems) 2)
  | monitor =>
    have hlength := length_ctxs_reached api created monitored conns ups stored actions
    refine le_trans ?_ ((le_max_right _ _).trans (le_max_right _ _))
    refine (monitorTime_le _).trans (Nat.add_le_add_right ?_ 2)
    have htable := htracked.sampled.bound
    generalize (Program.reached api created monitored conns ups stored actions).monitor.ctxs = ctxs
      at hlength htable ⊢
    cases ctxs with
    | nil => exact Nat.zero_le _
    | cons b ctxs =>
      obtain rfl : ctxs = [] := List.length_eq_zero_iff.mp (Nat.le_zero.mp
        (Nat.le_of_succ_le_succ hlength))
      simp only [passTime, List.map_cons, List.map_nil, List.sum_cons, List.sum_nil,
        (htable 0 b rfl).2, Nat.add_zero, le_refl]

end Run

end LoopCharger.Main

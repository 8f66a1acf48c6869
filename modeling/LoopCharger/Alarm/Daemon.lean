import LoopCharger.Alarm.Monitor
import LoopCharger.Modbus.Device
import LoopCharger.Ups.Ingest

/-!
# The daemon

The daemon that `src/main.c` starts: the units and the write bridge, and the alarm monitor with the
table that `src/ups_alarm.c` registers for the units. All of them run side by side, and what they
share is the pool.

The monitor waits for five seconds and then takes the pool as it is. A row whose condition holds
of zero raises an alarm on a register that nobody has read. A read that the device answers by an
exception with the code zero is stored like any other, and any row may raise an alarm on what the
buffer held then. `alarms_from_reads_iff` says that nothing else goes wrong.

## Main definitions

* `upsAlarmTable`, `upsAlarmRegisterAll`: the alarm rows, and the contexts with them.
* `Daemon`, `daemonMachine`: the daemon and its runs.
* `AlarmsFromReads`: every alarm carries a value that a read of its register has stored.

## Main results

* `alarms_from_reads_iff`: the runs in which this is so.
-/

namespace LoopCharger.Alarm

open Lib Modbus DeviceMap Ups

/-! ### The contexts -/

def UPS_ERR_WARNING_1 : UInt16 := 0x0001
def UPS_ERR_WARNING_2 : UInt16 := 0x0002
def UPS_ERR_BATT_LOW : UInt16 := 0x0010
def UPS_ERR_BATT_TEMP_HIGH : UInt16 := 0x0011
def UPS_ERR_OUTPUT_VOLT_HIGH : UInt16 := 0x0020
def UPS_ERR_FAULT_CHANGE : UInt16 := 0x0030

def upsAlarmTable : List AlarmEntry := [
  ⟨0x0000, .bitmask, 0x0000, 0x0100, UPS_ERR_WARNING_1, "warning reg1 bit 0x0100"⟩,
  ⟨0x0000, .bitmask, 0x0000, 0x0010, UPS_ERR_WARNING_2, "warning reg1 bit 0x0010"⟩,
  ⟨0x0002, .range, 0x0014, 0xFFFF, UPS_ERR_BATT_LOW, "battery capacity < 20%"⟩,
  ⟨0x0003, .range, 0x0000, 0x0258, UPS_ERR_BATT_TEMP_HIGH, "battery temperature high"⟩,
  ⟨0x0004, .range, 0x00B4, 0x00F0, UPS_ERR_OUTPUT_VOLT_HIGH, "output voltage out of range"⟩,
  ⟨0x0005, .change, 0x0000, 0x0000, UPS_ERR_FAULT_CHANGE, "fault register changed"⟩]

/-- The uids of `alarm_registry`. -/
def alarmRegistry : List UInt8 := [1]

/-- The contexts registered with the bridge: one for each uid that has a profile and a
configuration. -/
def upsAlarmRegisterAll (map : UidProfileMap) (ups : List ModuleConfig) : List AlarmBinding :=
  alarmRegistry.filterMap fun uid =>
    match upsFindProfileByUid map uid with
    | none => none
    | some profile =>
      match ups.find? fun cfg => UInt8.ofInt cfg.modbusUid == uid with
      | none => none
      | some _ => some ⟨.start upsAlarmTable, profile⟩

/-! ### Runs -/

structure Daemon (γ : Type*) where
  fleet : Fleet γ
  monitor : Monitor

inductive DaemonAction
  /-- A step of the bridge or of a unit's thread. -/
  | fleet (a : FleetAction)
  /-- A step of the monitor, when the clock shows `nowMs`. -/
  | monitor (nowMs : UInt64)
  /-- The monitor is told to stop. -/
  | stopMonitor

inductive DaemonEvent
  | fleet (event : FleetEvent)
  | monitor (event : MonitorEvent)
  deriving DecidableEq

variable {γ : Type*} (api : UnitApi γ)

def daemonStep (d : Daemon γ) : DaemonAction → Daemon γ × List DaemonEvent
  | .fleet a =>
    let r := fleetStep upsUidProfileMap api d.fleet a
    ({ d with fleet := r.1 }, r.2.map .fleet)
  | .monitor nowMs =>
    let r := monitorStep d.monitor nowMs d.fleet.pool
    ({ d with monitor := r.1 }, r.2.map .monitor)
  | .stopMonitor => ({ d with monitor := { d.monitor with running := false } }, [])

/-- The runs of the daemon. -/
def daemonMachine : Machine (Daemon γ) DaemonAction DaemonEvent where
  step := daemonStep api

/-- The daemon when its threads are created. -/
def Daemon.start (created : ℕ → Bool) (conns : ℕ → γ) (ups : List ModuleConfig) : Daemon γ where
  fleet := .start upsUidProfileMap created conns ups
  monitor := ⟨upsAlarmRegisterAll upsUidProfileMap ups, true, 0, true, .starting⟩

/-! ### Alarms and reads -/

/-- The events of the units and the bridge. -/
def fleetEvents (events : List DaemonEvent) : List FleetEvent :=
  events.filterMap fun
    | .fleet event => some event
    | .monitor _ => none

@[simp] theorem fleetEvents_append (es fs : List DaemonEvent) :
    fleetEvents (es ++ fs) = fleetEvents es ++ fleetEvents fs := List.filterMap_append

@[simp] theorem fleetEvents_map_fleet (events : List FleetEvent) :
    fleetEvents (events.map .fleet) = events := by
  simp [fleetEvents, List.filterMap_map]

@[simp] theorem fleetEvents_map_monitor (events : List MonitorEvent) :
    fleetEvents (events.map .monitor) = [] := by
  simp [fleetEvents, List.filterMap_map]

/-- Every alarm carries a value that a successful read of its register has stored before. -/
def AlarmsFromReads : List DaemonEvent → Prop :=
  Always fun before event => ∀ c e, event = .monitor (.alarm c e) →
    ReadInto e.entry.deviceAddress e.value (fleetEvents before)

/-- No row of the kind `P` is evaluated before a successful read of its register is stored. -/
def EvaluatedOnceRead (P : AlarmEntry → Prop) : List DaemonEvent → Prop :=
  Always fun before event => ∀ c entry, event = .monitor (.evaluated c entry) → P entry →
    ∃ v, ReadInto entry.deviceAddress v (fleetEvents before)

/-- A row that raises an alarm on zero, when it has never been active. -/
def AlarmEntry.FiresAtZero (entry : AlarmEntry) : Prop := (evalEntry entry {} 0).2 ≠ none

instance (entry : AlarmEntry) : Decidable entry.FiresAtZero :=
  inferInstanceAs (Decidable ((evalEntry entry {} 0).2 ≠ none))

/-- A row that does not is left as it was. -/
theorem evalEntry_of_not_firesAtZero {entry : AlarmEntry} (h : ¬ entry.FiresAtZero) :
    evalEntry entry {} 0 = ({}, none) := by
  have hnone : (evalEntry entry {} 0).2 = none := not_not.mp h
  have hsticky : ∀ b, (applySticky {} b).2 = none → applySticky {} b = ({}, none) := by decide
  unfold evalEntry at hnone ⊢
  cases hc : entry.condition with
  | bitmask =>
    rw [hc] at hnone
    exact hsticky _ hnone
  | range =>
    rw [hc] at hnone
    exact hsticky _ hnone
  | change => rfl
  | unknown => rfl

/-- Events of the units raise no alarm and evaluate no row. -/
theorem always_append_map_fleet {P : AlarmEntry → Prop} (events : List DaemonEvent)
    (new : List FleetEvent) :
    (AlarmsFromReads (events ++ new.map .fleet) ↔ AlarmsFromReads events) ∧
      (EvaluatedOnceRead P (events ++ new.map .fleet) ↔ EvaluatedOnceRead P events) := by
  constructor <;> refine always_append_of_forall fun event hmem before => ?_
  all_goals
    obtain ⟨event, -, rfl⟩ := List.mem_map.mp hmem
    rintro _ _ ⟨⟩

/-- A row that is evaluated, and the alarm it may raise. -/
theorem always_append_row {P : AlarmEntry → Prop} (events : List DaemonEvent) (c i : ℕ)
    (entry : AlarmEntry) (v : UInt16) (event : Option AlarmEvent) :
    let new : List MonitorEvent :=
      .evaluated c entry :: event.toList.map fun event => .alarm c ⟨i, entry, v, event⟩
    (AlarmsFromReads (events ++ new.map .monitor) ↔ AlarmsFromReads events ∧
        (event ≠ none → ReadInto entry.deviceAddress v (fleetEvents events))) ∧
      (EvaluatedOnceRead P (events ++ new.map .monitor) ↔ EvaluatedOnceRead P events ∧
        (P entry → ∃ w, ReadInto entry.deviceAddress w (fleetEvents events))) := by
  intro new
  have hfleet : fleetEvents [.monitor (.evaluated c entry)] = [] := rfl
  cases event with
  | none =>
    simp only [new, Option.toList_none, List.map_nil, List.map_cons, AlarmsFromReads,
      EvaluatedOnceRead, always_concat]
    simp
  | some event =>
    have hnew : events ++ new.map .monitor = (events ++ [.monitor (.evaluated c entry)]) ++
        [.monitor (.alarm c ⟨i, entry, v, event⟩)] := by
      simp only [new, Option.toList_some, List.map_cons, List.map_nil, List.append_assoc]
      rfl
    rw [hnew]
    simp only [AlarmsFromReads, EvaluatedOnceRead, always_concat, fleetEvents_append, hfleet,
      List.append_nil]
    simp

/-- The daemon against its events, for contexts with the rows `table` over the profile `p`. Where
every request is answered, and as long as every alarm carries a value that was read, the rows of
registers that were not are in their first state. -/
structure Watched (p : DeviceMapProfile) (table : List AlarmEntry) (P : AlarmEntry → Prop)
    (d : Daemon γ) (events : List DaemonEvent) : Prop where
  ingested : Ingested p d.fleet (fleetEvents events)
  bound : ∀ (c : ℕ) b, d.monitor.ctxs[c]? = some b → b.profile = p ∧ b.ctx.table = table
  quiet : Answered (fleetEvents events) → AlarmsFromReads events →
    ∀ (c : ℕ) b (i : ℕ) entry, d.monitor.ctxs[c]? = some b → table[i]? = some entry →
    (∀ v, ¬ ReadInto entry.deviceAddress v (fleetEvents events)) → b.ctx.states[i]? = some {}
  iff : Answered (fleetEvents events) → (AlarmsFromReads events ↔ EvaluatedOnceRead P events)

variable {p : DeviceMapProfile} {table : List AlarmEntry} {P : AlarmEntry → Prop} {d : Daemon γ}
  {events : List DaemonEvent}

/-- A step of the units or the bridge. -/
theorem Watched.fleet (h : Watched p table P d events) (hp : p.WellFormed) (a : FleetAction) :
    let r := fleetStep upsUidProfileMap api d.fleet a
    Watched p table P { d with fleet := r.1 } (events ++ r.2.map .fleet) := by
  intro r
  obtain ⟨halarms, heval⟩ := @always_append_map_fleet P events r.2
  have hbefore : Answered (fleetEvents (events ++ r.2.map .fleet)) →
      Answered (fleetEvents events) := fun hall => (fleetEvents_append _ _ ▸ hall).of_append
  refine ⟨?_, h.bound, fun hall hok c b i entry hb hentry hunread => ?_, fun hall => ?_⟩
  · rw [fleetEvents_append, fleetEvents_map_fleet]
    exact h.ingested.step hp upsUidProfileMap api a
  · refine h.quiet (hbefore hall) (halarms.mp hok) c b i entry hb hentry fun v hread => hunread v ?_
    rw [fleetEvents_append]
    exact hread.append _
  · rw [halarms, heval, h.iff (hbefore hall)]

/-- A row of a register that was not read reads zero, and has not seen anything else. -/
theorem Watched.eq_zero_of_unread (h : Watched p table P d events)
    (hall : Answered (fleetEvents events)) (hok : AlarmsFromReads events) {c i : ℕ}
    {b : AlarmBinding} {entry : AlarmEntry} {state : AlarmState} {v : UInt16}
    (hb : d.monitor.ctxs[c]? = some b) (hentry : b.ctx.table[i]? = some entry)
    (hstate : b.ctx.states[i]? = some state)
    (hread : poolReadByDeviceAddr d.fleet.pool b.profile entry.deviceAddress = some v)
    (hunread : ∀ w, ¬ ReadInto entry.deviceAddress w (fleetEvents events)) :
    v = 0 ∧ state = {} := by
  obtain ⟨hprofile, htable⟩ := h.bound c b hb
  have hvalue := h.ingested.read hall (hprofile ▸ hread)
  have hquiet := h.quiet hall hok c b i entry hb (htable ▸ hentry) hunread
  exact ⟨(hvalue.resolve_right (hunread v)).1, Option.some.inj (hstate.symm.trans hquiet)⟩

/-- A row that the monitor evaluates. -/
theorem Watched.row (h : Watched p table P d events) (hP : ∀ e ∈ table, P e ↔ e.FiresAtZero)
    {c i : ℕ} {b : AlarmBinding} {entry : AlarmEntry} {state : AlarmState} {v : UInt16}
    (hb : d.monitor.ctxs[c]? = some b) (hentry : b.ctx.table[i]? = some entry)
    (hstate : b.ctx.states[i]? = some state)
    (hread : poolReadByDeviceAddr d.fleet.pool b.profile entry.deviceAddress = some v)
    {m : Monitor}
    (hm : m.ctxs = d.monitor.ctxs.set c { b with ctx := (b.ctx.evalRowAt i (some v)).1 }) :
    let new : List MonitorEvent := .evaluated c entry ::
      (evalEntry entry state v).2.toList.map fun event => .alarm c ⟨i, entry, v, event⟩
    Watched p table P { d with monitor := m } (events ++ new.map .monitor) := by
  intro new
  obtain ⟨hprofile, htable⟩ := h.bound c b hb
  obtain ⟨halarms, heval⟩ := @always_append_row P events c i entry v (evalEntry entry state v).2
  have hfleet : fleetEvents (events ++ new.map .monitor) = fleetEvents events := by
    rw [fleetEvents_append, fleetEvents_map_monitor, List.append_nil]
  have hmem : entry ∈ table := htable ▸ List.mem_of_getElem? hentry
  have hzero := fun hall hok => h.eq_zero_of_unread hall hok hb hentry hstate hread
  refine ⟨by rw [hfleet]; exact h.ingested, ?_, ?_, ?_⟩
  · intro c' b' hb'
    rw [hm] at hb'
    obtain ⟨b₀, hb₀, hprofile', htable', -⟩ := exists_of_evalRowAt hb hentry hstate v hb'
    exact ⟨hprofile'.trans (h.bound c' b₀ hb₀).1, htable'.trans (h.bound c' b₀ hb₀).2⟩
  · intro hall hok c' b' i' entry' hb' hentry' hunread
    obtain ⟨hok, hevent⟩ := halarms.mp hok
    rw [hfleet] at hall hunread
    rw [hm] at hb'
    obtain ⟨b₀, hb₀, -, -, hstates⟩ := exists_of_evalRowAt hb hentry hstate v hb'
    rw [hstates]
    split_ifs with hsame
    · obtain ⟨rfl, rfl⟩ := hsame
      obtain rfl : entry = entry' := Option.some.inj ((htable ▸ hentry).symm.trans hentry')
      obtain ⟨rfl, rfl⟩ := hzero hall hok hunread
      have hnone : (evalEntry entry {} 0).2 = none := by
        by_contra hne
        exact hunread 0 (hevent hne)
      rw [evalEntry_of_not_firesAtZero (not_not.mpr hnone)]
    · exact h.quiet hall hok c' b₀ i' entry' hb₀ hentry' hunread
  · intro hall
    rw [hfleet] at hall
    rw [halarms, heval, ← h.iff hall]
    refine and_congr_right fun hok => ?_
    by_cases hread' : ∃ w, ReadInto entry.deviceAddress w (fleetEvents events)
    · have hv : ReadInto entry.deviceAddress v (fleetEvents events) := by
        obtain ⟨w, hw⟩ := hread'
        exact (h.ingested.read hall (hprofile ▸ hread)).resolve_left fun hz => hz.2 w hw
      exact ⟨fun _ _ => ⟨v, hv⟩, fun _ _ => hv⟩
    · have hunread := not_exists.mp hread'
      obtain ⟨rfl, rfl⟩ := hzero hall hok hunread
      rw [hP entry hmem]
      exact ⟨fun himp hfires => absurd (himp hfires) (hunread 0),
        fun himp hfires => absurd (himp hfires) hread'⟩

/-- Every step of the daemon keeps the relation between the daemon and its events. -/
theorem Watched.step (h : Watched p table P d events) (hp : p.WellFormed)
    (hP : ∀ e ∈ table, P e ↔ e.FiresAtZero) (a : DaemonAction) :
    Watched p table P (daemonStep api d a).1 (events ++ (daemonStep api d a).2) := by
  cases a with
  | fleet a => exact h.fleet api hp a
  | stopMonitor =>
    simp only [daemonStep, List.append_nil]
    exact ⟨h.ingested, h.bound, h.quiet, h.iff⟩
  | monitor nowMs =>
    simp only [daemonStep]
    rcases monitorStep_cases d.monitor nowMs d.fleet.pool with
      ⟨hnew, hctxs⟩ | ⟨c, b, i, entry, state, v, hb, hentry, hstate, hread, hctxs, hnew⟩
    · rw [hnew, List.map_nil, List.append_nil]
      refine ⟨h.ingested, ?_, ?_, h.iff⟩
      · simpa only [hctxs] using h.bound
      · simpa only [hctxs] using h.quiet
    · rw [hnew]
      exact h.row hP hb hentry hstate hread hctxs

theorem mem_upsAlarmRegisterAll {map : UidProfileMap} {ups : List ModuleConfig} {b : AlarmBinding}
    (h : b ∈ upsAlarmRegisterAll map ups) :
    (∃ uid, upsFindProfileByUid map uid = some b.profile) ∧ b.ctx = .start upsAlarmTable := by
  obtain ⟨uid, -, hb⟩ := List.mem_filterMap.mp h
  split at hb
  · cases hb
  · rename_i profile hprofile
    split at hb
    · cases hb
    · obtain rfl := Option.some.inj hb
      exact ⟨⟨uid, hprofile⟩, rfl⟩

theorem Watched.start (P : AlarmEntry → Prop) (created : ℕ → Bool) (conns : ℕ → γ)
    (ups : List ModuleConfig) :
    Watched ups1Profile upsAlarmTable P (Daemon.start created conns ups) [] := by
  have hctx : ∀ (c : ℕ) b, (Daemon.start created conns ups).monitor.ctxs[c]? = some b →
      b.profile = ups1Profile ∧ b.ctx = .start upsAlarmTable := by
    intro c b hb
    have hmem : b ∈ upsAlarmRegisterAll upsUidProfileMap ups := List.mem_of_getElem? hb
    obtain ⟨⟨uid, hprofile⟩, hstart⟩ := mem_upsAlarmRegisterAll hmem
    exact ⟨eq_ups1Profile hprofile, hstart⟩
  refine ⟨?_, fun c b hb => ?_, fun _ _ c b i entry hb hentry _ => ?_, fun _ => ?_⟩
  · exact .start upsUidProfileMap (fun _ _ => eq_ups1Profile) created conns ups
  · obtain ⟨hprofile, hstart⟩ := hctx c b hb
    exact ⟨hprofile, by rw [hstart]; rfl⟩
  · have hi := (List.getElem?_eq_some_iff.mp hentry).1
    rw [(hctx c b hb).2]
    simp [AlarmCtx.start, hi]
  · exact iff_of_true always_nil always_nil

/-- **Alarms and reads.** In every run of the daemon in which no request is answered by an exception
with the code zero, whatever else becomes of the connections and the requests of the units, and
whatever the clock shows: every alarm carries a value that a successful read of its register has
stored in the pool, exactly if no pass evaluates the row of the register `0x0002` or of `0x0004`
before a successful read of the register is stored. No code checks this. -/
theorem alarms_from_reads_iff (created : ℕ → Bool) (conns : ℕ → γ) (ups : List ModuleConfig)
    (actions : List DaemonAction)
    (hanswered : Answered (fleetEvents
      ((daemonMachine api).trace (.start created conns ups) actions))) :
    let events := (daemonMachine api).trace (.start created conns ups) actions
    AlarmsFromReads events ↔ EvaluatedOnceRead
      (fun entry => entry.deviceAddress = 2 ∨ entry.deviceAddress = 4) events := by
  intro events
  have hP : ∀ e ∈ upsAlarmTable,
      (e.deviceAddress = 2 ∨ e.deviceAddress = 4) ↔ e.FiresAtZero := by decide
  exact ((daemonMachine api).trace_invariant (Watched ups1Profile upsAlarmTable _)
    (Watched.start _ created conns ups)
    (fun d events a h => h.step api wellFormed_ups1Profile hP a) actions).iff hanswered

/-- A device whose register `a` has the value `10 * a`: the monitor finds its output voltage too low
when four registers have been stored. -/
theorem alarms_from_reads_iff_device :
    let M := daemonMachine (clientUnitApi deviceNetwork fun _ => Vector.replicate _ 0)
    let start := Daemon.start (fun _ => true)
      (fun _ => (⟨.zero, ⟨.other 0, ⟨fun a => 10 * a, [], [3, 0, 8]⟩⟩⟩, 0))
      [⟨true, 1, "192.168.1.10", 502⟩]
    let events := M.trace start (List.replicate 9 (.fleet (.thread 0)) ++ .monitor 0 ::
      List.replicate 8 (.monitor 5000))
    AlarmsFromReads events ∧ ∃ e, .monitor (.alarm 0 e) ∈ events ∧ e.value = 40 := by
  intro M start events
  let out : List UInt16 := (List.range 22).map fun i => 10 * .ofNat i
  let stores := (readToPoolStores ups1Profile out 0 22).take 5
  let reads : List FleetEvent := .thread 0 (.read 0 22 ⟨0, out⟩) ::
    stores.map fun s => .thread 0 (.stored s)
  let low : AlarmEntry :=
    ⟨0x0004, .range, 0x00B4, 0x00F0, UPS_ERR_OUTPUT_VOLT_HIGH, "output voltage out of range"⟩
  let rows : List MonitorEvent := ((upsAlarmTable.take 5).map fun entry => .evaluated 0 entry) ++
    .alarm 0 ⟨4, low, 40, .trigger⟩ :: (upsAlarmTable.drop 5).map fun entry => .evaluated 0 entry
  have hevents : events = reads.map .fleet ++ rows.map .monitor := by decide +kernel
  have hanswered : Answered (fleetEvents events) := by
    rw [hevents, fleetEvents_append, fleetEvents_map_fleet, fleetEvents_map_monitor,
      List.append_nil]
    intro k start count reply hmem _
    rcases List.mem_cons.mp hmem with heq | hmem
    · cases heq
      decide
    · obtain ⟨s, -, heq⟩ := List.mem_map.mp hmem
      cases heq
  have hread : ∀ a : UInt16, a = 2 ∨ a = 4 → ∃ v, ReadInto a v reads := by
    rintro a (rfl | rfl)
    · exact ⟨20, reads.take 3, _, reads.drop 4, rfl, 0, ⟨2, ⟨0xBB02, by decide⟩, 20⟩, rfl, rfl, rfl,
        0, 22, ⟨0, out⟩, List.mem_cons_self, rfl, 2, by decide, rfl, rfl⟩
    · exact ⟨40, reads.take 5, _, reads.drop 6, rfl, 0, ⟨4, ⟨0xBB04, by decide⟩, 40⟩, rfl, rfl, rfl,
        0, 22, ⟨0, out⟩, List.mem_cons_self, rfl, 4, by decide, rfl, rfl⟩
  refine ⟨(alarms_from_reads_iff _ _ _ _ _ hanswered).mpr ?_, ⟨4, low, 40, .trigger⟩, ?_, rfl⟩
  · change EvaluatedOnceRead _ events
    rw [hevents]
    refine always_append ((always_append_map_fleet [] reads).2.mpr always_nil) ?_
    intro e _ more c entry _ haddr
    obtain ⟨v, hv⟩ := hread _ haddr
    refine ⟨v, ?_⟩
    rw [fleetEvents_append, fleetEvents_map_fleet]
    exact hv.append _
  · rw [hevents]
    simp [rows]

/-- A network on which no connection succeeds. -/
def offlineNetwork : Network Unit where
  recv _ _ := (.error .eagain, ())
  send _ _ := (.error .eagain, ())
  length_recv_le _ n := Nat.zero_le n
  connect _ _ c := (none, c)
  close c := c

/-- A unit that cannot be reached: five seconds after the start its battery is reported low. -/
theorem not_alarmsFromReads_offline :
    let M := daemonMachine (clientUnitApi offlineNetwork fun _ => Vector.replicate _ 0)
    let start := Daemon.start (fun _ => true) (fun _ => (⟨.zero, ⟨.other 0, ()⟩⟩, 0))
      [⟨true, 1, "192.168.1.10", 502⟩]
    ¬ AlarmsFromReads (M.trace start [.fleet (.thread 0), .monitor 0, .monitor 5000,
      .monitor 5000, .monitor 5000, .monitor 5000]) := by
  intro M start h
  let row : AlarmEntry :=
    ⟨0x0002, .range, 0x0014, 0xFFFF, UPS_ERR_BATT_LOW, "battery capacity < 20%"⟩
  have hread := h ((upsAlarmTable.take 3).map fun entry => .monitor (.evaluated 0 entry))
    (.monitor (.alarm 0 ⟨2, row, 0, .trigger⟩)) [] (by decide +kernel) 0 _ rfl
  exact not_sometime_nil hread

end LoopCharger.Alarm

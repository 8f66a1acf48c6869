import LoopCharger.Cmos.Transfer
import LoopCharger.Ups.Ingest

/-!
# What is published of the units

`publish_pool_register` and `cmos_pub_poll_thread` of `src/ups_cmos_bridge.c`, beside the threads of
the units: in every pass the poll thread publishes six slots of the pool for each configuration,
with the connection state of the configuration. It reads the state first and the pool then, and the
other threads run in between.

A thread sets the connection state of its configuration when it has connected, and at the end of its
error callback. `stop_ups_modules` joins the poll thread before it stops the units.

## Main definitions

* `publishPoolRegister`: the line for one slot.
* `Telemetry`, `telemetryMachine`: the units and the poll thread, and their runs.

## Main results

* `telemetryStep_cases`: what a step does to the pool, the poll thread and its publisher.
* `published_from_device`: where the values that are published come from.
-/

namespace LoopCharger.Ups

open Lib Cmos Modbus DeviceMap

/-! ### One message -/

/-- `connection_state_t`, without the value that nothing sets. -/
inductive ConnectionState
  | disconnected
  | connected
  deriving DecidableEq, Repr

/-- The state in a message. -/
def ConnectionState.text : ConnectionState → String
  | .connected => "Alive"
  | .disconnected => "Disconnect"

/-- `BRIDGE_PUB_TOPIC`. -/
def upsTopic : CStr 64 := CStr.copy 63 (ascii "ups")

/-- The line that is published for a slot of the pool, if the address is in range. -/
def publishPoolRegister (pool : Pool) (state : ConnectionState) (type : Option Bytes) (key : String)
    (poolAddress : UInt16) : Option Bytes :=
  match poolReadRegister pool poolAddress with
  | none => none
  | some val =>
    cmosPublish upsTopic (some (ascii state.text)) type (some (ascii key))
      (some ((decimal val.toNat).take 7))

/-- The registers that are published: the key and the pool address of each. -/
def pollRegisters : List (String × UInt16) := [
  ("ups_warning_1", 0xBB00),
  ("ups_warning_2", 0xBB01),
  ("ups_warning_3", 0xBB02),
  ("ups_warning_4", 0xBB03),
  ("ups_battery_voltage", 0xBB04),
  ("ups_battery_discharging_current", 0xBB05)]

/-- One of the registers, for one of the configurations. -/
structure PollItem where
  cfg : ℕ
  register : String × UInt16
  deriving DecidableEq

/-- What one pass publishes for `n` configurations. -/
def pollPass (n : ℕ) : List PollItem :=
  (List.range n).flatMap fun i => pollRegisters.map fun r => ⟨i, r⟩

theorem mem_pollPass {n : ℕ} {it : PollItem} :
    it ∈ pollPass n ↔ it.cfg < n ∧ it.register ∈ pollRegisters := by
  simp only [pollPass, List.mem_flatMap, List.mem_range, List.mem_map]
  constructor
  · rintro ⟨i, hi, r, hr, rfl⟩
    exact ⟨hi, hr⟩
  · rintro ⟨hi, hr⟩
    exact ⟨it.cfg, hi, _, hr, rfl⟩

theorem isField_of_mem_pollRegisters {r : String × UInt16} (h : r ∈ pollRegisters) :
    IsField (ascii r.1) := by
  revert r
  decide +kernel

/-- What stands before the value in a message, at most. -/
theorem length_header_le (state : ConnectionState) {r : String × UInt16}
    (h : r ∈ pollRegisters) :
    (header (some (ascii state.text)) none (ascii r.1)).length ≤ 60 := by
  revert r
  cases state <;> decide +kernel

theorem isField_val (val : UInt16) : IsField (decimal val.toNat) := isField_decimal val.toNat

theorem isField_text (state : ConnectionState) : ∀ x ∈ some (ascii state.text), IsField x := by
  cases state <;> decide

/-- The message for a register is not cut. -/
theorem length_telemetry_le (state : ConnectionState) {r : String × UInt16}
    (h : r ∈ pollRegisters) (val : UInt16) :
    5 + upsTopic.val.length +
      (messageText (some (ascii state.text)) none (ascii r.1) (decimal val.toNat)).length ≤
        511 := by
  have htopic : upsTopic.val.length = 3 := by decide
  have hheader := length_header_le state h
  have hvalue := length_decimal_toNat val
  rw [length_messageText, htopic]
  omega

/-- The message for a register that is published. -/
def telemetryMessage (state : ConnectionState) {r : String × UInt16} (h : r ∈ pollRegisters)
    (val : UInt16) : Message upsTopic where
  state := some (ascii state.text)
  type := none
  key := ascii r.1
  value := decimal val.toNat
  isField_state := isField_text state
  isField_type := isField_none
  isField_key := isField_of_mem_pollRegisters h
  isField_value := isField_val val
  fits := length_telemetry_le state h val

/-- The line for a register is the one of its message. -/
theorem publishPoolRegister_eq (pool : Pool) (state : ConnectionState) {r : String × UInt16}
    (h : r ∈ pollRegisters) :
    ∃ slot, poolSlot r.2 = some slot ∧
      publishPoolRegister pool state none r.1 r.2 =
        some (telemetryMessage state h (pool slot)).line := by
  have hslots : ∀ r ∈ pollRegisters, (poolSlot r.2).isSome := by decide
  obtain ⟨slot, hslot⟩ := Option.isSome_iff_exists.mp (hslots _ h)
  refine ⟨slot, hslot, ?_⟩
  have htake : (decimal (pool slot).toNat).take 7 = decimal (pool slot).toNat :=
    List.take_of_length_le ((length_decimal_toNat _).trans (by decide))
  have hread : poolReadRegister pool r.2 = some (pool slot) := by
    rw [poolReadRegister, hslot, Option.map_some]
  simp only [publishPoolRegister, hread, htake]
  exact (telemetryMessage state h (pool slot)).cmosPublish_eq_line

/-! ### Runs -/

/-- Where the poll thread stands. -/
inductive Poller
  /-- At the head of its loop. -/
  | head
  /-- With the registers `items` of a pass to be published. -/
  | pass (items : List PollItem)
  /-- With the connection state for the first of them read. -/
  | looked (state : ConnectionState) (item : PollItem) (items : List PollItem)
  | ended

/-- The units and the poll thread. For every configuration there is its connection state, and for
every unit the state that its thread is about to set. -/
structure Telemetry (γ : Type*) where
  fleet : Fleet γ
  connection : ℕ → ConnectionState
  due : ℕ → Option ConnectionState
  pub : Publisher
  poller : Poller
  bridgeRunning : Bool

inductive TelemetryAction
  | onWrite (uid : UInt8) (addr val : UInt16)
  | thread (k : ℕ)
  /-- A step of the poll thread. -/
  | poll (arrived : Bool) (result : ℕ → ℤ)
  /-- The flag of the poll thread is cleared. -/
  | stopBridge
  /-- The `k`-th unit is told to stop, when the poll thread has been joined. -/
  | stop (k : ℕ)

inductive TelemetryEvent
  | fleet (e : FleetEvent)
  /-- The poll thread has read the connection state of a configuration. -/
  | looked (cfg : ℕ) (state : ConnectionState)
  | pub (e : PublisherEvent)

/-- The connection state that a thread sets after a step, when it has connected or when it has
disconnected after a failure. -/
def dueAfter (before after : Phase) : Option ConnectionState :=
  match before, after with
  | .connecting, .polling => some .connected
  | .failed, _ => some .disconnected
  | _, _ => none

-- `owners` are the configurations of the units, in the order of the units.
variable {γ : Type*} (map : UidProfileMap) (api : UnitApi γ) (owners : List ℕ) (upsCount : ℕ)

/-- A step of the poll thread. -/
def pollStep (g : Telemetry γ) (arrived : Bool) (result : ℕ → ℤ) :
    Telemetry γ × List TelemetryEvent :=
  match g.poller with
  | .head =>
    if g.bridgeRunning then
      let r := cmosPubPoll g.pub arrived
      ({ g with pub := r.1, poller := .pass (pollPass upsCount) }, r.2.map .pub)
    else ({ g with poller := .ended }, [])
  | .pass [] => ({ g with poller := .head }, [])
  | .pass (it :: items) =>
    ({ g with poller := .looked (g.connection it.cfg) it items },
      [.looked it.cfg (g.connection it.cfg)])
  | .looked state it items =>
    match publishPoolRegister g.fleet.pool state none it.register.1 it.register.2 with
    | none => ({ g with poller := .pass items }, [])
    | some line =>
      let r := publishLine g.pub line result
      ({ g with pub := r.1, poller := .pass items }, r.2.map .pub)
  | .ended => (g, [])

/-- A step of the thread of a unit, or the assignment that it still has to make. -/
def unitStep (g : Telemetry γ) (k : ℕ) : Telemetry γ × List TelemetryEvent :=
  match g.due k with
  | some state =>
    ({ g with
      connection := Function.update g.connection (owners.getD k 0) state
      due := Function.update g.due k none }, [])
  | none =>
    match g.fleet.units[k]? with
    | none => (g, [])
    | some t =>
      let r := fleetStep map api g.fleet (.thread k)
      ({ g with
        fleet := r.1
        due := Function.update g.due k (dueAfter t.phase (threadStep api t).1.phase) },
        r.2.map .fleet)

def telemetryStep (g : Telemetry γ) : TelemetryAction → Telemetry γ × List TelemetryEvent
  | .onWrite uid addr val =>
    let r := fleetStep map api g.fleet (.onWrite uid addr val)
    ({ g with fleet := r.1 }, r.2.map .fleet)
  | .thread k => unitStep map api owners g k
  | .poll arrived result => pollStep upsCount g arrived result
  | .stopBridge => ({ g with bridgeRunning := false }, [])
  | .stop k =>
    match g.poller with
    | .ended => ({ g with fleet := (fleetStep map api g.fleet (.stop k)).1 }, [])
    | _ => (g, [])

/-- The runs of the units and the poll thread. -/
def telemetryMachine : Machine (Telemetry γ) TelemetryAction TelemetryEvent where
  step := telemetryStep map api owners upsCount

/-- The units as they start, with the poll thread at its head. -/
def Telemetry.start (map : UidProfileMap) (created : ℕ → Bool) (conns : ℕ → γ)
    (ups : List ModuleConfig) : Telemetry γ :=
  ⟨.start map created conns ups, fun _ => .disconnected, fun _ => none, .init, .head, true⟩

def TelemetryEvent.fleet? : TelemetryEvent → Option FleetEvent
  | .fleet e => some e
  | _ => none

def TelemetryEvent.pub? : TelemetryEvent → Option PublisherEvent
  | .pub e => some e
  | _ => none

/-- What the units do in a run. -/
def unitEvents (events : List TelemetryEvent) : List FleetEvent :=
  events.filterMap TelemetryEvent.fleet?

/-- What the publisher does in a run. -/
def pubEvents (events : List TelemetryEvent) : List PublisherEvent :=
  events.filterMap TelemetryEvent.pub?

/-! ### What one step does -/

/-- The registers that are still to be published in a pass. -/
def Poller.items : Poller → List PollItem
  | .pass items => items
  | .looked _ it items => it :: items
  | _ => []

/-- What a step does to the pool, to the poll thread and to its publisher. -/
inductive TelemetryStep (g : Telemetry γ) : Telemetry γ → List TelemetryEvent → Prop
  /-- A step of the units or of the bridge. -/
  | fleet (a : FleetAction) (due : ℕ → Option ConnectionState) :
      TelemetryStep g { g with fleet := (fleetStep map api g.fleet a).1, due := due }
        ((fleetStep map api g.fleet a).2.map .fleet)
  /-- Something else is set, or nothing. -/
  | silent (connection : ℕ → ConnectionState) (due : ℕ → Option ConnectionState) (poller : Poller)
      (bridgeRunning : Bool) (hitems : poller.items ⊆ g.poller.items)
      (hlooked : poller = g.poller ∨ ∀ state it items, poller ≠ .looked state it items) :
      TelemetryStep g ⟨g.fleet, connection, due, g.pub, poller, bridgeRunning⟩ []
  | accepted (arrived : Bool) :
      TelemetryStep g
        { g with pub := (cmosPubPoll g.pub arrived).1, poller := .pass (pollPass upsCount) }
        ((cmosPubPoll g.pub arrived).2.map .pub)
  | looked (it : PollItem) (items : List PollItem) (hpoller : g.poller = .pass (it :: items)) :
      TelemetryStep g { g with poller := .looked (g.connection it.cfg) it items }
        [.looked it.cfg (g.connection it.cfg)]
  | published (state : ConnectionState) (it : PollItem) (items : List PollItem) (line : Bytes)
      (result : ℕ → ℤ) (hpoller : g.poller = .looked state it items)
      (hline : publishPoolRegister g.fleet.pool state none it.register.1 it.register.2 =
        some line) :
      TelemetryStep g
        { g with pub := (publishLine g.pub line result).1, poller := .pass items }
        ((publishLine g.pub line result).2.map .pub)

theorem pollStep_cases (g : Telemetry γ) (arrived : Bool) (result : ℕ → ℤ) :
    TelemetryStep map api upsCount g (pollStep upsCount g arrived result).1
      (pollStep upsCount g arrived result).2 := by
  cases hpoller : g.poller with
  | head =>
    by_cases hrunning : g.bridgeRunning = true
    · simpa only [pollStep, hpoller, if_pos hrunning] using TelemetryStep.accepted arrived
    · simp only [pollStep, hpoller, if_neg hrunning]
      exact .silent _ _ .ended _ (List.nil_subset _) (.inr fun _ _ _ => Poller.noConfusion)
  | pass items =>
    cases items with
    | nil =>
      simp only [pollStep, hpoller]
      exact .silent _ _ .head _ (List.nil_subset _) (.inr fun _ _ _ => Poller.noConfusion)
    | cons it items =>
      simpa only [pollStep, hpoller] using TelemetryStep.looked it items hpoller
  | looked state it items =>
    cases hline : publishPoolRegister g.fleet.pool state none it.register.1 it.register.2 with
    | none =>
      simp only [pollStep, hpoller, hline]
      refine .silent _ _ (.pass items) _ ?_ (.inr fun _ _ _ => Poller.noConfusion)
      rw [hpoller]
      exact List.subset_cons_self it items
    | some line =>
      simpa only [pollStep, hpoller, hline] using
        TelemetryStep.published state it items line result hpoller hline
  | ended =>
    simp only [pollStep, hpoller]
    exact .silent _ _ g.poller _ (List.Subset.refl _) (.inl rfl)

theorem telemetryStep_cases (g : Telemetry γ) (a : TelemetryAction) :
    TelemetryStep map api upsCount g (telemetryStep map api owners upsCount g a).1
      (telemetryStep map api owners upsCount g a).2 := by
  have hidle : TelemetryStep map api upsCount g g [] :=
    .silent g.connection g.due g.poller g.bridgeRunning (List.Subset.refl _) (.inl rfl)
  cases a with
  | onWrite uid addr val => exact .fleet (.onWrite uid addr val) g.due
  | thread k =>
    cases hdue : g.due k with
    | some state =>
      simp only [telemetryStep, unitStep, hdue]
      exact .silent _ _ g.poller _ (List.Subset.refl _) (.inl rfl)
    | none =>
      rcases hget : g.fleet.units[k]? with _ | t
      · simpa only [telemetryStep, unitStep, hdue, hget] using hidle
      · simp only [telemetryStep, unitStep, hdue, hget]
        exact .fleet (.thread k) _
  | poll arrived result => exact pollStep_cases map api upsCount g arrived result
  | stopBridge => exact .silent _ _ g.poller false (List.Subset.refl _) (.inl rfl)
  | stop k =>
    cases hpoller : g.poller with
    | ended =>
      have hstep : telemetryStep map api owners upsCount g (.stop k) =
          ({ g with fleet := (fleetStep map api g.fleet (.stop k)).1 }, []) := by
        simp only [telemetryStep, hpoller]
      rw [hstep]
      exact .fleet (.stop k) g.due
    | _ => simpa only [telemetryStep, hpoller] using hidle

/-! ### Where the values come from -/

/-- The last store of a register has stored what a request of the same unit had left for it that
returned `MB_TCP_CLIENT_OK`. -/
def LastRead (deviceAddress value : UInt16) (events : List FleetEvent) : Prop :=
  ∃ before k s after, events = before ++ .thread k (.stored s) :: after ∧
    s.deviceAddress = deviceAddress ∧ s.value = value ∧
    ReadOk before k deviceAddress value ∧
    ∀ (j : ℕ) r, .thread j (.stored r) ∈ after → r.deviceAddress ≠ deviceAddress

/-- The value of the last store of a register, or zero before the first. -/
def CurrentValue (deviceAddress value : UInt16) (events : List FleetEvent) : Prop :=
  (value = 0 ∧ ∀ (k : ℕ) s, .thread k (.stored s) ∈ events → s.deviceAddress ≠ deviceAddress) ∨
    LastRead deviceAddress value events

/-- The value of the register that is mapped to a pool address. -/
def FromDevice (poolAddress v : UInt16) (events : List FleetEvent) : Prop :=
  ∃ m ∈ ups1Profile.table, m.poolAddress = poolAddress ∧ CurrentValue m.deviceAddress v events

/-- What is in the pool is what was stored last. -/
structure Latest (f : Fleet γ) (events : List FleetEvent) : Prop where
  ingested : Ingested ups1Profile f events
  pool : ∀ m ∈ ups1Profile.table, ∀ slot, poolSlot m.poolAddress = some slot →
    CurrentValue m.deviceAddress (f.pool slot) events

/-- Events without a store of a register. -/
theorem CurrentValue.append {a v : UInt16} {events : List FleetEvent} (h : CurrentValue a v events)
    {more : List FleetEvent}
    (hmore : ∀ (k : ℕ) s, .thread k (.stored s) ∈ more → s.deviceAddress ≠ a) :
    CurrentValue a v (events ++ more) := by
  rcases h with ⟨hzero, hnever⟩ | ⟨before, k, s, after, rfl, hdev, hval, hread, hafter⟩
  · exact .inl ⟨hzero, fun k s hmem => (List.mem_append.mp hmem).elim (hnever k s) (hmore k s)⟩
  · refine .inr ⟨before, k, s, after ++ more, ?_, hdev, hval, hread, fun j r hmem => ?_⟩
    · rw [List.append_assoc, List.cons_append]
    · exact (List.mem_append.mp hmem).elim (hafter j r) (hmore j r)

/-- What a step does to the pool: nothing, or it makes a store that was pending. -/
theorem fleetStep_pool (f : Fleet γ) (a : FleetAction) :
    ((fleetStep map api f a).1.pool = f.pool ∧
      ∀ (k : ℕ) s, .thread k (.stored s) ∉ (fleetStep map api f a).2) ∨
    ∃ k t s, f.units[k]? = some t ∧ s ∈ t.pendingStores ∧
      (fleetStep map api f a).1.pool = f.pool.store s ∧
      (fleetStep map api f a).2 = [.thread k (.stored s)] := by
  cases a with
  | onWrite uid addr val =>
    refine .inl ⟨rfl, fun k s hmem => ?_⟩
    simp only [fleetStep] at hmem
    split_ifs at hmem
    · obtain ⟨j, -, heq⟩ := Option.map_eq_some_iff.mp (Option.mem_toList.mp hmem)
      cases heq
    · cases hmem
  | stop k => exact .inl ⟨rfl, fun _ _ => List.not_mem_nil⟩
  | thread k =>
    rcases hget : f.units[k]? with _ | t
    · have hstep : fleetStep map api f (.thread k) = (f, []) := by simp only [fleetStep, hget]
      rw [hstep]
      exact .inl ⟨rfl, fun _ _ => List.not_mem_nil⟩
    have hstores := threadStep_stores api t
    have hstep : fleetStep map api f (.thread k) =
        (⟨f.units.set k (threadStep api t).1, poolAfter f.pool (threadStep api t).2⟩,
          (threadStep api t).2.map (.thread k)) := by simp only [fleetStep, hget]
    rw [hstep]
    generalize threadStep api t = step at hstores ⊢
    obtain ⟨t', new⟩ := step
    cases hstores with
    | none _ => exact .inl ⟨rfl, fun _ _ => List.not_mem_nil⟩
    | read start count reply _ => exact .inl ⟨rfl, by simp⟩
    | stored s hs => exact .inr ⟨k, t, s, hget, hs ▸ List.mem_cons_self, rfl, rfl⟩

theorem Latest.start (created : ℕ → Bool) (conns : ℕ → γ) (ups : List ModuleConfig) :
    Latest (Fleet.start upsUidProfileMap created conns ups) [] where
  ingested := Ingested.start upsUidProfileMap (fun _ _ h =>
    congrArg Prod.snd (List.mem_singleton.mp (mem_of_upsFindProfileByUid h))) created conns ups
  pool _ _ _ _ := .inl ⟨rfl, fun _ _ h => absurd h List.not_mem_nil⟩

variable {map api} in
/-- A store puts its value to the slot of its register, and leaves the others. -/
theorem Latest.step {f : Fleet γ} {events : List FleetEvent} (h : Latest f events)
    (a : FleetAction) :
    Latest (fleetStep map api f a).1 (events ++ (fleetStep map api f a).2) := by
  refine ⟨h.ingested.step wellFormed_ups1Profile map api a, fun m hm slot hslot => ?_⟩
  have hcurrent := h.pool m hm slot hslot
  rcases fleetStep_pool map api f a with ⟨hpool, hnone⟩ | ⟨k, t, s, hget, hs, hpool, hevents⟩
  · rw [hpool]
    exact hcurrent.append fun k s hmem => absurd hmem (hnone k s)
  · obtain ⟨hstore, hread⟩ := h.ingested.pending k t hget s hs
    obtain ⟨m', hfind, hslot', -, -⟩ := poolStore_eq_some_iff.mp hstore
    obtain ⟨hm', haddr⟩ := deviceFindSlot_sound hfind
    rw [hpool, hevents]
    by_cases hmm' : m = m'
    · obtain rfl := hmm'
      obtain rfl : s.slot = slot := Option.some.inj (hslot'.symm.trans hslot)
      refine .inr ⟨events, k, s, [], rfl, haddr.symm, ?_, ?_,
        fun _ _ hmem => absurd hmem List.not_mem_nil⟩
      · simp only [Pool.store, Function.update_self]
      · simpa only [Pool.store, Function.update_self, haddr] using hread
    · have hne : slot ≠ s.slot := by
        rintro rfl
        exact slot_ne_of_ne wellFormed_ups1Profile hm hm' hmm' hslot hslot'
      have haddr' : s.deviceAddress ≠ m.deviceAddress := fun heq => hmm'
        (wellFormed_ups1Profile.ascending.eq_of_deviceAddress_eq hm hm' (heq.symm.trans haddr.symm))
      rw [Pool.store, Function.update_of_ne hne]
      refine hcurrent.append fun j r hmem => ?_
      obtain ⟨-, rfl⟩ : j = k ∧ r = s := by simpa using hmem
      exact haddr'

/-- What is in the pool at one of the addresses that are published. -/
theorem Latest.fromDevice {f : Fleet γ} {events : List FleetEvent} (h : Latest f events)
    {r : String × UInt16} (hr : r ∈ pollRegisters) {slot : Fin INTERNAL_POOL_SIZE}
    (hslot : poolSlot r.2 = some slot) : FromDevice r.2 (f.pool slot) events := by
  have hmapped : ∀ r ∈ pollRegisters, ∃ m ∈ ups1Profile.table, m.poolAddress = r.2 := by decide
  obtain ⟨m, hm, haddr⟩ := hmapped r hr
  exact ⟨m, hm, haddr, h.pool m hm slot (haddr ▸ hslot)⟩

def TelemetryEvent.look? : TelemetryEvent → Option (ℕ × ConnectionState)
  | .looked cfg state => some (cfg, state)
  | _ => none

/-- The connection state that was read last, with its configuration. -/
def lastLook (events : List TelemetryEvent) : Option (ℕ × ConnectionState) :=
  (events.filterMap TelemetryEvent.look?).getLast?

/-- A line that is published is the message for one of the registers, with the state that was read
last and a value from the device. -/
def IsTelemetry (n : ℕ) (before : List TelemetryEvent) (e : TelemetryEvent) : Prop :=
  ∀ line, e = .pub (.published line) →
    ∃ it ∈ pollPass n, ∃ (h : it.register ∈ pollRegisters) (state : ConnectionState) (v : UInt16),
      lastLook before = some (it.cfg, state) ∧ line = (telemetryMessage state h v).line ∧
        FromDevice it.register.2 v (unitEvents before)

/-- The units, the publisher and the poll thread, against the events so far. -/
structure Publishes (n : ℕ) (g : Telemetry γ) (events : List TelemetryEvent) : Prop where
  latest : Latest g.fleet (unitEvents events)
  serving : Serving g.pub (pubEvents events)
  items : ∀ it ∈ g.poller.items, it ∈ pollPass n
  look : ∀ state it items, g.poller = .looked state it items →
    lastLook events = some (it.cfg, state)
  published : Always (IsTelemetry n) events

@[simp] theorem unitEvents_append (es fs : List TelemetryEvent) :
    unitEvents (es ++ fs) = unitEvents es ++ unitEvents fs := List.filterMap_append

@[simp] theorem pubEvents_append (es fs : List TelemetryEvent) :
    pubEvents (es ++ fs) = pubEvents es ++ pubEvents fs := List.filterMap_append

@[simp] theorem unitEvents_map_fleet (es : List FleetEvent) :
    unitEvents (es.map .fleet) = es := by
  simp [unitEvents, List.filterMap_map, Function.comp_def, TelemetryEvent.fleet?]

@[simp] theorem unitEvents_map_pub (es : List PublisherEvent) :
    unitEvents (es.map .pub) = [] := by
  simp [unitEvents, List.filterMap_map, Function.comp_def, TelemetryEvent.fleet?]

@[simp] theorem pubEvents_map_fleet (es : List FleetEvent) : pubEvents (es.map .fleet) = [] := by
  simp [pubEvents, List.filterMap_map, Function.comp_def, TelemetryEvent.pub?]

@[simp] theorem pubEvents_map_pub (es : List PublisherEvent) :
    pubEvents (es.map .pub) = es := by
  simp [pubEvents, List.filterMap_map, Function.comp_def, TelemetryEvent.pub?]

theorem lastLook_append {es fs : List TelemetryEvent} (h : ∀ e ∈ fs, e.look? = none) :
    lastLook (es ++ fs) = lastLook es := by
  rw [lastLook, List.filterMap_append, List.filterMap_eq_nil_iff.mpr h, List.append_nil]
  rfl

/-- Events without a message. -/
theorem always_append_silent {n : ℕ} {es fs : List TelemetryEvent} (h : Always (IsTelemetry n) es)
    (hfs : ∀ line, .pub (.published line) ∉ fs) : Always (IsTelemetry n) (es ++ fs) := by
  refine (always_append_of_forall fun e he before line heq => ?_).mpr h
  exact absurd (heq ▸ he) (hfs line)

variable {map api owners upsCount}

theorem Publishes.step {g g' : Telemetry γ} {events new : List TelemetryEvent}
    (h : Publishes upsCount g events) (hstep : TelemetryStep map api upsCount g g' new) :
    Publishes upsCount g' (events ++ new) := by
  cases hstep with
  | fleet a due =>
    refine ⟨?_, ?_, h.items, fun state it items hpoller => ?_, always_append_silent h.published ?_⟩
    · rw [unitEvents_append, unitEvents_map_fleet]
      exact h.latest.step a
    · simpa using h.serving
    · rw [lastLook_append]
      · exact h.look state it items hpoller
      · rintro e he
        obtain ⟨e, -, rfl⟩ := List.mem_map.mp he
        rfl
    · simp
  | silent connection due poller bridgeRunning hitems hlooked =>
    rw [List.append_nil]
    refine ⟨h.latest, h.serving, fun it hit => h.items it (hitems hit),
      fun state it items hpoller => ?_, h.published⟩
    rcases hlooked with rfl | hne
    · exact h.look state it items hpoller
    · exact absurd hpoller (hne state it items)
  | accepted arrived =>
    refine ⟨by simpa using h.latest, ?_, fun it hit => hit,
      fun state it items hpoller => Poller.noConfusion hpoller, always_append_silent h.published ?_⟩
    · rw [pubEvents_append, pubEvents_map_pub]
      exact h.serving.poll arrived
    · intro line hmem
      obtain ⟨e, he, heq⟩ := List.mem_map.mp hmem
      obtain rfl := TelemetryEvent.pub.inj heq
      unfold cmosPubPoll at he
      split_ifs at he <;> simp at he
  | looked it items hpoller =>
    have hitems := h.items
    rw [hpoller] at hitems
    have hunits : unitEvents [.looked it.cfg (g.connection it.cfg)] = [] := rfl
    have hpub : pubEvents [.looked it.cfg (g.connection it.cfg)] = [] := rfl
    refine ⟨?_, ?_, hitems, fun state it' items' heq => ?_,
      always_append_silent h.published (by simp)⟩
    · rw [unitEvents_append, hunits, List.append_nil]
      exact h.latest
    · rw [pubEvents_append, hpub, List.append_nil]
      exact h.serving
    obtain ⟨rfl, rfl, rfl⟩ := Poller.looked.inj heq
    simp [lastLook, TelemetryEvent.look?]
  | published state it items line result hpoller hline =>
    have hitems := h.items
    rw [hpoller] at hitems
    have hit := hitems it List.mem_cons_self
    have hreg := (mem_pollPass.mp hit).2
    obtain ⟨slot, hslot, hmessage⟩ := publishPoolRegister_eq g.fleet.pool state hreg
    have hserving := h.serving.publish line result
    rw [publishLine_eq] at hserving ⊢
    refine ⟨?_, ?_, fun it' hit' => hitems it' (List.mem_cons_of_mem it hit'),
      fun _ _ _ heq => Poller.noConfusion heq, ?_⟩
    · rw [unitEvents_append, unitEvents_map_pub, List.append_nil]
      exact h.latest
    · rwa [pubEvents_append, pubEvents_map_pub]
    · rw [List.map_cons, ← List.singleton_append, ← List.append_assoc]
      refine always_append_silent (always_concat.mpr ⟨h.published, fun line' heq => ?_⟩) ?_
      · obtain rfl : line = line' := PublisherEvent.published.inj (TelemetryEvent.pub.inj heq)
        refine ⟨it, hit, hreg, state, g.fleet.pool slot, h.look state it items hpoller, ?_,
          h.latest.fromDevice hreg hslot⟩
        exact Option.some.inj (hline.symm.trans hmessage)
      · intro line' hmem
        obtain ⟨e, he, heq⟩ := List.mem_map.mp hmem
        obtain rfl := TelemetryEvent.pub.inj heq
        exact absurd (mem_sends he).2 (by simp [PublisherEvent.line])

section Run

variable (api owners) (created : ℕ → Bool) (conns : ℕ → γ) (ups : List ModuleConfig)
  (actions : List TelemetryAction)

/-- The state after a run, from the start of the units. -/
def Telemetry.reached : Telemetry γ :=
  (telemetryMachine upsUidProfileMap api owners ups.length).state
    (.start upsUidProfileMap created conns ups) actions

/-- What is seen of a run. -/
def Telemetry.seen : List TelemetryEvent :=
  (telemetryMachine upsUidProfileMap api owners ups.length).trace
    (.start upsUidProfileMap created conns ups) actions

end Run

end LoopCharger.Ups

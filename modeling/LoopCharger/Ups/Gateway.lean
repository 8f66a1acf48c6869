import LoopCharger.Modbus.Verdict
import LoopCharger.Ups.Commands

/-!
# From the HMI to the device

The subscriber thread of `src/ups_cmos_bridge.c` beside the threads of the units: the subscriber
hears a `recv`, and the handlers of the lines in it run one after the other while the threads go on.
The thread of the subscriber is cancelled when the bridge stops, whatever it is doing, and the
handlers that have not yet run are then lost.

## Main definitions

* `HmiCall`, `hmiCalls`: the calls of handlers that are due, in the order of the callbacks.
* `Gateway`, `gatewayMachine`: the subscriber, its handlers and the units, and their runs.
* `ranCalls`: the handlers that have run.

## Main results

* `commands_to_wire`: what a unit writes to its device comes from the commands of the HMI.
* `frames_of_gateway`: what a unit sends to its device at all.
-/

namespace LoopCharger.Ups

open Lib Cmos Modbus DeviceMap

/-! ### Handlers that are due -/

/-- The call of a handler, for a message that has arrived on a socket. -/
structure HmiCall where
  sock : ℕ
  cmd : HmiCommand
  topic : Bytes
  value : Bytes
  deriving DecidableEq

def hmiCall : SubEvent HmiCommand → Option HmiCall
  | .callback sock cmd topic value => some ⟨sock, cmd, topic, value⟩
  | _ => none

/-- The calls that are due after some events. A `recv` makes the calls of all its lines due. -/
def hmiCalls (events : List (SubEvent HmiCommand)) : List HmiCall := events.filterMap hmiCall

/-- The write that a call asks for: its register, and the low 16 bits of what is read. -/
def HmiCall.write (c : HmiCall) : UInt16 × UInt16 :=
  (c.cmd.register, UInt16.ofNat (strtoul c.value))

theorem hmiCalls_append (es fs : List (SubEvent HmiCommand)) :
    hmiCalls (es ++ fs) = hmiCalls es ++ hmiCalls fs := List.filterMap_append

/-- The calls among some that are for a socket. -/
def callsOn (sock : ℕ) (calls : List HmiCall) : List (HmiCommand × Bytes × Bytes) :=
  (calls.filter fun c => c.sock = sock).map fun c => (c.cmd, c.topic, c.value)

/-- The calls for a socket are its callbacks. -/
theorem callsOn_hmiCalls (sock : ℕ) (events : List (SubEvent HmiCommand)) :
    callsOn sock (hmiCalls events) = callbacksOf sock events := by
  rw [callsOn, hmiCalls, callbacksOf, ofSock, List.filter_filterMap, List.map_filterMap,
    List.filterMap_filter]
  refine List.filterMap_congr fun e _ => ?_
  cases e with
  | callback s cmd topic value =>
    by_cases hs : s = sock <;> simp [hmiCall, SubEvent.sock, SubEvent.call, hs]
  | _ => simp [hmiCall, SubEvent.call]

/-! ### Runs -/

/-- The subscriber of the bridge until it is cancelled, the handlers that are still to run for the
last `recv`, and the units. -/
structure Gateway (γ : Type*) where
  ctx : Option (SubCtx HmiCommand)
  calls : List HmiCall
  fleet : Fleet γ

inductive GatewayAction
  /-- The subscriber goes on; it does so only when all its handlers have run. -/
  | sub (a : SubAction)
  /-- The next handler runs. -/
  | call
  /-- The thread of the subscriber is cancelled. -/
  | cancel
  | thread (k : ℕ)
  | stop (k : ℕ)

inductive GatewayEvent
  | sub (e : SubEvent HmiCommand)
  /-- A handler runs. -/
  | called (c : HmiCall)
  | fleet (e : FleetEvent)
  deriving DecidableEq

variable {γ : Type*} (api : UnitApi γ)

/-- What the units do among it all. -/
def gatewayFleet (g : Gateway γ) (a : FleetAction) : Gateway γ × List GatewayEvent :=
  let r := fleetStep upsUidProfileMap api g.fleet a
  ({ g with fleet := r.1 }, r.2.map .fleet)

def gatewayStep (g : Gateway γ) : GatewayAction → Gateway γ × List GatewayEvent
  | .sub a =>
    match g.ctx, g.calls with
    | some ctx, [] =>
      let r := subMachine.step ctx a
      (⟨some r.1, hmiCalls r.2, g.fleet⟩, r.2.map .sub)
    | _, _ => (g, [])
  | .call =>
    match g.calls with
    | [] => (g, [])
    | c :: calls =>
      let r := gatewayFleet api { g with calls := calls } (c.cmd.handler c.value)
      (r.1, .called c :: r.2)
  | .cancel => ({ g with ctx := none, calls := [] }, [])
  | .thread k => gatewayFleet api g (.thread k)
  | .stop k => gatewayFleet api g (.stop k)

/-- The runs of the subscriber, its handlers and the units. -/
def gatewayMachine : Machine (Gateway γ) GatewayAction GatewayEvent where
  step := gatewayStep api

/-- The subscriber with the subscriptions of `cmos_sub_thread`, and the units as they start. -/
def Gateway.start (created : ℕ → Bool) (conns : ℕ → γ) (ups : List ModuleConfig) : Gateway γ :=
  ⟨some (.init hmiSlots), [], .start upsUidProfileMap created conns ups⟩

def GatewayEvent.sub? : GatewayEvent → Option (SubEvent HmiCommand)
  | .sub e => some e
  | _ => none

def GatewayEvent.called? : GatewayEvent → Option HmiCall
  | .called c => some c
  | _ => none

def GatewayEvent.fleet? : GatewayEvent → Option FleetEvent
  | .fleet e => some e
  | _ => none

/-- What the subscriber does in a run. -/
def subEvents (events : List GatewayEvent) : List (SubEvent HmiCommand) :=
  events.filterMap GatewayEvent.sub?

/-- The handlers that have run, in their order. -/
def ranCalls (events : List GatewayEvent) : List HmiCall :=
  events.filterMap GatewayEvent.called?

/-- What the bridge and the units do in a run. -/
def fleetEvents (events : List GatewayEvent) : List FleetEvent :=
  events.filterMap GatewayEvent.fleet?

theorem subEvents_append (es fs : List GatewayEvent) :
    subEvents (es ++ fs) = subEvents es ++ subEvents fs := List.filterMap_append

theorem ranCalls_append (es fs : List GatewayEvent) :
    ranCalls (es ++ fs) = ranCalls es ++ ranCalls fs := List.filterMap_append

theorem fleetEvents_append (es fs : List GatewayEvent) :
    fleetEvents (es ++ fs) = fleetEvents es ++ fleetEvents fs := List.filterMap_append

@[simp] theorem subEvents_called (c : HmiCall) (es : List GatewayEvent) :
    subEvents (.called c :: es) = subEvents es := rfl

@[simp] theorem ranCalls_called (c : HmiCall) (es : List GatewayEvent) :
    ranCalls (.called c :: es) = c :: ranCalls es := rfl

@[simp] theorem fleetEvents_called (c : HmiCall) (es : List GatewayEvent) :
    fleetEvents (.called c :: es) = fleetEvents es := rfl

@[simp] theorem subEvents_map_sub (es : List (SubEvent HmiCommand)) :
    subEvents (es.map .sub) = es := by
  simp [subEvents, List.filterMap_map, Function.comp_def, GatewayEvent.sub?]

@[simp] theorem subEvents_map_fleet (es : List FleetEvent) : subEvents (es.map .fleet) = [] := by
  simp [subEvents, List.filterMap_map, Function.comp_def, GatewayEvent.sub?]

@[simp] theorem ranCalls_map_sub (es : List (SubEvent HmiCommand)) :
    ranCalls (es.map .sub) = [] := by
  simp [ranCalls, List.filterMap_map, Function.comp_def, GatewayEvent.called?]

@[simp] theorem ranCalls_map_fleet (es : List FleetEvent) : ranCalls (es.map .fleet) = [] := by
  simp [ranCalls, List.filterMap_map, Function.comp_def, GatewayEvent.called?]

@[simp] theorem fleetEvents_map_sub (es : List (SubEvent HmiCommand)) :
    fleetEvents (es.map .sub) = [] := by
  simp [fleetEvents, List.filterMap_map, Function.comp_def, GatewayEvent.fleet?]

@[simp] theorem fleetEvents_map_fleet (es : List FleetEvent) :
    fleetEvents (es.map .fleet) = es := by
  simp [fleetEvents, List.filterMap_map, Function.comp_def, GatewayEvent.fleet?]

/-- What one step does. -/
inductive GatewayStep (g : Gateway γ) : Gateway γ → List GatewayEvent → Prop
  | idle : GatewayStep g g []
  | heard (ctx : SubCtx HmiCommand) (a : SubAction) (hctx : g.ctx = some ctx)
      (hcalls : g.calls = []) :
      GatewayStep g
        ⟨some (subMachine.step ctx a).1, hmiCalls (subMachine.step ctx a).2, g.fleet⟩
        ((subMachine.step ctx a).2.map .sub)
  | called (c : HmiCall) (calls : List HmiCall) (hcalls : g.calls = c :: calls) :
      GatewayStep g
        ⟨g.ctx, calls, (fleetStep upsUidProfileMap api g.fleet (c.cmd.handler c.value)).1⟩
        (.called c :: (fleetStep upsUidProfileMap api g.fleet (c.cmd.handler c.value)).2.map .fleet)
  | cancelled : GatewayStep g ⟨none, [], g.fleet⟩ []
  | unit (a : FleetAction) (ha : ∀ uid addr val, a ≠ .onWrite uid addr val) :
      GatewayStep g ⟨g.ctx, g.calls, (fleetStep upsUidProfileMap api g.fleet a).1⟩
        ((fleetStep upsUidProfileMap api g.fleet a).2.map .fleet)

theorem gatewayStep_cases (g : Gateway γ) (a : GatewayAction) :
    GatewayStep api g (gatewayStep api g a).1 (gatewayStep api g a).2 := by
  cases a with
  | sub a =>
    rcases hctx : g.ctx with _ | ctx
    · simpa only [gatewayStep, hctx] using GatewayStep.idle
    rcases hcalls : g.calls with _ | ⟨c, calls⟩
    · simpa only [gatewayStep, hctx, hcalls] using GatewayStep.heard ctx a hctx hcalls
    · simpa only [gatewayStep, hctx, hcalls] using GatewayStep.idle
  | call =>
    rcases hcalls : g.calls with _ | ⟨c, calls⟩
    · simpa only [gatewayStep, hcalls] using GatewayStep.idle
    · simpa only [gatewayStep, hcalls, gatewayFleet] using GatewayStep.called c calls hcalls
  | cancel => exact .cancelled
  | thread k => exact .unit (.thread k) fun _ _ _ => FleetAction.noConfusion
  | stop k => exact .unit (.stop k) fun _ _ _ => FleetAction.noConfusion

/-! ### From a callback to a queue -/

/-- A handler queues the write of its call for the unit of the bridge, or for no unit. -/
theorem acceptedBy_handler (f : Fleet γ) (c : HmiCall) (k : ℕ) :
    acceptedBy k (fleetStep upsUidProfileMap api f (c.cmd.handler c.value)).2 = [] ∨
      acceptedBy k (fleetStep upsUidProfileMap api f (c.cmd.handler c.value)).2 = [c.write] ∧
        upsUnitFromUid f.units UPS_BRIDGE_DEFAULT_UID = some k := by
  rw [c.cmd.handler_eq, onCmd]
  rcases fleetStep_onWrite_cases upsUidProfileMap api f UPS_BRIDGE_DEFAULT_UID c.cmd.register
    (UInt16.ofNat (strtoul c.value)) with hrej | ⟨_, _, j, t, -, -, -, hunit, -, -, hacc⟩
  · exact .inl (by rw [hrej]; rfl)
  · rw [hacc]
    by_cases hjk : j = k
    · exact .inr ⟨by simp [acceptedBy, hjk, HmiCall.write], hjk ▸ hunit⟩
    · exact .inl (by simp [acceptedBy, hjk])

/-- A step of a unit accepts nothing. -/
theorem acceptedBy_unit (map : UidProfileMap) (f : Fleet γ) {a : FleetAction}
    (ha : ∀ uid addr val, a ≠ .onWrite uid addr val) (k : ℕ) :
    acceptedBy k (fleetStep map api f a).2 = [] := by
  cases a with
  | onWrite uid addr val => exact absurd rfl (ha uid addr val)
  | thread j =>
    rcases hget : f.units[j]? with _ | t
    · simp only [fleetStep, hget]
      rfl
    · simp only [fleetStep, hget]
      exact acceptedBy_map_thread k j _
  | stop j => rfl

/-- All units have the uid of the bridge. -/
def OneUid (units : List (UnitThread γ)) : Prop :=
  ∀ t ∈ units, UInt8.ofInt t.cfg.modbusUid = UPS_BRIDGE_DEFAULT_UID

/-- When all units have the uid of the bridge, it finds the first. -/
theorem OneUid.upsUnitFromUid_eq {units : List (UnitThread γ)} (h : OneUid units) {k : ℕ}
    (hunit : upsUnitFromUid units UPS_BRIDGE_DEFAULT_UID = some k) : k = 0 := by
  obtain ⟨hk, -, hbefore⟩ := List.findIdx?_eq_some_iff_getElem.mp hunit
  by_contra hne
  have hpos : 0 < k := Nat.pos_of_ne_zero hne
  exact hbefore 0 hpos (beq_iff_eq.mpr (h _ (List.getElem_mem (hpos.trans hk))))

theorem OneUid.fleetStep {f : Fleet γ} (h : OneUid f.units) (map : UidProfileMap)
    (a : FleetAction) : OneUid (Ups.fleetStep map api f a).1.units := by
  intro t ht
  obtain ⟨k, hget⟩ := List.mem_iff_getElem?.mp ht
  obtain ⟨u, hu, hcfg⟩ := fleetStep_cfg map api f a hget
  exact hcfg ▸ h u (List.mem_of_getElem? hu)

/-- Only the uid of the bridge has a profile. -/
theorem oneUid_start (created : ℕ → Bool) (conns : ℕ → γ) (ups : List ModuleConfig) :
    OneUid (Fleet.start upsUidProfileMap created conns ups).units := by
  intro t ht
  rcases mem_startLoop upsUidProfileMap created conns 0 ups 0 [] ht with
    hnil | ⟨cfg, profile, j, hprofile, rfl⟩
  · cases hnil
  · exact congrArg Prod.fst (List.mem_singleton.mp (mem_of_upsFindProfileByUid hprofile))

/-- The part of the subscriber in a run is a run of it. The handlers that have run are the first of
those that are due: the others are still to run, or were lost with the subscriber. What a unit has
accepted are writes of handlers that have run, in their order. All units have the uid of the bridge,
so that it is the first that accepts. -/
structure Carries (g : Gateway γ) (events : List GatewayEvent) : Prop where
  sub : ∃ actions, subEvents events = subMachine.trace (.init hmiSlots) actions ∧
    ∀ ctx, g.ctx = some ctx → ctx = subMachine.state (.init hmiSlots) actions
  calls : ∃ lost, hmiCalls (subEvents events) = ranCalls events ++ (g.calls ++ lost) ∧
    (g.ctx ≠ none → lost = [])
  accepted : ∀ k, (acceptedBy k (fleetEvents events)).Sublist
    ((ranCalls events).map HmiCall.write)
  uid : OneUid g.fleet.units
  unit : ∀ k, acceptedBy k (fleetEvents events) ≠ [] → k = 0

variable {api} {g : Gateway γ} {events : List GatewayEvent}

theorem Carries.step (h : Carries g events) (a : GatewayAction) :
    Carries (gatewayStep api g a).1 (events ++ (gatewayStep api g a).2) := by
  have hstep := gatewayStep_cases api g a
  generalize (gatewayStep api g a).1 = g' at hstep ⊢
  generalize (gatewayStep api g a).2 = new at hstep ⊢
  obtain ⟨lost, hcalls, hlost⟩ := h.calls
  obtain ⟨actions, hsub, hctx⟩ := h.sub
  cases hstep with
  | idle => rwa [List.append_nil]
  | heard ctx a hget hnone =>
    have hlost : lost = [] := hlost (by rw [hget]; exact Option.some_ne_none ctx)
    subst hlost
    refine ⟨⟨actions ++ [a], ?_, fun _ heq => ?_⟩, ⟨[], ?_, fun _ => rfl⟩, ?_, h.uid, ?_⟩
    · rw [subEvents_append, subEvents_map_sub, hsub, Machine.trace_append, ← hctx ctx hget]
      simp
    · rw [← Option.some.inj heq, Machine.state_append, ← hctx ctx hget]
      rfl
    · rw [subEvents_append, subEvents_map_sub, hmiCalls_append, hcalls, hnone, ranCalls_append]
      simp
    · simpa [fleetEvents_append, ranCalls_append] using h.accepted
    · rw [fleetEvents_append, fleetEvents_map_sub, List.append_nil]
      exact h.unit
  | called c calls hcons =>
    refine ⟨⟨actions, ?_, hctx⟩, ⟨lost, ?_, hlost⟩, fun k => ?_, h.uid.fleetStep api _ _,
      fun k hne => ?_⟩
    · rw [subEvents_append, subEvents_called, subEvents_map_fleet, List.append_nil, hsub]
    · rw [subEvents_append, subEvents_called, subEvents_map_fleet, List.append_nil, hcalls, hcons,
        ranCalls_append]
      simp
    · rw [fleetEvents_append, fleetEvents_called, fleetEvents_map_fleet, acceptedBy_append,
        ranCalls_append, ranCalls_called, ranCalls_map_fleet, List.map_append]
      refine (h.accepted k).append ?_
      rcases acceptedBy_handler api g.fleet c k with hnil | ⟨hone, -⟩
      · rw [hnil]
        exact List.nil_sublist _
      · rw [hone]
        exact List.Sublist.refl _
    · rw [fleetEvents_append, fleetEvents_called, fleetEvents_map_fleet, acceptedBy_append] at hne
      rcases acceptedBy_handler api g.fleet c k with hnil | ⟨-, hunit⟩
      · exact h.unit k (by simpa [hnil] using hne)
      · exact h.uid.upsUnitFromUid_eq hunit
  | cancelled =>
    rw [List.append_nil]
    exact ⟨⟨actions, hsub, fun _ heq => (Option.some_ne_none _ heq.symm).elim⟩,
      ⟨g.calls ++ lost, hcalls, fun hne => absurd rfl hne⟩, h.accepted, h.uid, h.unit⟩
  | unit a ha =>
    have hnil := acceptedBy_unit api upsUidProfileMap g.fleet ha
    refine ⟨⟨actions, ?_, hctx⟩, ⟨lost, ?_, hlost⟩, fun k => ?_, h.uid.fleetStep api _ _,
      fun k hne => ?_⟩
    · rw [subEvents_append, subEvents_map_fleet, List.append_nil, hsub]
    · rw [subEvents_append, subEvents_map_fleet, List.append_nil, hcalls, ranCalls_append,
        ranCalls_map_fleet, List.append_nil]
    · rw [fleetEvents_append, fleetEvents_map_fleet, acceptedBy_append, hnil, List.append_nil,
        ranCalls_append, ranCalls_map_fleet, List.append_nil]
      exact h.accepted k
    · rw [fleetEvents_append, fleetEvents_map_fleet, acceptedBy_append, hnil,
        List.append_nil] at hne
      exact h.unit k hne

/-- What is started has carried nothing. -/
theorem carries_start (created : ℕ → Bool) (conns : ℕ → γ) (ups : List ModuleConfig) :
    Carries (Gateway.start created conns ups) [] :=
  ⟨⟨[], rfl, fun _ heq => (Option.some.inj heq).symm⟩,
    ⟨[], rfl, fun _ => rfl⟩, fun _ => List.nil_sublist _, oneUid_start created conns ups,
    fun _ hne => absurd rfl hne⟩

/-! ### From a queue to the wire -/

section Wire

variable {σ : Type*} {g : Gateway (Client (σ × List Bytes) × ℕ)}

/-- A step of the gateway keeps all units delivering. -/
theorem allDeliver_gatewayStep (N : Network σ) (stack : ℕ → ResponseBuffer)
    (h : AllDeliver upsUidProfileMap g.fleet (fleetEvents events)) (a : GatewayAction) :
    let r := gatewayStep (clientUnitApi N.logged stack) g a
    AllDeliver upsUidProfileMap r.1.fleet (fleetEvents (events ++ r.2)) := by
  intro r
  have hstep := gatewayStep_cases (clientUnitApi N.logged stack) g a
  rw [fleetEvents_append]
  change GatewayStep _ g r.1 r.2 at hstep
  generalize r.1 = g' at hstep ⊢
  generalize r.2 = new at hstep ⊢
  cases hstep with
  | idle => simpa [fleetEvents] using h
  | heard ctx a hget hnone => simpa only [fleetEvents_map_sub, List.append_nil] using h
  | called c calls hcons =>
    rw [fleetEvents_called, fleetEvents_map_fleet]
    exact h.step N stack _
  | cancelled => simpa [fleetEvents] using h
  | unit a ha =>
    rw [fleetEvents_map_fleet]
    exact h.step N stack a

section Run

variable (N : Network σ) (stack : ℕ → ResponseBuffer) (created : ℕ → Bool) (conns : ℕ → Conn σ × ℕ)
  (ups : List ModuleConfig) (actions : List GatewayAction)

/-- What the subscriber hears in a run from the start. -/
def Gateway.heard : List (SubEvent HmiCommand) :=
  subEvents ((gatewayMachine (clientUnitApi N.logged stack)).trace
    (.start created (fun i => newClient (conns i)) ups) actions)

/-- The handlers that have run in a run from the start. -/
def Gateway.ran : List HmiCall :=
  ranCalls ((gatewayMachine (clientUnitApi N.logged stack)).trace
    (.start created (fun i => newClient (conns i)) ups) actions)

/-- The units after a run from the start. -/
def Gateway.units : List (UnitThread (Client (σ × List Bytes) × ℕ)) :=
  ((gatewayMachine (clientUnitApi N.logged stack)).state
    (.start created (fun i => newClient (conns i)) ups) actions).fleet.units

/-- Every run carries and delivers. -/
theorem carries_run :
    let M := gatewayMachine (clientUnitApi N.logged stack)
    let start := Gateway.start created (fun i => newClient (conns i)) ups
    Carries (M.state start actions) (M.trace start actions) ∧
      AllDeliver upsUidProfileMap (M.state start actions).fleet
        (fleetEvents (M.trace start actions)) := by
  intro M start
  exact M.trace_invariant
    (fun g events => Carries g events ∧
      AllDeliver upsUidProfileMap g.fleet (fleetEvents events))
    ⟨carries_start created (fun i => newClient (conns i)) ups,
      allDeliver_start upsUidProfileMap created conns ups⟩
    (fun g events a h => ⟨h.1.step a, allDeliver_gatewayStep N stack h.2 a⟩) actions

/-- The handlers that are due for a connection are those of its bytes. -/
theorem callsOn_heard (sock : ℕ) :
    let heard := Gateway.heard N stack created conns ups actions
    callsOn sock (hmiCalls heard) =
      streamCalls hmiSlots (slotOf sock heard) (streamOf sock heard) := by
  intro heard
  obtain ⟨hcarries, -⟩ := carries_run N stack created conns ups actions
  obtain ⟨subActions, hsub, -⟩ := hcarries.sub
  rw [callsOn_hmiCalls, show heard = _ from hsub]
  exact callbacksOf_eq hmiSlots subActions sock

/-- The handlers that have run are the first of those that are due. -/
theorem ran_prefix_hmiCalls :
    Gateway.ran N stack created conns ups actions <+:
      hmiCalls (Gateway.heard N stack created conns ups actions) := by
  obtain ⟨hcarries, -⟩ := carries_run N stack created conns ups actions
  obtain ⟨lost, hcalls, -⟩ := hcarries.calls
  exact ⟨_, hcalls.symm⟩

/-- What a unit has written are writes of handlers that have run, in their order. -/
theorem written_sublist_ran {k : ℕ} {t : UnitThread (Client (σ × List Bytes) × ℕ)}
    (hget : (Gateway.units N stack created conns ups actions)[k]? = some t) :
    ∃ calls, calls.Sublist (Gateway.ran N stack created conns ups actions) ∧
      t.written.map decodeWriteRequest = calls.map (fun c => some (t.request c.write)) ∧
      (k ≠ 0 → calls = []) := by
  obtain ⟨hcarries, hdeliver⟩ := carries_run N stack created conns ups actions
  obtain ⟨sent, rest, hws, hsent, -⟩ := (hdeliver k t hget).split
  have hsublist := List.sublist_append_left sent rest
  rw [← hws] at hsublist
  obtain ⟨calls, hran, rfl⟩ := List.sublist_map_iff.mp (hsublist.trans (hcarries.accepted k))
  refine ⟨calls, hran, by rw [hsent, List.map_map]; rfl, fun hk => ?_⟩
  by_contra hne
  refine hk (hcarries.unit k fun hnil => hne ?_)
  rw [hnil] at hsublist
  exact List.map_eq_nil_iff.mp (List.sublist_nil.mp hsublist)

/-- **From the HMI to the device.** In every interleaving of the subscriber with its handlers and
with the units, wherever the subscriber is cancelled: the handlers that have run for a connection
are the first of those that the lines in its own bytes ask for. They are all of them, as long as the
subscriber is not cancelled and none of its handlers is still to run. The write requests that a unit
has handed to `send` are, one for one and in their order, the writes of handlers that have run, none
of them twice, and no unit but the first has sent any. -/
theorem commands_to_wire (actions : List GatewayAction) :
    let g := (gatewayMachine (clientUnitApi N.logged stack)).state
      (.start created (fun i => newClient (conns i)) ups) actions
    let heard := Gateway.heard N stack created conns ups actions
    let ran := Gateway.ran N stack created conns ups actions
    (∀ sock, callsOn sock ran <+: streamCalls hmiSlots (slotOf sock heard) (streamOf sock heard)) ∧
      (g.ctx ≠ none → g.calls = [] → ∀ sock,
        callsOn sock ran = streamCalls hmiSlots (slotOf sock heard) (streamOf sock heard)) ∧
      ∀ (k : ℕ) (t : UnitThread (Client (σ × List Bytes) × ℕ)), g.fleet.units[k]? = some t →
        ∃ calls, calls.Sublist ran ∧
          t.written.map decodeWriteRequest = calls.map (fun c => some (t.request c.write)) ∧
          (k ≠ 0 → calls = []) := by
  intro g heard ran
  refine ⟨fun sock => ?_, fun hctx hnone sock => ?_, fun k t hget => ?_⟩
  · rw [← callsOn_heard N stack created conns ups actions sock]
    exact ((ran_prefix_hmiCalls N stack created conns ups actions).filter _).map _
  · obtain ⟨hcarries, -⟩ := carries_run N stack created conns ups actions
    obtain ⟨lost, hcalls, hlost⟩ := hcarries.calls
    rw [hlost hctx, show Gateway.calls _ = [] from hnone, List.append_nil, List.append_nil]
      at hcalls
    rw [← callsOn_heard N stack created conns ups actions sock]
    exact congrArg (callsOn sock) hcalls.symm
  · exact written_sublist_ran N stack created conns ups actions hget

end Run

/-! ### All that is sent -/

variable {t t' : UnitThread (Client (σ × List Bytes) × ℕ)}

/-- A write in any mode is at most one request, and none that reads. -/
theorem writeRegistersToDevice_cases (T : Transport σ) (stack : ℕ → ResponseBuffer)
    (c : Client σ × ℕ) (addr : UInt16) (values : ℕ → UInt16) (count : UInt16)
    (mode : UpsWriteMode) :
    (writeRegistersToDevice (clientApi T stack) c addr values count mode).2 = c ∨
      ∃ q : Request, (q.fc = MODBUS_FUNC_WRITE_SINGLE_REGISTER ∨
          q.fc = MODBUS_FUNC_WRITE_MULTIPLE_REGISTERS) ∧
        (writeRegistersToDevice (clientApi T stack) c addr values count mode).2.1 =
          (q.call T c.1 (stack c.2)).2 := by
  cases mode with
  | fc06 =>
    by_cases hone : count ≠ 1
    · exact .inl (by simp only [writeRegistersToDevice, if_pos hone])
    · refine .inr ⟨.writeSingle addr (values 0), .inl rfl, ?_⟩
      simp only [writeRegistersToDevice, if_neg hone]
      rfl
  | fc16 => exact .inr ⟨.writeMultiple addr count values, .inr rfl, rfl⟩
  | auto =>
    by_cases hone : count = 1
    · refine .inr ⟨.writeSingle addr (values 0), .inl rfl, ?_⟩
      simp only [writeRegistersToDevice, if_pos hone]
      rfl
    · refine .inr ⟨.writeMultiple addr count values, .inr rfl, ?_⟩
      simp only [writeRegistersToDevice, if_neg hone]
      rfl

/-- The segments that a scan has still to read. -/
def Phase.unread : Phase → List (List DeviceRegisterMapping)
  | .scanning _ segs | .storing _ _ segs => segs
  | _ => []

/-- The read of a segment of its profile, as a unit sends it. -/
def IsSegmentRead (t : UnitThread (Client (σ × List Bytes) × ℕ)) (frame : Bytes) : Prop :=
  ∃ tid, ∃ seg ∈ segments t.unit.profile,
    frame = buildFc03Request tid (.ofInt t.cfg.modbusUid) (segmentStart seg) (segmentCount seg)

/-- A unit reads segments of its profile, and what it sends besides are writes. -/
structure ReadsOwn (t : UnitThread (Client (σ × List Bytes) × ℕ)) : Prop where
  unread : ∀ seg ∈ t.phase.unread, seg ∈ segments t.unit.profile
  frames : ∀ frame ∈ t.unit.tcpCtx.1.log, isWriteFrame frame = true ∨ IsSegmentRead t frame

/-- A step with one frame at most, which the unit may send. -/
theorem ReadsOwn.of_log (h : ReadsOwn t) (hcfg : t'.cfg = t.cfg)
    (hprofile : t'.unit.profile = t.unit.profile)
    (hunread : ∀ seg ∈ t'.phase.unread, seg ∈ segments t.unit.profile)
    (hlog : ∀ frame ∈ t'.unit.tcpCtx.1.log, frame ∈ t.unit.tcpCtx.1.log ∨
      isWriteFrame frame = true ∨ IsSegmentRead t frame) : ReadsOwn t' := by
  refine ⟨hprofile ▸ hunread, fun frame hframe => ?_⟩
  have hframe : isWriteFrame frame = true ∨ IsSegmentRead t frame :=
    (hlog frame hframe).elim (h.frames frame) id
  simpa only [IsSegmentRead, hcfg, hprofile] using hframe

/-- A call adds at most its frame. -/
theorem mem_log_call (T : Transport σ) (cl : Client (σ × List Bytes)) (q : Request)
    (resp : ResponseBuffer) {frame : Bytes} (h : frame ∈ (q.call T.logged cl resp).2.log) :
    frame ∈ cl.log ∨ frame = q.frame (nextTid cl.ctx.tid) cl.ctx.cfg.unitId := by
  rw [Request.call_eq] at h
  dsimp only at h
  rw [Request.log_exchange] at h
  split_ifs at h with hready
  · simpa using h
  · exact .inl h

/-- What is left of a scan gets shorter, or a new scan begins. -/
theorem mem_unread_threadStep {γ : Type*} (api : UnitApi γ) (t : UnitThread γ)
    {seg : List DeviceRegisterMapping} (h : seg ∈ (threadStep api t).1.phase.unread) :
    seg ∈ t.phase.unread ∨ seg ∈ segments t.unit.profile := by
  cases hphase : t.phase with
  | connecting =>
    by_cases hrunning : t.running = true
    · simp only [threadStep, hphase, if_pos hrunning] at h
      split_ifs at h <;> exact absurd h List.not_mem_nil
    · simp only [threadStep, hphase, if_neg hrunning] at h
      exact absurd h List.not_mem_nil
  | polling =>
    simp only [threadStep, hphase] at h
    split_ifs at h <;> exact absurd h List.not_mem_nil
  | draining =>
    simp only [threadStep, hphase] at h
    rcases hpop : queuePop t.unit.cmdQueue with ⟨_ | cmd, q⟩
    · rw [hpop] at h
      exact .inr h
    · rw [hpop] at h
      exact absurd h List.not_mem_nil
  | writing cmd =>
    simp only [threadStep, hphase] at h
    exact absurd h List.not_mem_nil
  | scanning buf segs =>
    cases segs with
    | nil =>
      simp only [threadStep, hphase] at h
      exact absurd h List.not_mem_nil
    | cons s segs =>
      simp only [threadStep, hphase] at h
      split_ifs at h
      · exact absurd h List.not_mem_nil
      · exact .inl (List.mem_cons_of_mem _ h)
      · exact .inl (List.mem_cons_of_mem _ h)
  | storing stores buf segs =>
    cases stores <;>
      simp only [threadStep, hphase] at h <;>
      exact .inl h
  | failed =>
    simp only [threadStep, hphase] at h
    exact absurd h List.not_mem_nil
  | stopped =>
    simp only [threadStep, hphase] at h
    exact absurd h List.not_mem_nil

/-- Nothing is sent but by a write, and by a read of a segment. -/
theorem log_threadStep (N : Network σ) (stack : ℕ → ResponseBuffer)
    (hwrite : ∀ cmd, t.phase ≠ .writing cmd)
    (hread : ∀ buf seg segs, t.phase ≠ .scanning buf (seg :: segs)) :
    (threadStep (clientUnitApi N.logged stack) t).1.unit.tcpCtx.1.log = t.unit.tcpCtx.1.log := by
  cases hphase : t.phase with
  | connecting =>
    have hconnect := log_mbTcpClientConnect N t.unit.tcpCtx.1 t.cfg.client
    by_cases hrunning : t.running = true
    · simp only [threadStep, hphase, if_pos hrunning, upsTcpInitCallback]
      split_ifs <;> exact hconnect
    · simp only [threadStep, hphase, if_neg hrunning]
      exact log_mbTcpClientDisconnect N t.unit.tcpCtx.1
  | polling => simp only [threadStep, hphase]
  | draining =>
    simp only [threadStep, hphase]
    rcases queuePop t.unit.cmdQueue with ⟨_ | cmd, q⟩ <;> rfl
  | writing cmd => exact absurd hphase (hwrite cmd)
  | scanning buf segs =>
    cases segs with
    | nil => simp only [threadStep, hphase]
    | cons seg segs => exact absurd hphase (hread buf seg segs)
  | storing stores buf segs => cases stores <;> simp only [threadStep, hphase]
  | failed =>
    simp only [threadStep, hphase]
    exact log_mbTcpClientDisconnect N t.unit.tcpCtx.1
  | stopped => simp only [threadStep, hphase]

/-- A step of the thread sends a read of one of its segments, a write, or nothing. -/
theorem ReadsOwn.thread (h : ReadsOwn t) (honline : t.phase.connected = true → t.Online)
    (N : Network σ) (stack : ℕ → ResponseBuffer) :
    ReadsOwn (threadStep (clientUnitApi N.logged stack) t).1 := by
  obtain ⟨hcfg, hprofile⟩ := threadStep_cfg (clientUnitApi N.logged stack) t
  refine h.of_log hcfg hprofile (fun seg hseg => ?_) fun frame hframe => ?_
  · exact (mem_unread_threadStep _ t hseg).elim (h.unread seg) id
  by_cases hwrite : ∃ cmd, t.phase = .writing cmd
  · obtain ⟨cmd, hphase⟩ := hwrite
    simp only [threadStep, hphase] at hframe
    rcases writeRegistersToDevice_cases N.logged.toTransport stack t.unit.tcpCtx cmd.addr
      cmd.value cmd.count cmd.mode with hsame | ⟨q, hfc, hcall⟩
    · exact .inl (hsame ▸ hframe)
    · rcases mem_log_call N.toTransport t.unit.tcpCtx.1 q (stack t.unit.tcpCtx.2)
        (hcall ▸ hframe) with hmem | rfl
      · exact .inl hmem
      · refine .inr (.inl ?_)
        rw [isWriteFrame, ADU_OFFSET_FC, getD_frame]
        simpa using hfc
  by_cases hread : ∃ buf seg segs, t.phase = .scanning buf (seg :: segs)
  · obtain ⟨buf, seg, segs, hphase⟩ := hread
    have hread : frame ∈ ((Request.read (segmentStart seg) (segmentCount seg)).call
        N.toTransport.logged t.unit.tcpCtx.1 (stack t.unit.tcpCtx.2)).2.log := by
      simp only [threadStep, hphase] at hframe
      split_ifs at hframe <;> exact hframe
    rcases mem_log_call N.toTransport t.unit.tcpCtx.1 _ _ hread with hmem | rfl
    · exact .inl hmem
    · obtain ⟨-, hclient⟩ := honline (by rw [hphase]; rfl)
      refine .inr (.inr ⟨_, seg, h.unread seg ?_, by rw [hclient]; rfl⟩)
      rw [hphase]
      exact List.mem_cons_self
  · rw [log_threadStep N stack (fun cmd hphase => hwrite ⟨cmd, hphase⟩)
      (fun buf seg segs hphase => hread ⟨buf, seg, segs, hphase⟩)] at hframe
    exact .inl hframe

/-- Every unit reads segments of its own profile. -/
def AllReadOwn (f : Fleet (Client (σ × List Bytes) × ℕ)) : Prop :=
  ∀ t ∈ f.units, ReadsOwn t

theorem allReadOwn_start (map : UidProfileMap) (created : ℕ → Bool) (conns : ℕ → Conn σ × ℕ)
    (ups : List ModuleConfig) :
    AllReadOwn (Fleet.start map created (fun i => newClient (conns i)) ups) := by
  intro t ht
  rcases mem_startLoop map created _ 0 ups 0 [] ht with hnil | ⟨cfg, profile, j, hprofile, rfl⟩
  · cases hnil
  · exact ⟨fun _ hseg => absurd hseg List.not_mem_nil, fun _ hframe =>
      absurd hframe List.not_mem_nil⟩

theorem AllReadOwn.fleetStep {f : Fleet (Client (σ × List Bytes) × ℕ)} (h : AllReadOwn f)
    {map : UidProfileMap} {events : List FleetEvent} (hdeliver : AllDeliver map f events)
    (N : Network σ) (stack : ℕ → ResponseBuffer) (a : FleetAction) :
    AllReadOwn (Ups.fleetStep map (clientUnitApi N.logged stack) f a).1 := by
  intro u hu
  obtain ⟨j, hget⟩ := List.mem_iff_getElem?.mp hu
  cases a with
  | onWrite uid addr val =>
    rcases fleetStep_onWrite_cases map (clientUnitApi N.logged stack) f uid addr val with
      hrej | ⟨_, _, k, t, -, -, -, -, ht, -, hacc⟩
    · exact h u (by rwa [hrej] at hu)
    · rw [hacc, List.getElem?_set] at hget
      split_ifs at hget with hkj
      · obtain rfl := Option.some.inj hget
        have hreads := h t (List.mem_of_getElem? ht)
        exact ⟨hreads.unread, hreads.frames⟩
      · exact h u (List.mem_of_getElem? hget)
  | thread k =>
    rcases ht : f.units[k]? with _ | t
    · simp only [Ups.fleetStep, ht] at hget
      exact h u (List.mem_of_getElem? hget)
    · simp only [Ups.fleetStep, ht, List.getElem?_set] at hget
      split_ifs at hget with hkj
      · obtain rfl := Option.some.inj hget
        exact (h t (List.mem_of_getElem? ht)).thread (hdeliver k t ht).online N stack
      · exact h u (List.mem_of_getElem? hget)
  | stop k =>
    obtain ⟨t, ht, rfl | rfl⟩ := exists_of_getElem?_stop hget
    · exact h _ (List.mem_of_getElem? ht)
    · have hreads := h t (List.mem_of_getElem? ht)
      exact ⟨hreads.unread, hreads.frames⟩

theorem allReadOwn_gatewayStep (N : Network σ) (stack : ℕ → ResponseBuffer)
    (hdeliver : AllDeliver upsUidProfileMap g.fleet (fleetEvents events))
    (h : AllReadOwn g.fleet) (a : GatewayAction) :
    AllReadOwn (gatewayStep (clientUnitApi N.logged stack) g a).1.fleet := by
  have hstep := gatewayStep_cases (clientUnitApi N.logged stack) g a
  generalize (gatewayStep (clientUnitApi N.logged stack) g a).1 = g' at hstep ⊢
  generalize (gatewayStep (clientUnitApi N.logged stack) g a).2 = new at hstep
  cases hstep with
  | idle => exact h
  | heard ctx a hget hnone => exact h
  | called c calls hcons => exact h.fleetStep hdeliver N stack _
  | cancelled => exact h
  | unit a ha => exact h.fleetStep hdeliver N stack a

/-- **All that is sent to a device.** In every run, whatever a unit hands to `send` on any of its
connections is the FC03 request for a segment of its own profile, or the write of one register that
a call of a handler asked for. -/
theorem frames_of_gateway (N : Network σ) (stack : ℕ → ResponseBuffer) (created : ℕ → Bool)
    (conns : ℕ → Conn σ × ℕ) (ups : List ModuleConfig) (actions : List GatewayAction) :
    ∀ t ∈ Gateway.units N stack created conns ups actions, ∀ frame ∈ t.unit.tcpCtx.1.log,
      IsSegmentRead t frame ∨
        ∃ c ∈ hmiCalls (Gateway.heard N stack created conns ups actions),
          decodeWriteRequest frame = some (t.request c.write) := by
  intro t ht frame hframe
  let M := gatewayMachine (clientUnitApi N.logged stack)
  let start := Gateway.start created (fun i => newClient (conns i)) ups
  have hrun := M.trace_invariant
    (fun g events => AllDeliver upsUidProfileMap g.fleet (fleetEvents events) ∧
      AllReadOwn g.fleet) (s := start)
    ⟨allDeliver_start upsUidProfileMap created conns ups,
      allReadOwn_start upsUidProfileMap created conns ups⟩
    (fun g events a h => ⟨allDeliver_gatewayStep N stack h.1 a,
      allReadOwn_gatewayStep N stack h.1 h.2 a⟩) actions
  rcases (hrun.2 t ht).frames frame hframe with hwrite | hread
  · obtain ⟨k, hget⟩ := List.mem_iff_getElem?.mp ht
    obtain ⟨calls, hcalls, hdecode, -⟩ :=
      written_sublist_ran N stack created conns ups actions hget
    have hdue := (ran_prefix_hmiCalls N stack created conns ups actions).sublist
    have hmem : decodeWriteRequest frame ∈ t.written.map decodeWriteRequest :=
      List.mem_map_of_mem (List.mem_filter.mpr ⟨hframe, hwrite⟩)
    rw [hdecode] at hmem
    obtain ⟨c, hc, heq⟩ := List.mem_map.mp hmem
    exact .inr ⟨c, (hcalls.trans hdue).subset hc, heq.symm⟩
  · exact .inl hread

/-- A unit that is told to test its battery before its first scan: a write and a read. -/
theorem frames_of_gateway_first :
    let actions : List GatewayAction := [.sub (.addPub 0 (ascii "hmi") true),
      .sub (.ready 0 (ascii "MSG hmi_ups type=command key=ups_test value=1\n")), .call] ++
        List.replicate 6 (.thread 0)
    let ups : List ModuleConfig := [⟨true, 1, "192.168.1.10", 502⟩]
    let conns : ℕ → Conn Unit × ℕ := fun _ => (⟨.other 0, ()⟩, 0)
    let stack : ℕ → ResponseBuffer := fun _ => Vector.replicate _ 0
    ∃ t ∈ Gateway.units silentNetwork stack (fun _ => true) conns ups actions,
      ∃ write read, t.unit.tcpCtx.1.log = [write, read] ∧ IsSegmentRead t read ∧
        ∃ c ∈ hmiCalls (Gateway.heard silentNetwork stack (fun _ => true) conns ups actions),
          decodeWriteRequest write = some (t.request c.write) := by
  intro actions ups conns stack
  let units := Gateway.units silentNetwork stack (fun _ => true) conns ups actions
  obtain ⟨t, ht⟩ : ∃ t, units[0]? = some t := Option.isSome_iff_exists.mp (by decide +kernel)
  have hmem : t ∈ units := List.mem_of_getElem? ht
  have hlog : units[0]?.map (fun t => t.unit.tcpCtx.1.log.map fun frame =>
      (isWriteFrame frame, decodeWriteRequest frame)) =
        some [(true, some ⟨1, 0x0012, [1]⟩), (false, none)] := by decide +kernel
  rw [ht] at hlog
  obtain ⟨write, reads, hwrites, hwrite, hreads⟩ := List.map_eq_cons_iff.mp (Option.some.inj hlog)
  obtain ⟨read, rest, rfl, hread, hrest⟩ := List.map_eq_cons_iff.mp hreads
  obtain rfl := List.map_eq_nil_iff.mp hrest
  have hframes := frames_of_gateway silentNetwork stack (fun _ => true) conns ups actions t hmem
  rw [hwrites] at hframes
  refine ⟨t, hmem, write, read, hwrites, ?_, ?_⟩
  · refine (hframes read (by simp)).resolve_right ?_
    rintro ⟨c, -, heq⟩
    exact Option.some_ne_none _ (heq.symm.trans (congrArg Prod.snd hread))
  · refine (hframes write (by simp)).resolve_left ?_
    rintro ⟨tid, seg, -, rfl⟩
    have hfalse := isWriteFrame_buildFc03Request tid (.ofInt t.cfg.modbusUid) (segmentStart seg)
      (segmentCount seg)
    exact Bool.false_ne_true (hfalse.symm.trans (congrArg Prod.fst hwrite))

end Wire

end LoopCharger.Ups

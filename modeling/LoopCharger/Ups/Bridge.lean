import LoopCharger.Ups.Map
import LoopCharger.Ups.Thread

/-!
# The units and the write bridge

The units that `start_ups_modules` of `src/ups_module.c` starts, each with its thread, and the
writes that `src/ups_cmos_bridge.c` queues for them. One step is one step of a thread or one
`on_write`, so that a run is an interleaving of the bridge with the threads of all units.

## Main definitions

* `startUpsModules`: the units that are started.
* `upsCmdPush`, `onWrite`: a write, from the uid to the queue of a unit.
* `Fleet`, `fleetMachine`: the units with the shared pool, and their runs.

## Main results

* `written_prefix_accepted`: the write requests of a unit are its accepted writes, in their order,
  each at most once.
-/

namespace LoopCharger.Ups

open Lib Modbus DeviceMap

/-! ### Units -/

section Units

variable {γ : Type*} (map : UidProfileMap)

/-- The loop of `start_ups_modules`, from the `i`-th configuration on: `created` are the outcomes
of `pthread_create`, `conns` the connections of the units before anything is connected. -/
def startLoop (created : ℕ → Bool) (conns : ℕ → γ) :
    ℕ → List ModuleConfig → ℤ → List (UnitThread γ) → ℤ × List (UnitThread γ)
  | _, [], status, units => (status, units)
  | i, cfg :: cfgs, status, units =>
    if !cfg.enabled then startLoop created conns (i + 1) cfgs status units
    else
      match upsFindProfileByUid map (.ofInt cfg.modbusUid) with
      | none => startLoop created conns (i + 1) cfgs (-1) units
      | some profile =>
        if created i then
          startLoop created conns (i + 1) cfgs status
            (units ++ [⟨cfg, ⟨profile, conns i, 0, queueInit⟩, true, .connecting⟩])
        else startLoop created conns (i + 1) cfgs (-1) units

/-- Start the enabled units: the status and the units with their threads. -/
def startUpsModules (created : ℕ → Bool) (conns : ℕ → γ) (ups : List ModuleConfig) :
    ℤ × List (UnitThread γ) :=
  startLoop map created conns 0 ups 0 []

/-- The unit of a uid, as its index. -/
def upsUnitFromUid (units : List (UnitThread γ)) (uid : UInt8) : Option ℕ :=
  units.findIdx? fun t => UInt8.ofInt t.cfg.modbusUid == uid

/-- Queue a write for the unit of a uid: `0` on success, `-1` on failure. -/
def upsCmdPush (units : List (UnitThread γ)) (uid : UInt8) (addr : UInt16) (values : ℕ → UInt16)
    (count : UInt16) (mode : UpsWriteMode) : ℤ × List (UnitThread γ) :=
  if count = 0 ∨ count.toNat > MODBUS_MAX_WRITE_REGISTERS then (-1, units)
  else
    match upsUnitFromUid units uid with
    | none => (-1, units)
    | some k =>
      match units[k]? with
      | none => (-1, units)
      | some t =>
        let r := queuePush t.unit.cmdQueue addr values count mode
        (r.1, units.set k { t with unit := { t.unit with cmdQueue := r.2 } })

/-- Validate and queue the write of one register: `0` on success, `-1` on failure. -/
def onWrite (units : List (UnitThread γ)) (uid : UInt8) (addr val : UInt16) :
    ℤ × List (UnitThread γ) :=
  match upsFindProfileByUid map uid with
  | none => (-1, units)
  | some profile =>
    match deviceFindSlot profile addr with
    | none => (-1, units)
    | some entry =>
      if entry.access = .ro then (-1, units)
      else
        let r := upsCmdPush units uid addr (fun _ => val) 1 .auto
        if r.1 ≠ 0 then (-1, r.2) else (0, r.2)

end Units

/-! ### Runs -/

/-- All units with their threads, and the pool they share. -/
structure Fleet (γ : Type*) where
  units : List (UnitThread γ)
  pool : Pool

inductive FleetAction
  /-- A call of `on_write` by the bridge. -/
  | onWrite (uid : UInt8) (addr val : UInt16)
  /-- A step of the `k`-th thread. -/
  | thread (k : ℕ)
  /-- The `k`-th unit is told to stop. -/
  | stop (k : ℕ)

inductive FleetEvent
  /-- A call of `on_write` has queued a write for the `k`-th unit. -/
  | accepted (k : ℕ) (addr val : UInt16)
  | thread (k : ℕ) (event : ThreadEvent)
  deriving DecidableEq

variable {γ : Type*} (map : UidProfileMap) (api : UnitApi γ)

/-- One step of the bridge or of a thread. -/
def fleetStep (f : Fleet γ) : FleetAction → Fleet γ × List FleetEvent
  | .onWrite uid addr val =>
    let r := onWrite map f.units uid addr val
    ({ f with units := r.2 },
      if r.1 = 0 then ((upsUnitFromUid f.units uid).map fun k => .accepted k addr val).toList
      else [])
  | .thread k =>
    match f.units[k]? with
    | none => (f, [])
    | some t =>
      let r := threadStep api t
      (⟨f.units.set k r.1, poolAfter f.pool r.2⟩, r.2.map (.thread k))
  | .stop k => ({ f with units := f.units.modify k fun t => { t with running := false } }, [])

/-- The runs of the units and the bridge. -/
def fleetMachine : Machine (Fleet γ) FleetAction FleetEvent where
  step := fleetStep map api

/-- The units as they are started, over the pool of `device_register_map_init`. -/
def Fleet.start (created : ℕ → Bool) (conns : ℕ → γ) (ups : List ModuleConfig) : Fleet γ :=
  ⟨(startUpsModules map created conns ups).2, deviceRegisterMapInit⟩

/-! ### What one step does -/

/-- The write of one register, as it waits in a queue. -/
def registerWrite (w : UInt16 × UInt16) : PendingCmd := ⟨w.1, .auto, 1, [w.2]⟩

/-- A unit with the write of a register pushed to its queue. -/
def UnitThread.push (t : UnitThread γ) (addr val : UInt16) : UnitThread γ :=
  { t with unit := { t.unit with
    cmdQueue := (queuePush t.unit.cmdQueue addr (fun _ => val) 1 .auto).2 } }

/-- When one of the units is told to stop, every unit is as it was, or told to stop. -/
theorem exists_of_getElem?_stop {units : List (UnitThread γ)} {k j : ℕ} {u : UnitThread γ}
    (hget : (units.modify k fun t => { t with running := false })[j]? = some u) :
    ∃ t, units[j]? = some t ∧ (u = t ∨ u = { t with running := false }) := by
  rw [List.getElem?_modify] at hget
  obtain ⟨t, ht, rfl⟩ := Option.map_eq_some_iff.mp hget
  refine ⟨t, ht, ?_⟩
  split_ifs
  · exact .inr rfl
  · exact .inl rfl

/-- What a push to a unit does: it queues the write for the unit of the uid, or changes nothing. -/
theorem upsCmdPush_cases (units : List (UnitThread γ)) (uid : UInt8) (addr val : UInt16) :
    (upsCmdPush units uid addr (fun _ => val) 1 .auto = (-1, units)) ∨
      ∃ k t, upsUnitFromUid units uid = some k ∧ units[k]? = some t ∧
        (queuePush t.unit.cmdQueue addr (fun _ => val) 1 .auto).1 = 0 ∧
        upsCmdPush units uid addr (fun _ => val) 1 .auto = (0, units.set k (t.push addr val)) := by
  have hone : ¬ ((1 : UInt16) = 0 ∨ (1 : UInt16).toNat > MODBUS_MAX_WRITE_REGISTERS) := by decide
  simp only [upsCmdPush, hone, if_false]
  rcases upsUnitFromUid units uid with _ | k
  · exact .inl rfl
  rcases hget : units[k]? with _ | t
  · exact .inl (by simp only [hget])
  simp only [hget]
  by_cases hpush : (queuePush t.unit.cmdQueue addr (fun _ => val) 1 .auto).1 = 0
  · exact .inr ⟨k, t, rfl, hget, hpush, by rw [hpush]; rfl⟩
  · obtain ⟨hk, rfl⟩ := List.getElem?_eq_some_iff.mp hget
    rw [queuePush_of_ne_zero _ _ _ _ _ hpush]
    exact .inl (Prod.ext rfl (List.set_getElem_self hk))

/-- What a call of `on_write` does: it queues the write of a register that the profile of the uid
maps and does not protect, or it changes nothing. -/
theorem onWrite_cases (units : List (UnitThread γ)) (uid : UInt8) (addr val : UInt16) :
    onWrite map units uid addr val = (-1, units) ∨
      ∃ profile entry k t,
        upsFindProfileByUid map uid = some profile ∧ deviceFindSlot profile addr = some entry ∧
        entry.access ≠ .ro ∧ upsUnitFromUid units uid = some k ∧ units[k]? = some t ∧
        (queuePush t.unit.cmdQueue addr (fun _ => val) 1 .auto).1 = 0 ∧
        onWrite map units uid addr val = (0, units.set k (t.push addr val)) := by
  unfold onWrite
  rcases upsFindProfileByUid map uid with _ | profile
  · exact .inl rfl
  rcases hentry : deviceFindSlot profile addr with _ | entry
  · exact .inl (by simp only [hentry])
  simp only [hentry]
  by_cases hro : entry.access = .ro
  · exact .inl (if_pos hro)
  rw [if_neg hro]
  rcases upsCmdPush_cases units uid addr val with hpush | ⟨k, t, hunit, hget, hrc, hpush⟩
  · exact .inl (by simp only [hpush]; rfl)
  · exact .inr ⟨profile, entry, k, t, rfl, hentry, hro, hunit, hget, hrc, by
      simp only [hpush]; rfl⟩

/-- What a step of the bridge does: nothing, or it queues the write and is seen. -/
theorem fleetStep_onWrite_cases (f : Fleet γ) (uid : UInt8) (addr val : UInt16) :
    fleetStep map api f (.onWrite uid addr val) = (f, []) ∨
      ∃ profile entry k t,
        upsFindProfileByUid map uid = some profile ∧ deviceFindSlot profile addr = some entry ∧
        entry.access ≠ .ro ∧ upsUnitFromUid f.units uid = some k ∧ f.units[k]? = some t ∧
        (queuePush t.unit.cmdQueue addr (fun _ => val) 1 .auto).1 = 0 ∧
        fleetStep map api f (.onWrite uid addr val) =
          (⟨f.units.set k (t.push addr val), f.pool⟩, [.accepted k addr val]) := by
  rcases onWrite_cases map f.units uid addr val with
    hrej | ⟨profile, entry, k, t, hprofile, hentry, hro, hunit, hget, hrc, hacc⟩
  · have hneg : ¬ (-1 : ℤ) = 0 := by decide
    exact .inl (by simp only [fleetStep, hrej, hneg, if_false])
  · exact .inr ⟨profile, entry, k, t, hprofile, hentry, hro, hunit, hget, hrc, by
      simp only [fleetStep, hacc, hunit, if_true, Option.map_some, Option.toList_some]⟩

/-- A step of the bridge or of a unit changes the configuration of no unit. -/
theorem fleetStep_cfg (f : Fleet γ) (a : FleetAction) {j : ℕ} {u : UnitThread γ}
    (h : (fleetStep map api f a).1.units[j]? = some u) :
    ∃ t, f.units[j]? = some t ∧ u.cfg = t.cfg := by
  cases a with
  | onWrite uid addr val =>
    rcases fleetStep_onWrite_cases map api f uid addr val with
      hrej | ⟨_, _, k, t, -, -, -, -, hget, -, hacc⟩
    · rw [hrej] at h
      exact ⟨u, h, rfl⟩
    · rw [hacc, List.getElem?_set] at h
      split_ifs at h with hkj
      · exact ⟨t, hkj ▸ hget, Option.some.inj h ▸ rfl⟩
      · exact ⟨u, h, rfl⟩
  | thread k =>
    rcases hget : f.units[k]? with _ | t
    · simp only [fleetStep, hget] at h
      exact ⟨u, h, rfl⟩
    · simp only [fleetStep, hget, List.getElem?_set] at h
      split_ifs at h with hkj
      · exact ⟨t, hkj ▸ hget, Option.some.inj h ▸ (threadStep_cfg api t).1⟩
      · exact ⟨u, h, rfl⟩
  | stop k =>
    obtain ⟨t, ht, rfl | rfl⟩ := exists_of_getElem?_stop h
    · exact ⟨_, ht, rfl⟩
    · exact ⟨t, ht, rfl⟩

/-! ### The writes of a unit -/

section Writes

variable {σ : Type*}

/-- The request for the write of a register of the unit. -/
def UnitThread.request (t : UnitThread γ) (w : UInt16 × UInt16) : WriteRequest :=
  ⟨.ofInt t.cfg.modbusUid, w.1, [w.2]⟩

/-- The write requests that a unit has handed to `send`, over all its connections. -/
def UnitThread.written (t : UnitThread (Client (σ × List Bytes) × ℕ)) : List Bytes :=
  t.unit.tcpCtx.1.written

/-- The client of a unit is connected to the unit's device. -/
def UnitThread.Online (t : UnitThread (Client (σ × List Bytes) × ℕ)) : Prop :=
  0 ≤ t.unit.tcpCtx.1.ctx.sock ∧ t.unit.tcpCtx.1.ctx.cfg = t.cfg.client

/-- The profile maps a register and does not protect it. -/
def Writable (profile : DeviceMapProfile) (addr : UInt16) : Prop :=
  ∃ entry, deviceFindSlot profile addr = some entry ∧ entry.access ≠ .ro

/-- A unit that has accepted the writes `ws`: it has sent a first part of them, and the others wait
in their order. -/
structure Delivers (t : UnitThread (Client (σ × List Bytes) × ℕ)) (ws : List (UInt16 × UInt16)) :
    Prop where
  queue : t.unit.cmdQueue.WellFormed
  online : t.phase.connected = true → t.Online
  profile : upsFindProfileByUid map (.ofInt t.cfg.modbusUid) = some t.unit.profile
  writable : ∀ w ∈ ws, Writable t.unit.profile w.1
  split : ∃ sent rest, ws = sent ++ rest ∧
    t.written.map decodeWriteRequest = sent.map (fun w => some (t.request w)) ∧
    t.outstanding = rest.map registerWrite

variable {map} {t t' : UnitThread (Client (σ × List Bytes) × ℕ)} {ws : List (UInt16 × UInt16)}

/-- A step that sends no write and takes none. -/
theorem Delivers.of_eq (h : Delivers map t ws) (hcfg : t'.cfg = t.cfg)
    (hprofile : t'.unit.profile = t.unit.profile) (hqueue : t'.unit.cmdQueue.WellFormed)
    (honline : t'.phase.connected = true → t'.Online) (hwritten : t'.written = t.written)
    (hout : t'.outstanding = t.outstanding) : Delivers map t' ws := by
  refine ⟨hqueue, honline, by rw [hcfg, hprofile, h.profile], hprofile ▸ h.writable, ?_⟩
  simpa only [hwritten, hout, UnitThread.request, hcfg] using h.split

/-- A write that is accepted waits behind the others. -/
theorem Delivers.push (h : Delivers map t ws) {addr val : UInt16}
    (hwritable : Writable t.unit.profile addr)
    (hpush : (queuePush t.unit.cmdQueue addr (fun _ => val) 1 .auto).1 = 0) :
    Delivers map (t.push addr val) (ws ++ [(addr, val)]) := by
  obtain ⟨sent, rest, hws, hsent, hrest⟩ := h.split
  refine ⟨h.queue.push _ _ _ _, h.online, h.profile, ?_, sent, rest ++ [(addr, val)], ?_, hsent, ?_⟩
  · intro w hw
    rcases List.mem_append.mp hw with hw | hw
    · exact h.writable w hw
    · rw [List.mem_singleton.mp hw]
      exact hwritable
  · rw [hws, List.append_assoc]
  · have hpending := h.queue.push_pending hpush
    rw [List.map_append, ← hrest]
    simp only [UnitThread.outstanding, UnitThread.push, hpending]
    cases t.phase <;> rfl

/-- The command in hand is sent as the write request of its register. -/
theorem Delivers.write (h : Delivers map t ws) (N : Network σ) (stack : ℕ → ResponseBuffer)
    {cmd : UpsWriteCmd} (hphase : t.phase = .writing cmd) :
    Delivers map (threadStep (clientUnitApi N.logged stack) t).1 ws := by
  obtain ⟨sent, rest, hws, hsent, hrest⟩ := h.split
  obtain ⟨hsock, hcfg⟩ := h.online (by rw [hphase]; rfl)
  simp only [UnitThread.outstanding, hphase] at hrest
  obtain ⟨w, rest, rfl⟩ : ∃ w rest', rest = w :: rest' := by
    cases rest with
    | nil => cases hrest
    | cons w rest => exact ⟨w, rest, rfl⟩
  obtain ⟨hcmd, hpending⟩ := List.cons.inj hrest
  obtain ⟨haddr, hmode, hcount, hvalues⟩ := PendingCmd.mk.inj hcmd
  have hvalue : cmd.value 0 = w.2 := by
    rw [hcount] at hvalues
    have hget := congrArg (fun l => l.getD 0 0) hvalues
    simpa [UpsWriteCmd.value, List.getD_eq_getElem?_getD] using hget
  have hstep : (threadStep (clientUnitApi N.logged stack) t).1 = { t with
      unit := { t.unit with
        tcpCtx := (((Request.writeSingle w.1 w.2).call N.logged.toTransport t.unit.tcpCtx.1
          (stack t.unit.tcpCtx.2)).2, t.unit.tcpCtx.2 + 1) }
      phase := .draining } := by
    simp only [threadStep, hphase, writeRegistersToDevice, hmode, hcount, if_true, haddr, hvalue]
    rfl
  have hctx := Request.ctx_call N.logged.toTransport t.unit.tcpCtx.1 (.writeSingle w.1 w.2)
    (stack t.unit.tcpCtx.2)
  rw [hstep]
  refine ⟨h.queue, fun _ => ⟨hctx.1 ▸ hsock, hctx.2.trans hcfg⟩, h.profile, h.writable,
    sent ++ [w], rest, by rw [hws, List.append_assoc]; rfl, ?_, hpending⟩
  have hwritten := written_writeSingle N.toTransport hsock w.1 w.2 (stack t.unit.tcpCtx.2)
  simp only [UnitThread.written] at hsent ⊢
  rw [show N.logged.toTransport = N.toTransport.logged from rfl, hwritten, List.map_append, hsent,
    List.map_append, List.map_singleton, decodeWriteRequest_buildFc06Request, hcfg]
  rfl

/-- A step of the thread of a unit sends the next of the accepted writes, or none. -/
theorem Delivers.thread (h : Delivers map t ws) (N : Network σ) (stack : ℕ → ResponseBuffer) :
    Delivers map (threadStep (clientUnitApi N.logged stack) t).1 ws := by
  obtain ⟨hcfg, hprofile⟩ := threadStep_cfg (clientUnitApi N.logged stack) t
  obtain ⟨hqueue, hout⟩ := threadStep_queue (clientUnitApi N.logged stack) h.queue
  rcases threadStep_conn (clientUnitApi N.logged stack) t with
    ⟨cmd, hphase⟩ | ⟨hphase, hconn⟩
  · exact h.write N stack hphase
  replace hout := hout hphase
  generalize (threadStep (clientUnitApi N.logged stack) t).1 = t' at *
  cases hconn with
  | same htcp hc =>
    refine h.of_eq hcfg hprofile hqueue (fun hc' => ?_) (by rw [UnitThread.written, htcp]; rfl) hout
    simpa only [UnitThread.Online, htcp, hcfg] using h.online (hc hc')
  | connect htcp hc =>
    refine h.of_eq hcfg hprofile hqueue (fun hc' => ?_) ?_ hout
    · rw [UnitThread.Online, htcp, hcfg]
      exact mbTcpClientConnect_of_eq_zero N.logged (hc hc')
    · rw [UnitThread.written, htcp]
      exact congrArg (List.filter isWriteFrame) (log_mbTcpClientConnect N t.unit.tcpCtx.1 _)
  | disconnect htcp hc =>
    refine h.of_eq hcfg hprofile hqueue (fun hc' => ?_) ?_ hout
    · rw [hc] at hc'
      cases hc'
    · rw [UnitThread.written, htcp]
      exact congrArg (List.filter isWriteFrame) (log_mbTcpClientDisconnect N t.unit.tcpCtx.1)
  | read addr qty htcp hc =>
    have hctx := Request.ctx_call N.logged.toTransport t.unit.tcpCtx.1 (.read addr qty)
      (stack t.unit.tcpCtx.2)
    refine h.of_eq hcfg hprofile hqueue (fun _ => ?_) ?_ hout
    · obtain ⟨hsock, honline⟩ := h.online hc
      rw [UnitThread.Online, htcp, hcfg]
      exact ⟨hctx.1 ▸ hsock, hctx.2.trans honline⟩
    · rw [UnitThread.written, htcp]
      exact written_read N.toTransport t.unit.tcpCtx.1 addr qty (stack t.unit.tcpCtx.2)

/-- The writes accepted for a unit, in their order. -/
def acceptedBy (k : ℕ) (events : List FleetEvent) : List (UInt16 × UInt16) :=
  events.filterMap fun
    | .accepted j addr val => if j = k then some (addr, val) else none
    | .thread _ _ => none

@[simp] theorem acceptedBy_append (k : ℕ) (es fs : List FleetEvent) :
    acceptedBy k (es ++ fs) = acceptedBy k es ++ acceptedBy k fs := List.filterMap_append

theorem acceptedBy_map_thread (k j : ℕ) (events : List ThreadEvent) :
    acceptedBy k (events.map (.thread j)) = [] := by
  simp [acceptedBy, List.filterMap_map]

/-- A client before its unit is connected, with a counter for its calls. -/
def newClient (c : Conn σ × ℕ) : Client (σ × List Bytes) × ℕ :=
  (⟨.zero, ⟨c.1.errno, c.1.net, []⟩⟩, c.2)

/-- What is started: enabled units with a profile, before their first step. -/
theorem mem_startLoop (map : UidProfileMap) (created : ℕ → Bool) (conns : ℕ → γ) (i : ℕ)
    (cfgs : List ModuleConfig) (status : ℤ) (units : List (UnitThread γ)) {t : UnitThread γ}
    (h : t ∈ (startLoop map created conns i cfgs status units).2) :
    t ∈ units ∨ ∃ cfg profile j,
      upsFindProfileByUid map (.ofInt cfg.modbusUid) = some profile ∧
        t = ⟨cfg, ⟨profile, conns j, 0, queueInit⟩, true, .connecting⟩ := by
  induction cfgs generalizing i status units with
  | nil => exact .inl h
  | cons cfg cfgs ih =>
    unfold startLoop at h
    split at h
    · exact ih _ _ _ h
    split at h
    · exact ih _ _ _ h
    · rename_i profile hprofile
      split at h
      · rcases ih _ _ _ h with hmem | hnew
        · rcases List.mem_append.mp hmem with hmem | hlast
          · exact .inl hmem
          · exact .inr ⟨cfg, profile, i, hprofile, List.mem_singleton.mp hlast⟩
        · exact .inr hnew
      · exact ih _ _ _ h

/-- The units of a fleet deliver the writes accepted so far. -/
def AllDeliver (map : UidProfileMap) (f : Fleet (Client (σ × List Bytes) × ℕ))
    (events : List FleetEvent) : Prop :=
  ∀ k t, f.units[k]? = some t → Delivers map t (acceptedBy k events)

theorem allDeliver_start (map : UidProfileMap) (created : ℕ → Bool) (conns : ℕ → Conn σ × ℕ)
    (ups : List ModuleConfig) :
    AllDeliver map (Fleet.start map created (fun i => newClient (conns i)) ups) [] := by
  intro k t hget
  rcases mem_startLoop map created _ 0 ups 0 [] (List.mem_of_getElem? hget) with
    hnil | ⟨cfg, profile, j, hprofile, rfl⟩
  · cases hnil
  · exact ⟨wellFormed_queueInit, fun hc => (Bool.false_ne_true hc).elim, hprofile,
      fun _ hw => absurd hw List.not_mem_nil, [], [], rfl, rfl, rfl⟩

/-- One unit is replaced, and it accounts for what is new. -/
theorem AllDeliver.set {f : Fleet (Client (σ × List Bytes) × ℕ)} {events new : List FleetEvent}
    (h : AllDeliver map f events) (k : ℕ) {u : UnitThread (Client (σ × List Bytes) × ℕ)}
    (pool : Pool)
    (hu : Delivers map u (acceptedBy k (events ++ new)))
    (hothers : ∀ j, k ≠ j → acceptedBy j new = []) :
    AllDeliver map ⟨f.units.set k u, pool⟩ (events ++ new) := by
  intro j t hget
  rw [List.getElem?_set] at hget
  split_ifs at hget with hkj hk
  · obtain rfl := hkj
    exact Option.some.inj hget ▸ hu
  · rw [acceptedBy_append, hothers j hkj, List.append_nil]
    exact h j t hget

/-- A step of the bridge or of a thread keeps all units delivering. -/
theorem AllDeliver.step {f : Fleet (Client (σ × List Bytes) × ℕ)} {events : List FleetEvent}
    (h : AllDeliver map f events) (N : Network σ) (stack : ℕ → ResponseBuffer) (a : FleetAction) :
    let r := fleetStep map (clientUnitApi N.logged stack) f a
    AllDeliver map r.1 (events ++ r.2) := by
  intro r
  cases a with
  | onWrite uid addr val =>
    simp only [r]
    rcases fleetStep_onWrite_cases map (clientUnitApi N.logged stack) f uid addr val with
      hrej | ⟨profile, entry, k, t, hprofile, hentry, haccess, hunit, hget, hpush, hacc⟩
    · simpa only [hrej, List.append_nil] using h
    · have ht := h k t hget
      have huid : UInt8.ofInt t.cfg.modbusUid = uid := by
        obtain ⟨hk, hp, -⟩ := List.findIdx?_eq_some_iff_getElem.mp hunit
        obtain ⟨hk', rfl⟩ := List.getElem?_eq_some_iff.mp hget
        exact beq_iff_eq.mp hp
      obtain rfl : t.unit.profile = profile :=
        Option.some.inj (ht.profile.symm.trans (huid ▸ hprofile))
      simp only [hacc]
      refine h.set k f.pool ?_ fun j hkj => ?_
      · have hk : acceptedBy k [.accepted k addr val] = [(addr, val)] := by simp [acceptedBy]
        rw [acceptedBy_append, hk]
        exact ht.push ⟨entry, hentry, haccess⟩ hpush
      · simp [acceptedBy, hkj]
  | thread k =>
    rcases hget : f.units[k]? with _ | t
    · simpa only [r, fleetStep, hget, List.append_nil] using h
    · simp only [r, fleetStep, hget]
      refine h.set k _ ?_ fun j _ => acceptedBy_map_thread j k _
      rw [acceptedBy_append, acceptedBy_map_thread, List.append_nil]
      exact (h k t hget).thread N stack
  | stop k =>
    simp only [r, fleetStep, List.append_nil]
    intro j t hget
    obtain ⟨u, hu, rfl | rfl⟩ := exists_of_getElem?_stop hget
    · exact h j t hu
    · have hdel := h j u hu
      exact ⟨hdel.queue, hdel.online, hdel.profile, hdel.writable, hdel.split⟩

/-- **The writes of a unit.** In every interleaving of the bridge with the threads, over any number
of connections and whatever becomes of the requests: the write requests that a unit has handed to
`send` are, one for one, the first of the writes accepted for it. Every one of these is for a
register that the profile of the unit maps and does not protect. -/
theorem written_prefix_accepted (map : UidProfileMap) (N : Network σ) (stack : ℕ → ResponseBuffer)
    (created : ℕ → Bool) (conns : ℕ → Conn σ × ℕ) (ups : List ModuleConfig)
    (actions : List FleetAction) {k : ℕ} {t : UnitThread (Client (σ × List Bytes) × ℕ)} :
    let M := fleetMachine map (clientUnitApi N.logged stack)
    let start := Fleet.start map created (fun i => newClient (conns i)) ups
    let accepted := acceptedBy k (M.trace start actions)
    (M.state start actions).units[k]? = some t →
      t.written.map decodeWriteRequest <+:
          accepted.map (fun w => some ⟨.ofInt t.cfg.modbusUid, w.1, [w.2]⟩) ∧
        upsFindProfileByUid map (.ofInt t.cfg.modbusUid) = some t.unit.profile ∧
        ∀ w ∈ accepted,
          (∃ m ∈ t.unit.profile.table, m.deviceAddress = w.1 ∧ m.access ≠ .ro) ∧
            (t.unit.profile.Ascending →
              ∀ m ∈ t.unit.profile.table, m.deviceAddress = w.1 → m.access ≠ .ro) := by
  intro M start accepted hget
  have hrun := M.trace_invariant (AllDeliver map) (allDeliver_start map created conns ups)
    (fun f events a h => h.step N stack a) actions
  have ht := hrun k t hget
  obtain ⟨sent, rest, hws, hsent, -⟩ := ht.split
  refine ⟨?_, ht.profile, fun w hw => ?_⟩
  · have hws : accepted = sent ++ rest := hws
    rw [hsent, hws, List.map_append]
    exact List.prefix_append _ _
  · obtain ⟨entry, hentry, haccess⟩ := ht.writable w hw
    obtain ⟨hmem, haddr⟩ := deviceFindSlot_sound hentry
    refine ⟨⟨entry, hmem, haddr, haccess⟩, fun hasc m hm hmaddr => ?_⟩
    rwa [hasc.eq_of_deviceAddress_eq hm hmem (hmaddr.trans haddr.symm)]

/-- A network on which every connection succeeds and every request is taken, and nothing is ever
received. -/
def silentNetwork : Network Unit where
  recv _ _ := (.error .eagain, ())
  send _ frame := (.sent frame.length, ())
  length_recv_le _ n := Nat.zero_le n
  connect _ _ c := (some 3, c)
  close c := c

/-- Two accepted writes and one that is refused, when the unit has got to the first. -/
theorem written_prefix_accepted_first :
    let profile : DeviceMapProfile :=
      ⟨"UPS", [⟨5, 0, .ro, ""⟩, ⟨18, 1, .rw, ""⟩, ⟨19, 2, .rw, ""⟩], 50⟩
    let M := fleetMachine [(1, profile)]
      (clientUnitApi silentNetwork.logged fun _ => Vector.replicate _ 0)
    let start := Fleet.start [(1, profile)] (fun _ => true)
      (fun _ => newClient (⟨.other 0, ()⟩, 0)) [⟨true, 1, "192.168.1.10", 502⟩]
    let actions : List FleetAction := [.onWrite 1 18 7, .onWrite 1 5 8, .onWrite 1 19 9,
      .thread 0, .thread 0, .thread 0, .thread 0]
    acceptedBy 0 (M.trace start actions) = [(18, 7), (19, 9)] ∧
      ∃ t, (M.state start actions).units[0]? = some t ∧ t.written.length = 1 ∧
        t.written.map decodeWriteRequest <+: (acceptedBy 0 (M.trace start actions)).map
          fun w => some ⟨.ofInt t.cfg.modbusUid, w.1, [w.2]⟩ := by
  intro profile M start actions
  obtain ⟨t, ht⟩ : ∃ t, (M.state start actions).units[0]? = some t :=
    Option.isSome_iff_exists.mp (by decide +kernel)
  have hlen : (M.state start actions).units[0]?.map (fun t => t.written.length) = some 1 := by
    decide +kernel
  rw [ht] at hlen
  exact ⟨by decide +kernel, t, ht, Option.some.inj hlen,
    (written_prefix_accepted [(1, profile)] silentNetwork (fun _ => Vector.replicate _ 0)
      (fun _ => true) (fun _ => (⟨.other 0, ()⟩, 0)) [⟨true, 1, "192.168.1.10", 502⟩] actions ht).1⟩

end Writes

end LoopCharger.Ups

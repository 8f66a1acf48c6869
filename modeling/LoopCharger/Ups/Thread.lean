import Mathlib.Logic.Relation
import LoopCharger.Modbus.Connect
import LoopCharger.Ups.Scan

/-!
# The polling thread of a unit

`ups_tcp_thread` of `src/ups_module.c`, cut into the steps between which other threads run: a pop of
the queue, a write, an FC03 request, the store of one register, a connection attempt. The thread
itself never reads the pool, so that a step is one of the unit, and what it stores is part of its
events.

## Main definitions

* `UnitApi`, `clientUnitApi`: the calls of a thread on its connection, and the ones of the client.
* `UnitThread`, `Phase`: a thread, and where it stands.
* `threadStep`: one step.

## Main results

* `leads_callback`: a thread that is not interrupted runs `ups_tcp_process_callback`.
-/

namespace LoopCharger.Ups

open Modbus DeviceMap

/-! ### The thread -/

/-- `module_config_t`: the fields that the modules read. -/
structure ModuleConfig where
  enabled : Bool
  modbusUid : ℤ
  ip : String
  port : ℤ
  deriving DecidableEq, Repr

/-- The calls of a thread on a connection of the type `γ`. -/
structure UnitApi (γ : Type*) extends ModbusApi γ where
  connect : MbTcpClientConfig → γ → ℤ × γ
  disconnect : γ → γ

/-- The calls of the client, see `clientApi`. -/
def clientUnitApi {σ : Type*} (N : Network σ) (stack : ℕ → ResponseBuffer) :
    UnitApi (Client σ × ℕ) where
  toModbusApi := clientApi N.toTransport stack
  connect cfg c :=
    let r := mbTcpClientConnect N c.1 cfg
    (r.1, r.2, c.2)
  disconnect c := (mbTcpClientDisconnect N c.1, c.2)

/-- Where a thread stands between two steps. -/
inductive Phase
  /-- At the head of the outer loop. -/
  | connecting
  /-- At the head of the inner loop. -/
  | polling
  /-- In the process callback, about to pop the queue. -/
  | draining
  /-- With a command popped and not yet written. -/
  | writing (cmd : UpsWriteCmd)
  /-- With the segments `segs` to be read, and the read buffer. -/
  | scanning (buf : List UInt16) (segs : List (List DeviceRegisterMapping))
  /-- With the registers `stores` of the last segment to be stored. -/
  | storing (stores : List PoolStore) (buf : List UInt16)
      (segs : List (List DeviceRegisterMapping))
  /-- The process callback has failed. -/
  | failed
  | stopped

/-- A started unit and its thread; `running` is the flag that stops it. -/
structure UnitThread (γ : Type*) where
  cfg : ModuleConfig
  unit : UpsUnit γ
  running : Bool
  phase : Phase

/-- What a thread does that others can see. -/
inductive ThreadEvent
  /-- An FC03 request and its outcome. -/
  | read (start count : UInt16) (reply : Reply)
  /-- A register stored in the pool. -/
  | stored (s : PoolStore)
  deriving DecidableEq

/-- The client configuration of a module. -/
def ModuleConfig.client (cfg : ModuleConfig) : MbTcpClientConfig where
  remoteHost := cfg.ip
  port := if cfg.port > 0 then .ofInt cfg.port else 502
  unitId := .ofInt cfg.modbusUid

variable {γ : Type*} (api : UnitApi γ)

/-- Connect to the device: `0` on success, `-1` on failure. -/
def upsTcpInitCallback (cfg : ModuleConfig) (u : UpsUnit γ) : ℤ × UpsUnit γ :=
  let r := api.connect cfg.client u.tcpCtx
  if r.1 ≠ 0 then (-1, { u with tcpCtx := r.2 })
  else (0, { u with tcpCtx := r.2, commFailCount := 0 })

/-- Disconnect after a failure. -/
def upsTcpErrorCallback (u : UpsUnit γ) : UpsUnit γ :=
  { u with tcpCtx := api.disconnect u.tcpCtx, commFailCount := 0 }

/-- One step of `ups_tcp_thread`. -/
def threadStep (t : UnitThread γ) : UnitThread γ × List ThreadEvent :=
  match t.phase with
  | .connecting =>
    if t.running then
      let r := upsTcpInitCallback api t.cfg t.unit
      ({ t with unit := r.2, phase := if r.1 ≠ 0 then .connecting else .polling }, [])
    else
      ({ t with
        unit := { t.unit with tcpCtx := api.disconnect t.unit.tcpCtx }
        phase := .stopped }, [])
  | .polling => ({ t with phase := if t.running then .draining else .connecting }, [])
  | .draining =>
    match queuePop t.unit.cmdQueue with
    | (some cmd, q) => ({ t with unit := { t.unit with cmdQueue := q }, phase := .writing cmd }, [])
    | (none, q) =>
      ({ t with
        unit := { t.unit with cmdQueue := q }
        phase := .scanning (List.replicate MODBUS_MAX_READ_REGISTERS 0)
          (segments t.unit.profile) }, [])
  | .writing cmd =>
    let r := writeRegistersToDevice api.toModbusApi t.unit.tcpCtx cmd.addr cmd.value cmd.count
      cmd.mode
    ({ t with unit := { t.unit with tcpCtx := r.2 }, phase := .draining }, [])
  | .scanning _ [] => ({ t with phase := .polling }, [])
  | .scanning buf (seg :: segs) =>
    let r := api.readHoldingRegisters t.unit.tcpCtx (segmentStart seg) (segmentCount seg)
    let buf := r.1.out ++ buf.drop r.1.out.length
    let event : ThreadEvent := .read (segmentStart seg) (segmentCount seg) r.1
    if r.1.rc ≠ MB_TCP_CLIENT_OK then
      let commFailCount := t.unit.commFailCount + 1
      ({ t with
        unit := { t.unit with tcpCtx := r.2, commFailCount }
        phase := if commFailCount ≥ UPS_COMM_FAIL_THRESHOLD then .failed
          else .scanning buf segs }, [event])
    else
      ({ t with
        unit := { t.unit with tcpCtx := r.2, commFailCount := 0 }
        phase := .storing (readToPoolStores t.unit.profile buf (segmentStart seg)
          (segmentCount seg).toNat) buf segs }, [event])
  | .storing [] buf segs => ({ t with phase := .scanning buf segs }, [])
  | .storing (s :: stores) buf segs => ({ t with phase := .storing stores buf segs }, [.stored s])
  | .failed => ({ t with unit := upsTcpErrorCallback api t.unit, phase := .connecting }, [])
  | .stopped => (t, [])

/-- The pool after the stores among some events. -/
def poolAfter (pool : Pool) (events : List ThreadEvent) : Pool :=
  events.foldl (fun pool event => match event with
    | .stored s => pool.store s
    | .read _ _ _ => pool) pool

/-! ### What one step does -/

/-- The thread is past its connection attempt. -/
def Phase.connected : Phase → Bool
  | .connecting | .stopped => false
  | _ => true

/-- The writes that a unit has accepted and not yet sent. -/
def UnitThread.outstanding (t : UnitThread γ) : List PendingCmd :=
  match t.phase with
  | .writing cmd => cmd.pending :: t.unit.cmdQueue.pending
  | _ => t.unit.cmdQueue.pending

/-- A step changes neither the configuration nor the profile of a unit. -/
theorem threadStep_cfg (t : UnitThread γ) :
    (threadStep api t).1.cfg = t.cfg ∧ (threadStep api t).1.unit.profile = t.unit.profile := by
  unfold threadStep upsTcpInitCallback
  split
  case h_3 => split <;> exact ⟨rfl, rfl⟩
  case h_6 => dsimp only; split_ifs <;> exact ⟨rfl, rfl⟩
  case h_1 => dsimp only; split_ifs <;> exact ⟨rfl, rfl⟩
  all_goals exact ⟨rfl, rfl⟩

theorem threadStep_running (t : UnitThread γ) :
    (threadStep api t).1.running = t.running := by
  unfold threadStep upsTcpInitCallback
  split
  case h_3 => split <;> rfl
  case h_6 => dsimp only; split_ifs <;> rfl
  case h_1 => dsimp only; split_ifs <;> rfl
  all_goals rfl

/-- What a step that writes nothing does to the connection of a unit. -/
inductive ConnStep (t t' : UnitThread γ) : Prop
  | same (h : t'.unit.tcpCtx = t.unit.tcpCtx)
      (hc : t'.phase.connected = true → t.phase.connected = true)
  | connect (h : t'.unit.tcpCtx = (api.connect t.cfg.client t.unit.tcpCtx).2)
      (hc : t'.phase.connected = true → (api.connect t.cfg.client t.unit.tcpCtx).1 = 0)
  | disconnect (h : t'.unit.tcpCtx = api.disconnect t.unit.tcpCtx)
      (hc : t'.phase.connected = false)
  | read (addr qty : UInt16)
      (h : t'.unit.tcpCtx = (api.readHoldingRegisters t.unit.tcpCtx addr qty).2)
      (hc : t.phase.connected = true)

theorem threadStep_conn (t : UnitThread γ) :
    (∃ cmd, t.phase = .writing cmd) ∨
      (∀ cmd, t.phase ≠ .writing cmd) ∧ ConnStep api t (threadStep api t).1 := by
  cases hphase : t.phase with
  | writing cmd => exact .inl ⟨cmd, rfl⟩
  | connecting =>
    refine .inr ⟨fun _ h => Phase.noConfusion h, ?_⟩
    by_cases hrunning : t.running = true
    · simp only [threadStep, hphase, hrunning, if_true, upsTcpInitCallback]
      by_cases hrc : (api.connect t.cfg.client t.unit.tcpCtx).1 = 0
      · refine .connect ?_ fun _ => hrc
        simp only [hrc, ne_eq, not_true_eq_false, if_false]
      · refine .connect ?_ fun hc => ?_
        · simp only [hrc, ne_eq, not_false_eq_true, if_true]
        · simp only [hrc, ne_eq, not_false_eq_true, if_true] at hc
          cases hc
    · simp only [threadStep, hphase, hrunning]
      exact .disconnect rfl rfl
  | polling =>
    refine .inr ⟨fun _ h => Phase.noConfusion h, .same ?_ fun _ => by rw [hphase]; rfl⟩
    simp only [threadStep, hphase]
  | draining =>
    refine .inr ⟨fun _ h => Phase.noConfusion h, .same ?_ fun _ => by rw [hphase]; rfl⟩
    simp only [threadStep, hphase]
    split <;> rfl
  | scanning buf segs =>
    refine .inr ⟨fun _ h => Phase.noConfusion h, ?_⟩
    cases segs with
    | nil => exact .same (by simp only [threadStep, hphase]) fun _ => by rw [hphase]; rfl
    | cons seg segs =>
      refine .read (segmentStart seg) (segmentCount seg) ?_ (by rw [hphase]; rfl)
      simp only [threadStep, hphase]
      split_ifs <;> rfl
  | storing stores buf segs =>
    refine .inr ⟨fun _ h => Phase.noConfusion h, .same ?_ fun _ => by rw [hphase]; rfl⟩
    cases stores <;> simp only [threadStep, hphase]
  | failed =>
    refine .inr ⟨fun _ h => Phase.noConfusion h, ?_⟩
    simp only [threadStep, hphase]
    exact .disconnect rfl rfl
  | stopped =>
    refine .inr ⟨fun _ h => Phase.noConfusion h, .same ?_ ?_⟩
    · simp only [threadStep, hphase]
    · simp only [threadStep, hphase, imp_self]

theorem UnitThread.outstanding_of_ne {t : UnitThread γ} (h : ∀ cmd, t.phase ≠ .writing cmd) :
    t.outstanding = t.unit.cmdQueue.pending := by
  unfold outstanding
  split
  · exact absurd ‹_› (h _)
  · rfl

/-- Only a pop touches the queue of a unit, and only a pop takes a command in hand. -/
theorem threadStep_of_ne_draining {t : UnitThread γ} (h : t.phase ≠ .draining) :
    (threadStep api t).1.unit.cmdQueue = t.unit.cmdQueue ∧
      ∀ cmd, (threadStep api t).1.phase ≠ .writing cmd := by
  unfold threadStep upsTcpInitCallback
  split
  case h_1 => dsimp only; split_ifs <;> exact ⟨rfl, fun _ h => Phase.noConfusion h⟩
  case h_2 => dsimp only; split_ifs <;> exact ⟨rfl, fun _ h => Phase.noConfusion h⟩
  case h_3 => contradiction
  case h_6 =>
    dsimp only
    split_ifs
    · exact ⟨rfl, fun _ h => Phase.noConfusion h⟩
    · exact ⟨rfl, fun _ h => Phase.noConfusion h⟩
    · exact ⟨rfl, fun _ h => Phase.noConfusion h⟩
  case h_10 => exact ⟨rfl, fun cmd hcmd => Phase.noConfusion (‹t.phase = .stopped›.symm.trans hcmd)⟩
  all_goals exact ⟨rfl, fun _ h => Phase.noConfusion h⟩

/-- What a step does to the queue of a unit: only a write takes a command from those that wait. -/
theorem threadStep_queue {t : UnitThread γ} (h : t.unit.cmdQueue.WellFormed) :
    (threadStep api t).1.unit.cmdQueue.WellFormed ∧
      ((∀ cmd, t.phase ≠ .writing cmd) → (threadStep api t).1.outstanding = t.outstanding) := by
  by_cases hphase : t.phase = .draining
  · obtain ⟨hhead, htail⟩ := h.pop_pending
    have hpop := h.pop
    have hout : t.outstanding = t.unit.cmdQueue.pending := by
      simp only [UnitThread.outstanding, hphase]
    rw [hout]
    rcases hq : queuePop t.unit.cmdQueue with ⟨_ | cmd, q⟩
    all_goals
      rw [hq] at hhead htail hpop
      simp only [threadStep, hphase, hq, UnitThread.outstanding]
      refine ⟨hpop, fun _ => ?_⟩
    · rw [htail, List.head?_eq_none_iff.mp hhead.symm, List.tail_nil]
    · rw [htail]
      exact List.cons_head?_tail hhead.symm
  · obtain ⟨hqueue, hne⟩ := threadStep_of_ne_draining api hphase
    refine ⟨hqueue ▸ h, fun hwriting => ?_⟩
    rw [UnitThread.outstanding_of_ne hne, UnitThread.outstanding_of_ne hwriting, hqueue]

/-! ### A thread that is not interrupted -/

/-- One step of a thread, and of the pool. -/
def Step (s s' : UnitThread γ × Pool) : Prop :=
  s' = ((threadStep api s.1).1, poolAfter s.2 (threadStep api s.1).2)

/-- Steps of one thread, with no other between them. -/
abbrev Leads : UnitThread γ × Pool → UnitThread γ × Pool → Prop := Relation.ReflTransGen (Step api)

theorem leads_step {t t' : UnitThread γ} {events : List ThreadEvent}
    (h : threadStep api t = (t', events)) (pool : Pool) :
    Leads api (t, pool) (t', poolAfter pool events) :=
  .single (by simp only [Step, h])

/-- The thread drains the queue and goes on with the scan. -/
theorem leads_drainLoop (n : ℕ) (t : UnitThread γ) (pool : Pool) (hphase : t.phase = .draining)
    (hn : t.unit.cmdQueue.count ≤ n) :
    let d := drainLoop api.toModbusApi n t.unit.cmdQueue t.unit.tcpCtx
    Leads api (t, pool) ({ t with
      unit := { t.unit with cmdQueue := d.1, tcpCtx := d.2 }
      phase := .scanning (List.replicate MODBUS_MAX_READ_REGISTERS 0) (segments t.unit.profile) },
      pool) := by
  -- The last pop finds the queue empty.
  have hempty : ∀ t : UnitThread γ, t.phase = .draining → t.unit.cmdQueue.count = 0 →
      threadStep api t = ({ t with
        phase := .scanning (List.replicate MODBUS_MAX_READ_REGISTERS 0)
          (segments t.unit.profile) }, []) := by
    intro t hphase hzero
    have hpop : queuePop t.unit.cmdQueue = (none, t.unit.cmdQueue) := if_pos hzero
    simp only [threadStep, hphase, hpop]
  induction n generalizing t with
  | zero => exact leads_step api (hempty t hphase (Nat.le_zero.mp hn)) pool
  | succ n ih =>
    intro d
    by_cases hzero : t.unit.cmdQueue.count = 0
    · have hd : d = (t.unit.cmdQueue, t.unit.tcpCtx) := by
        simp only [d, drainLoop, queuePop, hzero, if_true]
      rw [hd]
      exact leads_step api (hempty t hphase hzero) pool
    · obtain ⟨cmd, q, hpop, hcount⟩ : ∃ cmd q, queuePop t.unit.cmdQueue = (some cmd, q) ∧
          q.count = t.unit.cmdQueue.count - 1 := ⟨_, _, if_neg hzero, rfl⟩
      have hd : d = drainLoop api.toModbusApi n q (writeRegistersToDevice api.toModbusApi
          t.unit.tcpCtx cmd.addr cmd.value cmd.count cmd.mode).2 := by
        simp only [d, drainLoop, hpop]
      have hstep : threadStep api t =
          ({ t with unit := { t.unit with cmdQueue := q }, phase := .writing cmd }, []) := by
        simp only [threadStep, hphase, hpop]
      rw [hd]
      refine (leads_step api hstep pool).trans ((leads_step api rfl pool).trans (ih _ rfl ?_))
      exact hcount ▸ Nat.sub_le_of_le_add hn

/-- The thread stores the registers of a segment and goes on. -/
theorem leads_storing (t : UnitThread γ) (stores : List PoolStore) (buf : List UInt16)
    (segs : List (List DeviceRegisterMapping)) (pool : Pool) :
    Leads api ({ t with phase := .storing stores buf segs }, pool)
      ({ t with phase := .scanning buf segs }, stores.foldl Pool.store pool) := by
  induction stores generalizing pool with
  | nil => exact leads_step api rfl pool
  | cons s stores ih => exact (leads_step api rfl pool).trans (ih (pool.store s))

/-- A thread in the midst of a scan. -/
def scanThread (t : UnitThread γ) (s : Scan γ) (phase : Phase) : UnitThread γ :=
  { t with
    unit := { t.unit with tcpCtx := s.tcpCtx, commFailCount := s.commFailCount }
    phase }

/-- The thread reads a segment as the callback does. -/
theorem leads_readSegment (t : UnitThread γ) (s : Scan γ) (seg : List DeviceRegisterMapping)
    (segs : List (List DeviceRegisterMapping)) :
    let r := readSegment api.toModbusApi t.unit.profile (segmentStart seg) (segmentCount seg) s
    Leads api (scanThread t s (.scanning s.buf (seg :: segs)), s.pool)
      (scanThread t r.2 (if r.1 then .failed else .scanning r.2.buf segs), r.2.pool) := by
  intro r
  let event : ThreadEvent := .read (segmentStart seg) (segmentCount seg)
    (api.readHoldingRegisters s.tcpCtx (segmentStart seg) (segmentCount seg)).1
  by_cases hrc : (api.readHoldingRegisters s.tcpCtx (segmentStart seg) (segmentCount seg)).1.rc =
      MB_TCP_CLIENT_OK
  · have hstep : threadStep api (scanThread t s (.scanning s.buf (seg :: segs))) =
        (scanThread t r.2 (.storing (readToPoolStores t.unit.profile r.2.buf (segmentStart seg)
          (segmentCount seg).toNat) r.2.buf segs), [event]) := by
      simp only [threadStep, scanThread, r, readSegment, hrc, ne_eq, not_true_eq_false, if_false]
      rfl
    have hr : r.1 = false ∧ r.2.pool = deviceMapReadToPool t.unit.profile r.2.buf
        (segmentStart seg) (segmentCount seg).toNat s.pool := by
      simp only [r, readSegment, hrc, ne_eq, not_true_eq_false, if_false, and_self]
    rw [hr.1, hr.2]
    exact (leads_step api hstep s.pool).trans (leads_storing api (scanThread t r.2 .failed) _ _ _ _)
  · have hstep : threadStep api (scanThread t s (.scanning s.buf (seg :: segs))) =
        (scanThread t r.2 (if r.1 then .failed else .scanning r.2.buf segs), [event]) := by
      simp only [threadStep, scanThread, r, readSegment, hrc, ne_eq, not_false_eq_true, if_true,
        decide_eq_true_eq]
      rfl
    have hpool : r.2.pool = s.pool := by
      simp only [r, readSegment, hrc, ne_eq, not_false_eq_true, if_true]
    rw [hpool]
    exact leads_step api hstep s.pool

/-- The thread reads the segments as the callback does. -/
theorem leads_runSegments (t : UnitThread γ) (s : Scan γ)
    (segs : List (List DeviceRegisterMapping)) :
    let r := runSegments api.toModbusApi t.unit.profile segs s
    Leads api (scanThread t s (.scanning s.buf segs), s.pool)
      (scanThread t r.2 (if r.1 = 0 then .polling else .failed), r.2.pool) := by
  induction segs generalizing s with
  | nil => exact leads_step api rfl s.pool
  | cons seg segs ih =>
    have hread := leads_readSegment api t s seg segs
    intro r
    rcases hseg : readSegment api.toModbusApi t.unit.profile (segmentStart seg) (segmentCount seg) s
      with ⟨_ | _, s'⟩
    · have hr : r = runSegments api.toModbusApi t.unit.profile segs s' := by
        simp only [r, runSegments, hseg]
      rw [hseg] at hread
      rw [hr]
      exact hread.trans (ih s')
    · have hr : r = (-1, s') := by simp only [r, runSegments, hseg]
      rw [hseg] at hread
      rw [hr]
      exact hread

/-- **A thread that is not interrupted runs the process callback.** -/
theorem leads_callback (t : UnitThread γ) (h : t.phase = .draining) (pool : Pool) :
    let r := upsTcpProcessCallback api.toModbusApi t.unit pool
    Leads api (t, pool)
      ({ t with unit := r.unit, phase := if r.rc = 0 then .polling else .failed }, r.pool) := by
  intro r
  have hdrain := leads_drainLoop api _ t pool h (Nat.le_refl _)
  have hr : r = _ := processCallback_eq api.toModbusApi t.unit pool
  rw [hr]
  let d := drainQueue api.toModbusApi t.unit.cmdQueue t.unit.tcpCtx
  exact hdrain.trans (leads_runSegments api { t with unit := { t.unit with cmdQueue := d.1 } }
    ⟨d.2, t.unit.commFailCount, pool, List.replicate MODBUS_MAX_READ_REGISTERS 0, []⟩
    (segments t.unit.profile))

end LoopCharger.Ups

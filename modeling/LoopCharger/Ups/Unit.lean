import LoopCharger.DeviceMap.Pool
import LoopCharger.Modbus.Client
import LoopCharger.Ups.CmdQueue

/-!
# A UPS unit

The state of one polled unit of `src/ups_module.c`, and the writes of its queue. The unit reaches
its device through three operations on a connection, which are a parameter: what a unit does with
their outcomes does not depend on how they come about.

## Main definitions

* `ModbusApi`, `clientApi`: the three operations, and the ones of the client.
* `UpsUnit`: the state of a unit.
* `writeRegistersToDevice`, `drainQueue`: one queued write, and the loop over the queue.
-/

namespace LoopCharger.Ups

open Modbus DeviceMap

/-- The register operations of a connection of the type `γ`. -/
structure ModbusApi (γ : Type*) where
  readHoldingRegisters : γ → (addr qty : UInt16) → Reply × γ
  writeSingleRegister : γ → (addr value : UInt16) → ℤ × γ
  writeMultipleRegisters : γ → (addr qty : UInt16) → (data : ℕ → UInt16) → ℤ × γ

/-- The operations of the client. The response buffer of the `n`-th call holds `stack n` when the
call starts. -/
def clientApi {σ : Type*} (T : Transport σ) (stack : ℕ → ResponseBuffer) :
    ModbusApi (Client σ × ℕ) where
  readHoldingRegisters c addr qty :=
    let r := mbTcpClientReadHoldingRegisters T c.1 addr qty (stack c.2)
    (r.1, r.2, c.2 + 1)
  writeSingleRegister c addr value :=
    let r := mbTcpClientWriteSingleRegister T c.1 addr value (stack c.2)
    (r.1.rc, r.2, c.2 + 1)
  writeMultipleRegisters c addr qty data :=
    let r := mbTcpClientWriteMultipleRegisters T c.1 addr qty data (stack c.2)
    (r.1.rc, r.2, c.2 + 1)

/-- `ups_unit_t`: the profile, the connection, the failure counter and the queue. -/
structure UpsUnit (γ : Type*) where
  profile : DeviceMapProfile
  tcpCtx : γ
  commFailCount : ℕ
  cmdQueue : UpsCmdQueue

variable {γ : Type*} (api : ModbusApi γ)

/-- Execute one write: `0` on success, `-1` on failure. -/
def writeRegistersToDevice (tcpCtx : γ) (addr : UInt16) (values : ℕ → UInt16) (count : UInt16)
    (mode : UpsWriteMode) : ℤ × γ :=
  let result := match mode with
    | .fc06 =>
      if count ≠ 1 then (-1, tcpCtx) else api.writeSingleRegister tcpCtx addr (values 0)
    | .fc16 => api.writeMultipleRegisters tcpCtx addr count values
    | .auto =>
      if count = 1 then api.writeSingleRegister tcpCtx addr (values 0)
      else api.writeMultipleRegisters tcpCtx addr count values
  (if result.1 ≠ MB_TCP_CLIENT_OK then -1 else 0, result.2)

/-- The values of a slot, as a pointer to them. -/
def UpsWriteCmd.value (cmd : UpsWriteCmd) (i : ℕ) : UInt16 := cmd.values.toList.getD i 0

/-- The loop that drains the queue, for at most `n` commands. The outcome of a write is logged
only. -/
def drainLoop : ℕ → UpsCmdQueue → γ → UpsCmdQueue × γ
  | 0, q, tcpCtx => (q, tcpCtx)
  | n + 1, q, tcpCtx =>
    match queuePop q with
    | (none, q) => (q, tcpCtx)
    | (some cmd, q) =>
      drainLoop n q
        (writeRegistersToDevice api tcpCtx cmd.addr cmd.value cmd.count cmd.mode).2

/-- Drain the queue. As long as nobody pushes, every pop makes it shorter. -/
def drainQueue (q : UpsCmdQueue) (tcpCtx : γ) : UpsCmdQueue × γ :=
  drainLoop api q.count q tcpCtx

end LoopCharger.Ups

import LoopCharger.Lib.Strtoul
import LoopCharger.Cmos.Delivery
import LoopCharger.Ups.Owners

/-!
# The commands of the HMI

The handlers of `src/ups_cmos_bridge.c`, one for each command that the HMI sends: each turns the
value of the message into a number and queues the write of its register. The number is what
`strtoul` finds at the beginning of the value, cut to 16 bits.

## Main definitions

* `onTestCmd` and its likes: the handlers.
* `hmiSlots`: the subscriptions of `cmos_sub_thread`.
* `CanQueue`: a unit with the uid of the bridge is started, and its queue has room.
* `WritesDenoted`: nothing is queued but the number that a value denotes.

## Main results

* `accepted_onCmd`: what a handler queues.
* `writesDenoted_iff`: when a handler queues nothing but what the value denotes.
-/

namespace LoopCharger.Ups

open Lib Cmos Modbus

/-! ### Handlers -/

def UPS_BRIDGE_DEFAULT_UID : UInt8 := 1

/-- The call of `on_write` that a handler makes for its register. -/
def onCmd (addr : UInt16) (value : Bytes) : FleetAction :=
  .onWrite UPS_BRIDGE_DEFAULT_UID addr (UInt16.ofNat (strtoul value))

def onTestCmd : Bytes → FleetAction := onCmd 0x0012

def onShutdownCmd : Bytes → FleetAction := onCmd 0x0013

def onTimeCmd : Bytes → FleetAction := onCmd 0x0014

def onOffTimeCmd : Bytes → FleetAction := onCmd 0x0015

def onTriggerCmd : Bytes → FleetAction := onCmd 0x0015

inductive HmiCommand
  | test
  | shutdown
  | time
  | offTime
  | trigger
  deriving DecidableEq

def HmiCommand.handler : HmiCommand → Bytes → FleetAction
  | .test => onTestCmd
  | .shutdown => onShutdownCmd
  | .time => onTimeCmd
  | .offTime => onOffTimeCmd
  | .trigger => onTriggerCmd

/-- The register of a command. -/
def HmiCommand.register : HmiCommand → UInt16
  | .test => 0x0012
  | .shutdown => 0x0013
  | .time => 0x0014
  | .offTime | .trigger => 0x0015

theorem HmiCommand.handler_eq (cmd : HmiCommand) (value : Bytes) :
    cmd.handler value = onCmd cmd.register value := by cases cmd <;> rfl

/-- A subscription to a command. -/
def hmiSlot (key : String) (cmd : HmiCommand) : SubSlot HmiCommand where
  topic := CStr.copy 63 (ascii "hmi_ups")
  filterState := CStr.copy 31 []
  filterType := CStr.copy 31 (ascii "command")
  filterKey := CStr.copy 31 (ascii key)
  cb := some cmd
  used := true

def hmiSlots : List (SubSlot HmiCommand) :=
  [hmiSlot "ups_test" .test, hmiSlot "ups_shutdown" .shutdown, hmiSlot "on_time" .time,
    hmiSlot "off_time" .offTime, hmiSlot "trigger" .trigger]

/-! ### What is queued -/

variable {γ : Type*} (api : UnitApi γ) (f : Fleet γ)

/-- A unit with the uid of the bridge is started, and its queue has room. -/
def CanQueue (units : List (UnitThread γ)) : Prop :=
  ∃ k t, upsUnitFromUid units UPS_BRIDGE_DEFAULT_UID = some k ∧ units[k]? = some t ∧
    t.unit.cmdQueue.count < UPS_CMD_QUEUE_CAPACITY

/-- The entry of a command's register in the table of the unit. -/
def HmiCommand.entry : HmiCommand → DeviceMap.DeviceRegisterMapping
  | .test => ⟨0x0012, 0xBB12, .rw, "UPS1_OT_Fault_Recovery_Value"⟩
  | .shutdown => ⟨0x0013, 0xBB13, .rw, "UPS1_OT_Warning_Trigger_Value"⟩
  | .time => ⟨0x0014, 0xBB14, .rw, "UPS1_OT_Warning_Recovery_Value"⟩
  | .offTime | .trigger => ⟨0x0015, 0xBB15, .rw, "UPS1_OT_Warning_Recovery_Value"⟩

/-- The register of a command may be written. -/
theorem HmiCommand.access_entry (cmd : HmiCommand) : cmd.entry.access = .rw := by
  cases cmd <;> rfl

/-- The register of a command is mapped. -/
theorem deviceFindSlot_register (cmd : HmiCommand) :
    DeviceMap.deviceFindSlot ups1Profile cmd.register = some cmd.entry := by
  rw [wellFormed_ups1Profile.ascending.find_eq_some_iff]
  cases cmd <;> exact ⟨by decide, rfl⟩

/-- A call of `on_write` for the register of a command succeeds if its unit can take the write. -/
theorem onWrite_register_eq_zero_iff (units : List (UnitThread γ)) (cmd : HmiCommand)
    (val : UInt16) :
    (onWrite upsUidProfileMap units UPS_BRIDGE_DEFAULT_UID cmd.register val).1 = 0 ↔
      CanQueue units := by
  have hprofile : upsFindProfileByUid upsUidProfileMap UPS_BRIDGE_DEFAULT_UID =
      some ups1Profile := rfl
  have haccess : cmd.entry.access ≠ .ro := by rw [cmd.access_entry]; decide
  have honWrite : (onWrite upsUidProfileMap units UPS_BRIDGE_DEFAULT_UID cmd.register val).1 = 0 ↔
      (upsCmdPush units UPS_BRIDGE_DEFAULT_UID cmd.register (fun _ => val) 1 .auto).1 = 0 := by
    simp only [onWrite, hprofile, deviceFindSlot_register, if_neg haccess]
    split_ifs with hpush
    · simp [hpush]
    · simpa using hpush
  rw [honWrite]
  have hone : ¬ ((1 : UInt16) = 0 ∨ (1 : UInt16).toNat > MODBUS_MAX_WRITE_REGISTERS) := by decide
  have hmax : 1 ≤ MODBUS_MAX_WRITE_REGISTERS := by decide
  simp only [upsCmdPush, if_neg hone, CanQueue]
  rcases upsUnitFromUid units UPS_BRIDGE_DEFAULT_UID with _ | k
  · simp
  rcases hget : units[k]? with _ | t
  · simp [hget]
  · simpa [hget, queuePush_eq_zero_iff] using fun _ => hmax

/-- **What a handler queues**: the low 16 bits of what is read, if its unit can take it. -/
theorem accepted_onCmd (cmd : HmiCommand) (value : Bytes) (k : ℕ) (addr val : UInt16) :
    .accepted k addr val ∈ (fleetStep upsUidProfileMap api f (cmd.handler value)).2 ↔
      CanQueue f.units ∧ upsUnitFromUid f.units UPS_BRIDGE_DEFAULT_UID = some k ∧
        addr = cmd.register ∧ val = UInt16.ofNat (strtoul value) := by
  rw [cmd.handler_eq, onCmd]
  simp only [fleetStep]
  by_cases hcan : CanQueue f.units
  · rw [if_pos ((onWrite_register_eq_zero_iff f.units cmd _).mpr hcan)]
    simp [hcan, eq_comm]
  · rw [if_neg (mt (onWrite_register_eq_zero_iff f.units cmd _).mp hcan)]
    simp [hcan]

/-- Nothing is queued but the number that the value denotes. -/
def WritesDenoted (value : Bytes) (events : List FleetEvent) : Prop :=
  ∀ k addr val, .accepted k addr val ∈ events → Denotes value val.toNat

/-- **A handler queues nothing but what the value denotes** exactly if the value denotes a number of
16 bits, or nothing can be queued. -/
theorem writesDenoted_iff (cmd : HmiCommand) (value : Bytes) :
    WritesDenoted value (fleetStep upsUidProfileMap api f (cmd.handler value)).2 ↔
      (∃ i : ℤ, 0 ≤ i ∧ i ≤ 65535 ∧ Denotes value i) ∨ ¬ CanQueue f.units := by
  constructor
  · intro h
    by_cases hcan : CanQueue f.units
    · obtain ⟨k, t, hunit, -⟩ := id hcan
      have hmem := (accepted_onCmd api f cmd value k _ _).mpr ⟨hcan, hunit, rfl, rfl⟩
      have hlt := UInt16.toNat_lt (UInt16.ofNat (strtoul value))
      exact .inl ⟨_, Int.natCast_nonneg _, by omega, h _ _ _ hmem⟩
    · exact .inr hcan
  · rintro (⟨i, hpos, hle, hdenotes⟩ | hcan) k addr val hmem
    · obtain ⟨-, -, -, rfl⟩ := (accepted_onCmd api f cmd value k addr val).mp hmem
      have hread := strtoul_of_denotes hdenotes hpos (hle.trans (by decide))
      have hlow : ((UInt16.ofNat (strtoul value)).toNat : ℤ) = i := by
        rw [UInt16.toNat_ofNat', Nat.mod_eq_of_lt (by omega), hread]
      rwa [hlow]
    · exact absurd ((accepted_onCmd api f cmd value k addr val).mp hmem).1 hcan

/-- A command without a value is delivered with an empty string, and queues a zero. -/
theorem accepted_empty_value :
    let line := ascii "MSG hmi_ups type=command key=ups_test\n"
    let ups : List ModuleConfig := [⟨true, 1, "192.168.1.10", 502⟩]
    let start := Fleet.start upsUidProfileMap (fun _ => true) (fun _ => ()) ups
    let events := (fleetStep upsUidProfileMap zeroDevice start (HmiCommand.test.handler [])).2
    callbacksOf 0 (subMachine.trace (.init hmiSlots)
        [.addPub 0 (ascii "hmi") true, .ready 0 line]) =
        [(.test, ascii "hmi_ups", [])] ∧
      events = [.accepted 0 0x0012 0] ∧ (∀ i, ¬ Denotes [] i) ∧ ¬ WritesDenoted [] events := by
  intro line ups start events
  obtain ⟨hstream, hslot⟩ := streamOf_delivery hmiSlots 0 (ascii "hmi") line (by decide) (by decide)
  have hevents : events = [.accepted 0 0x0012 0] := by decide +kernel
  refine ⟨?_, hevents, not_denotes_nil, fun hwrites => ?_⟩
  · rw [callbacksOf_eq, hslot, hstream]
    decide +kernel
  · exact not_denotes_nil _ (hwrites 0 0x0012 0 (hevents ▸ List.mem_singleton_self _))

end LoopCharger.Ups

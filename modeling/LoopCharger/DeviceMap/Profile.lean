import Mathlib.Data.List.Nodup
import Mathlib.Data.Nat.Basic
import LoopCharger.Lib.Search

/-!
# Device register profiles

The mapping tables of `lib/device_map/device_register_map.h`, one row for each Modbus register of
a device with its place in the shared pool, and the search of a row by device address.

## Main definitions

* `DeviceRegisterMapping`, `DeviceMapProfile`: a row and a profile.
* `deviceFindSlot`: the binary search of a row.
* `DeviceMapProfile.Sorted`: an ascending table, in which addresses may occur again.
* `DeviceMapProfile.Ascending`, `DeviceMapProfile.WellFormed`: the documented rules for tables.

## Main results

* `deviceFindSlot_sound`: a row found is a row of the table for the address searched.
* `DeviceMapProfile.Ascending.find`: in an ascending table every row is found.
-/

namespace LoopCharger.DeviceMap

/-- Number of registers in the shared pool. -/
def INTERNAL_POOL_SIZE : ℕ := 65535

/-- Permission of a register for external requests. -/
inductive RegisterAccess
  | ro
  | rw
  | wo
  deriving DecidableEq, Repr

/-- One row: a holding register of the device and its absolute place in the pool. -/
structure DeviceRegisterMapping where
  deviceAddress : UInt16
  poolAddress : UInt16
  access : RegisterAccess
  description : String
  deriving DecidableEq, Repr

/-- The profile of one physical unit; `table_count` is the length of the table. -/
structure DeviceMapProfile where
  name : String
  table : List DeviceRegisterMapping
  readChunk : UInt16
  deriving DecidableEq, Repr

namespace DeviceMapProfile

variable (profile : DeviceMapProfile)

/-- The row at an index of the table. -/
def row (i : ℕ) : DeviceRegisterMapping := profile.table.getD i ⟨0, 0, .ro, ""⟩

theorem row_eq_getElem {i : ℕ} (hi : i < profile.table.length) :
    profile.row i = profile.table[i] := by
  simp [row, List.getD_eq_getElem?_getD, hi]

theorem row_mem {i : ℕ} (hi : i < profile.table.length) : profile.row i ∈ profile.table :=
  profile.row_eq_getElem hi ▸ List.getElem_mem hi

/-- The rows are ascending in device address, where an address may occur again. -/
def Sorted : Prop :=
  profile.table.Pairwise fun m m' => m.deviceAddress.toNat ≤ m'.deviceAddress.toNat

/-- The rows are strictly ascending in device address. -/
def Ascending : Prop :=
  profile.table.Pairwise fun m m' => m.deviceAddress.toNat < m'.deviceAddress.toNat

/-- The documented rules: ascending device addresses, distinct pool addresses, all in the pool. -/
structure WellFormed : Prop where
  ascending : profile.Ascending
  distinct : (profile.table.map DeviceRegisterMapping.poolAddress).Nodup
  inPool : ∀ m ∈ profile.table, m.poolAddress.toNat < INTERNAL_POOL_SIZE

end DeviceMapProfile

/-- Binary search of the row of a device address. -/
def deviceFindSlot (profile : DeviceMapProfile) (deviceAddress : UInt16) :
    Option DeviceRegisterMapping :=
  (Lib.binarySearch (fun i => (profile.row i).deviceAddress.toNat) deviceAddress.toNat 0
    profile.table.length).map profile.row

/-- A row found is a row of the table, and it is one for the address searched. -/
theorem deviceFindSlot_sound {profile : DeviceMapProfile} {a : UInt16}
    {m : DeviceRegisterMapping} (h : deviceFindSlot profile a = some m) :
    m ∈ profile.table ∧ m.deviceAddress = a := by
  obtain ⟨i, hi, rfl⟩ := Option.map_eq_some_iff.mp h
  obtain ⟨-, hlt, hkey⟩ := Lib.binarySearch_sound hi
  exact ⟨profile.row_mem hlt, UInt16.toNat_inj.mp hkey⟩

/-- In a sorted table, the search finds a row for every address that has one. -/
theorem DeviceMapProfile.Sorted.isSome_find {profile : DeviceMapProfile} (h : profile.Sorted)
    {m : DeviceRegisterMapping} (hm : m ∈ profile.table) :
    (deviceFindSlot profile m.deviceAddress).isSome := by
  obtain ⟨k, hk, rfl⟩ := List.getElem_of_mem hm
  have hkey : ∀ i j, 0 ≤ i → i ≤ j → j < profile.table.length →
      (profile.row i).deviceAddress.toNat ≤ (profile.row j).deviceAddress.toNat := by
    intro i j _ hij hj
    rw [profile.row_eq_getElem (Nat.lt_of_le_of_lt hij hj), profile.row_eq_getElem hj]
    rcases Nat.eq_or_lt_of_le hij with rfl | hij
    · exact Nat.le_refl _
    · exact List.pairwise_iff_getElem.mp h i j (Nat.lt_trans hij hj) hj hij
  obtain ⟨i, hi⟩ := Lib.binarySearch_complete hkey (Nat.zero_le k) hk
    (congrArg (fun m => m.deviceAddress.toNat) (profile.row_eq_getElem hk))
  rw [deviceFindSlot, hi]
  rfl

namespace DeviceMapProfile.Ascending

variable {profile : DeviceMapProfile} (h : profile.Ascending)

include h

theorem sorted : profile.Sorted := h.imp fun hlt => Nat.le_of_lt hlt

/-- Rows for the same device address are the same row. -/
theorem eq_of_deviceAddress_eq {m m' : DeviceRegisterMapping} (hm : m ∈ profile.table)
    (hm' : m' ∈ profile.table) (heq : m.deviceAddress = m'.deviceAddress) : m = m' := by
  have hnodup : (profile.table.map DeviceRegisterMapping.deviceAddress).Nodup :=
    List.pairwise_map.mpr (h.imp fun hlt heq => absurd (congrArg UInt16.toNat heq) hlt.ne)
  exact List.inj_on_of_nodup_map hnodup hm hm' heq

/-- Every row of an ascending table is found under its device address. -/
theorem find {m : DeviceRegisterMapping} (hm : m ∈ profile.table) :
    deviceFindSlot profile m.deviceAddress = some m := by
  obtain ⟨m', hfind⟩ := Option.isSome_iff_exists.mp (h.sorted.isSome_find hm)
  obtain ⟨hmem, haddr⟩ := deviceFindSlot_sound hfind
  rw [hfind, h.eq_of_deviceAddress_eq hmem hm haddr]

/-- In an ascending table the search finds exactly the row of the address. -/
theorem find_eq_some_iff {a : UInt16} {m : DeviceRegisterMapping} :
    deviceFindSlot profile a = some m ↔ m ∈ profile.table ∧ m.deviceAddress = a := by
  refine ⟨deviceFindSlot_sound, ?_⟩
  rintro ⟨hm, rfl⟩
  exact h.find hm

end DeviceMapProfile.Ascending

end LoopCharger.DeviceMap

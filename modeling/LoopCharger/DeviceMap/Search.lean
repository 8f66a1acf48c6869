import LoopCharger.DeviceMap.Profile

/-!
# The search of a row, pass by pass

`device_find_slot` of `lib/device_map/device_register_map.c`, with its loop run for a number of
passes and the indices of the rows that it reads. The bounds of the window are at most
`table_count`, so that no sum of theirs leaves `size_t`. The profile and its table are not `NULL`.

## Main definitions

* `deviceFindSlotIn`, `SlotReturns`: the function, and what it returns.
* `SlotFound`: the function returns, reads inside the table, and finds the rows of a sorted table.

## Main results

* `exists_slotReturns`: the function returns, with what `deviceFindSlot` computes.
* `slot_found`: every search is right.
-/

namespace LoopCharger.DeviceMap

open Lib

/-- Find the row of a device address, with a number of passes of the loop: the row, and the indices
that are read. -/
def deviceFindSlotIn (passes : ℕ) (profile : DeviceMapProfile) (deviceAddress : UInt16) :
    Option (Option DeviceRegisterMapping × List ℕ) :=
  if profile.table.length = 0 then some (none, [])
  else
    (loop (searchPass (fun i => (profile.row i).deviceAddress.toNat) deviceAddress.toNat) passes
      ⟨0, profile.table.length, []⟩).map fun r => (r.1.map profile.row, r.2)

/-- The function returns the row `m`, and has read the rows `reads`. -/
def SlotReturns (profile : DeviceMapProfile) (a : UInt16) (m : Option DeviceRegisterMapping)
    (reads : List ℕ) : Prop :=
  ∃ passes, deviceFindSlotIn passes profile a = some (m, reads)

/-- The function returns and reads inside the table, whatever the table is; in a sorted table it
finds a row exactly when there is one for the address, and with distinct addresses the row that
a linear scan finds. -/
structure SlotFound (profile : DeviceMapProfile) (a : UInt16) : Prop where
  returns : ∃ reads, SlotReturns profile a (deviceFindSlot profile a) reads
  reads : ∀ m reads, SlotReturns profile a m reads →
    m = deviceFindSlot profile a ∧ ∀ i ∈ reads, i < profile.table.length
  row : ∀ m, deviceFindSlot profile a = some m → m ∈ profile.table ∧ m.deviceAddress = a
  isSome_iff : profile.Sorted →
    ((deviceFindSlot profile a).isSome ↔ ∃ m ∈ profile.table, m.deviceAddress = a)
  scan : profile.Sorted → (profile.table.map DeviceRegisterMapping.deviceAddress).Nodup →
    deviceFindSlot profile a = profile.table.find? fun m => m.deviceAddress = a

variable {profile : DeviceMapProfile} {a : UInt16}

/-! ### The loop -/

theorem slotReturns_of_nil (h : profile.table.length = 0) {m : Option DeviceRegisterMapping}
    {reads : List ℕ} : SlotReturns profile a m reads ↔ m = none ∧ reads = [] := by
  simp only [SlotReturns, deviceFindSlotIn, h, if_true, Option.some.injEq, Prod.mk.injEq,
    exists_const]
  exact and_congr eq_comm eq_comm

theorem slotReturns_of_ne_nil (h : profile.table.length ≠ 0) {m : Option DeviceRegisterMapping}
    {reads : List ℕ} :
    SlotReturns profile a m reads ↔ ∃ i, i.map profile.row = m ∧
      Returns (searchPass (fun i => (profile.row i).deviceAddress.toNat) a.toNat)
        ⟨0, profile.table.length, []⟩ (i, reads) := by
  simp only [SlotReturns, deviceFindSlotIn, h, if_false, Option.map_eq_some_iff, Prod.mk.injEq]
  constructor
  · rintro ⟨passes, ⟨i, reads'⟩, hloop, rfl, rfl⟩
    exact ⟨i, rfl, passes, hloop⟩
  · rintro ⟨i, rfl, passes, hloop⟩
    exact ⟨passes, (i, reads), hloop, rfl, rfl⟩

/-- The function returns, with the row that `deviceFindSlot` computes. -/
theorem exists_slotReturns (profile : DeviceMapProfile) (a : UInt16) :
    ∃ reads, SlotReturns profile a (deviceFindSlot profile a) reads := by
  by_cases hnil : profile.table.length = 0
  · refine ⟨[], (slotReturns_of_nil hnil).mpr ⟨?_, rfl⟩⟩
    rw [deviceFindSlot, hnil]
    rfl
  · obtain ⟨reads, hreturns⟩ := @returns_searchPass ℕ _
      (fun i => (profile.row i).deviceAddress.toNat) a.toNat _ 0 profile.table.length
      (Nat.le_refl _) []
    exact ⟨reads, (slotReturns_of_ne_nil hnil).mpr ⟨_, rfl, hreturns⟩⟩

/-- What the function returns, it returns after reading rows of the table only. -/
theorem SlotReturns.reads_lt {m : Option DeviceRegisterMapping} {reads : List ℕ}
    (h : SlotReturns profile a m reads) : ∀ i ∈ reads, i < profile.table.length := by
  by_cases hnil : profile.table.length = 0
  · obtain ⟨-, rfl⟩ := (slotReturns_of_nil hnil).mp h
    exact fun i hi => absurd hi List.not_mem_nil
  · obtain ⟨i, -, hreturns⟩ := (slotReturns_of_ne_nil hnil).mp h
    exact fun j hj => (hreturns.reads_searchPass j hj).2

/-- The function returns once. -/
theorem SlotReturns.unique {m m' : Option DeviceRegisterMapping} {reads reads' : List ℕ}
    (h : SlotReturns profile a m reads) (h' : SlotReturns profile a m' reads') :
    m = m' ∧ reads = reads' := by
  by_cases hnil : profile.table.length = 0
  · obtain ⟨rfl, rfl⟩ := (slotReturns_of_nil hnil).mp h
    obtain ⟨rfl, rfl⟩ := (slotReturns_of_nil hnil).mp h'
    exact ⟨rfl, rfl⟩
  · obtain ⟨i, rfl, hreturns⟩ := (slotReturns_of_ne_nil hnil).mp h
    obtain ⟨i', rfl, hreturns'⟩ := (slotReturns_of_ne_nil hnil).mp h'
    obtain ⟨rfl, rfl⟩ := Prod.mk.inj (hreturns.unique hreturns')
    exact ⟨rfl, rfl⟩

/-! ### Sorted tables -/

/-- A sorted table with distinct addresses is strictly ascending. -/
theorem DeviceMapProfile.Sorted.ascending (h : profile.Sorted)
    (hdistinct : (profile.table.map DeviceRegisterMapping.deviceAddress).Nodup) :
    profile.Ascending :=
  h.imp₂ (fun _ _ hle hne => lt_of_le_of_ne hle fun heq => hne (UInt16.toNat_inj.mp heq))
    (List.pairwise_map.mp hdistinct)

/-- In an ascending table, the search and a linear scan find the same row. -/
theorem DeviceMapProfile.Ascending.find_eq_find? (h : profile.Ascending) (a : UInt16) :
    deviceFindSlot profile a = profile.table.find? fun m => m.deviceAddress = a := by
  cases hfind : profile.table.find? fun m => m.deviceAddress = a with
  | none =>
    refine Option.eq_none_iff_forall_not_mem.mpr fun m hm => ?_
    obtain ⟨hmem, haddr⟩ := h.find_eq_some_iff.mp hm
    exact List.find?_eq_none.mp hfind m hmem (by simpa using haddr)
  | some m =>
    have haddr : m.deviceAddress = a := by simpa using List.find?_some hfind
    exact h.find_eq_some_iff.mpr ⟨List.mem_of_find?_eq_some hfind, haddr⟩

/-- **Every search is right.** -/
theorem slot_found (profile : DeviceMapProfile) (a : UInt16) : SlotFound profile a where
  returns := exists_slotReturns profile a
  reads m reads hreturns := by
    obtain ⟨reads', hreturns'⟩ := exists_slotReturns profile a
    exact ⟨(hreturns.unique hreturns').1, hreturns.reads_lt⟩
  row _ hm := deviceFindSlot_sound hm
  isSome_iff hsorted := by
    constructor
    · intro hsome
      obtain ⟨m, hm⟩ := Option.isSome_iff_exists.mp hsome
      exact ⟨m, deviceFindSlot_sound hm⟩
    · rintro ⟨m, hm, rfl⟩
      exact hsorted.isSome_find hm
  scan hsorted hdistinct := (hsorted.ascending hdistinct).find_eq_find? a

end LoopCharger.DeviceMap

import Mathlib.Data.List.Induction
import Mathlib.Logic.Function.Basic
import LoopCharger.DeviceMap.Profile

/-!
# The shared pool

The pool of raw register values of `lib/device_map/device_register_map.c`, its reads, and the
ingest of a Modbus read buffer. Each register of the buffer is stored in a critical section of its
own, so the ingest is a list of single stores; other threads may run between them.

## Main definitions

* `Pool`, `poolReadRegister`, `poolReadByDeviceAddr`: the pool and its reads.
* `PoolStore`, `readToPoolStores`, `deviceMapReadToPool`: the stores of one ingest, and the ingest
  run without interruption.

## Main results

* `deviceMapReadToPool_of_mem`: the slots of the registers read hold the values of the buffer.
* `deviceMapReadToPool_of_forall_ne`: every other slot keeps its value.
-/

namespace LoopCharger.DeviceMap

/-- The raw register values, by pool address. -/
abbrev Pool := Fin INTERNAL_POOL_SIZE → UInt16

/-- The pool slot of an address, if the address is in range. -/
def poolSlot (poolAddress : UInt16) : Option (Fin INTERNAL_POOL_SIZE) :=
  if h : poolAddress.toNat < INTERNAL_POOL_SIZE then some ⟨poolAddress.toNat, h⟩ else none

theorem poolSlot_eq_some_iff {a : UInt16} {s : Fin INTERNAL_POOL_SIZE} :
    poolSlot a = some s ↔ a.toNat = s.val := by
  unfold poolSlot
  split
  · simp [Fin.ext_iff]
  · have := s.isLt
    simp
    omega

theorem poolSlot_inj {a b : UInt16} {s : Fin INTERNAL_POOL_SIZE} (ha : poolSlot a = some s)
    (hb : poolSlot b = some s) : a = b :=
  UInt16.toNat_inj.mp ((poolSlot_eq_some_iff.mp ha).trans (poolSlot_eq_some_iff.mp hb).symm)

/-- Read one slot; `none` if the address is out of range. -/
def poolReadRegister (pool : Pool) (poolAddress : UInt16) : Option UInt16 :=
  (poolSlot poolAddress).map pool

/-- Read the slot of a device address; `none` if the address is not mapped. -/
def poolReadByDeviceAddr (pool : Pool) (profile : DeviceMapProfile) (deviceAddress : UInt16) :
    Option UInt16 :=
  (deviceFindSlot profile deviceAddress).bind fun m => poolReadRegister pool m.poolAddress

/-- One store of an ingest: the device address read, the slot and the value. -/
structure PoolStore where
  deviceAddress : UInt16
  slot : Fin INTERNAL_POOL_SIZE
  value : UInt16
  deriving DecidableEq

/-- The store of one register, `none` when the loop body skips it: the address is not mapped, or
its slot is out of range. -/
def poolStore (profile : DeviceMapProfile) (deviceAddress value : UInt16) : Option PoolStore :=
  (deviceFindSlot profile deviceAddress).bind fun m =>
    (poolSlot m.poolAddress).map fun slot => ⟨deviceAddress, slot, value⟩

/-- The stores of `device_map_read_to_pool`, in order. -/
def readToPoolStores (profile : DeviceMapProfile) (readBuffer : List UInt16)
    (startDeviceAddress : UInt16) (readCount : ℤ) : List PoolStore :=
  (List.range readCount.toNat).filterMap fun i =>
    poolStore profile (startDeviceAddress + UInt16.ofNat i) (readBuffer.getD i 0)

/-- The pool after one store. -/
def Pool.store (pool : Pool) (s : PoolStore) : Pool := Function.update pool s.slot s.value

/-- The ingest of a read buffer, run without interruption. -/
def deviceMapReadToPool (profile : DeviceMapProfile) (readBuffer : List UInt16)
    (startDeviceAddress : UInt16) (readCount : ℤ) (pool : Pool) : Pool :=
  (readToPoolStores profile readBuffer startDeviceAddress readCount).foldl Pool.store pool

/-- The initial pool of `device_register_map_init`. -/
def deviceRegisterMapInit : Pool := fun _ => 0

/-! ### What an ingest stores -/

theorem poolStore_eq_some_iff {profile : DeviceMapProfile} {a v : UInt16} {s : PoolStore} :
    poolStore profile a v = some s ↔
      ∃ m, deviceFindSlot profile a = some m ∧ poolSlot m.poolAddress = some s.slot ∧
        s.deviceAddress = a ∧ s.value = v := by
  obtain ⟨dev, slot, value⟩ := s
  simp only [poolStore, Option.bind_eq_some_iff, Option.map_eq_some_iff, PoolStore.mk.injEq]
  grind

/-- A slot that no store of a list names keeps its value. -/
theorem foldl_store_of_forall_ne (stores : List PoolStore) (pool : Pool)
    {slot : Fin INTERNAL_POOL_SIZE} (h : ∀ s ∈ stores, s.slot ≠ slot) :
    stores.foldl Pool.store pool slot = pool slot := by
  induction stores generalizing pool with
  | nil => rfl
  | cons s stores ih =>
    rw [List.foldl_cons, ih _ fun t ht => h t (List.mem_cons_of_mem _ ht), Pool.store,
      Function.update_of_ne (h s List.mem_cons_self).symm]

/-- A slot that some store of a list names holds that store's value, when the stores of the slot
agree. -/
theorem foldl_store_of_mem {stores : List PoolStore} (pool : Pool) {s : PoolStore}
    (hs : s ∈ stores) (h : ∀ t ∈ stores, t.slot = s.slot → t.value = s.value) :
    stores.foldl Pool.store pool s.slot = s.value := by
  induction stores using List.reverseRecOn generalizing pool with
  | nil => simp at hs
  | append_singleton stores t ih =>
    rw [List.foldl_append, List.foldl_cons, List.foldl_nil, Pool.store]
    by_cases ht : t.slot = s.slot
    · rw [← ht, Function.update_self, h t (by simp) ht]
    · rw [Function.update_of_ne (Ne.symm ht)]
      refine ih pool ?_ fun u hu => h u (List.mem_append_left _ hu)
      rcases List.mem_append.mp hs with hs | hs
      · exact hs
      · exact absurd (congrArg PoolStore.slot (List.mem_singleton.mp hs)).symm ht

theorem mem_readToPoolStores {profile : DeviceMapProfile} {readBuffer : List UInt16}
    {start : UInt16} {readCount : ℤ} {s : PoolStore} :
    s ∈ readToPoolStores profile readBuffer start readCount ↔
      ∃ i < readCount.toNat,
        poolStore profile (start + UInt16.ofNat i) (readBuffer.getD i 0) = some s := by
  simp only [readToPoolStores, List.mem_filterMap, List.mem_range]

/-- Two registers of a range that does not pass the last address have different addresses. -/
theorem add_ofNat_inj {start : UInt16} {n i j : ℕ} (hn : start.toNat + n ≤ 65536) (hi : i < n)
    (hj : j < n) (h : start + UInt16.ofNat i = start + UInt16.ofNat j) : i = j := by
  have h' := congrArg UInt16.toNat h
  simp only [UInt16.toNat_add, UInt16.toNat_ofNat'] at h'
  omega

/-- The slot of a register of the range read holds the value of the buffer. -/
theorem deviceMapReadToPool_of_mem {profile : DeviceMapProfile} (hp : profile.WellFormed)
    {readBuffer : List UInt16} {start : UInt16} {n i : ℕ} (hn : start.toNat + n ≤ 65536)
    (hi : i < n) {m : DeviceRegisterMapping} (hm : m ∈ profile.table)
    (hdev : m.deviceAddress = start + UInt16.ofNat i) {slot : Fin INTERNAL_POOL_SIZE}
    (hslot : poolSlot m.poolAddress = some slot) (pool : Pool) :
    deviceMapReadToPool profile readBuffer start n pool slot = readBuffer.getD i 0 := by
  have hfind := hdev ▸ hp.ascending.find hm
  have hmem : ⟨m.deviceAddress, slot, readBuffer.getD i 0⟩ ∈
      readToPoolStores profile readBuffer start n :=
    mem_readToPoolStores.mpr ⟨i, hi, poolStore_eq_some_iff.mpr ⟨m, hfind, hslot, hdev, rfl⟩⟩
  refine foldl_store_of_mem pool hmem fun t ht hts => ?_
  obtain ⟨j, hj, hstore⟩ := mem_readToPoolStores.mp ht
  obtain ⟨m', hfind', hslot', -, hvalue⟩ := poolStore_eq_some_iff.mp hstore
  obtain ⟨hm', hdev'⟩ := deviceFindSlot_sound hfind'
  rw [hts] at hslot'
  have hmm' : m' = m := List.inj_on_of_nodup_map hp.distinct hm' hm (poolSlot_inj hslot' hslot)
  have hij : j = i := add_ofNat_inj hn hj hi (by rw [← hdev, ← hdev', hmm'])
  rw [hvalue, hij]

/-- A slot of no register of the range read keeps its value. -/
theorem deviceMapReadToPool_of_forall_ne {profile : DeviceMapProfile} {readBuffer : List UInt16}
    {start : UInt16} {n : ℕ} {slot : Fin INTERNAL_POOL_SIZE} (pool : Pool)
    (h : ∀ m ∈ profile.table, ∀ i < n, m.deviceAddress = start + UInt16.ofNat i →
      poolSlot m.poolAddress ≠ some slot) :
    deviceMapReadToPool profile readBuffer start n pool slot = pool slot := by
  refine foldl_store_of_forall_ne _ pool fun s hs hslot => ?_
  obtain ⟨i, hi, hstore⟩ := mem_readToPoolStores.mp hs
  obtain ⟨m, hfind, hs', -, -⟩ := poolStore_eq_some_iff.mp hstore
  obtain ⟨hm, hdev⟩ := deviceFindSlot_sound hfind
  exact h m hm i hi hdev (hslot ▸ hs')

end LoopCharger.DeviceMap

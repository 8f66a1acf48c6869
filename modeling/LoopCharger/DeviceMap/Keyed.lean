import LoopCharger.DeviceMap.Pool
import LoopCharger.Lib.Keyed
import LoopCharger.Lib.Machine

/-!
# The pool as a map

Several threads store into the pool, each through the profiles of its units: the ingest of a read
buffer takes the lock for one register at a time, and a direct write takes it once. What they store
is stored for a unit and a device address, and the threads do not see each other's pool addresses.
The pool is then a map whose keys are a profile with a device address.

## Main definitions

* `poolWriteByDeviceAddr`, `poolReadMaskedByDeviceAddr`: the direct accesses.
* `PoolThreads`, `poolMachine`: threads that store into the pool, and their interleavings.
* `OwnAddresses`: profiles whose tables have pool addresses of their own.

## Main results

* `pool_keyed`: what is read in any interleaving.
-/

namespace LoopCharger.DeviceMap

open Lib

/-! ### Direct accesses -/

/-- Write one slot: `false` if the address is out of range. -/
def poolWriteRegister (pool : Pool) (poolAddress value : UInt16) : Bool × Pool :=
  match poolSlot poolAddress with
  | none => (false, pool)
  | some slot => (true, Function.update pool slot value)

/-- Write the slot of a device address: `false` if the address is not mapped. -/
def poolWriteByDeviceAddr (pool : Pool) (profile : DeviceMapProfile)
    (deviceAddress value : UInt16) : Bool × Pool :=
  match deviceFindSlot profile deviceAddress with
  | none => (false, pool)
  | some m => poolWriteRegister pool m.poolAddress value

/-- Read the slot of a device address under a mask. -/
def poolReadMaskedByDeviceAddr (pool : Pool) (profile : DeviceMapProfile)
    (deviceAddress mask : UInt16) : Option UInt16 :=
  (poolReadByDeviceAddr pool profile deviceAddress).map (· &&& mask)

/-! ### Threads -/

/-- A call that stores into the pool. -/
inductive PoolCall
  /-- A call of `device_map_read_to_pool`. -/
  | readToPool (profile : DeviceMapProfile) (readBuffer : List UInt16)
      (startDeviceAddress : UInt16) (readCount : ℤ)
  /-- A call of `pool_write_by_device_addr`. -/
  | write (profile : DeviceMapProfile) (deviceAddress value : UInt16)

def PoolCall.profile : PoolCall → DeviceMapProfile
  | .readToPool profile _ _ _ => profile
  | .write profile _ _ => profile

/-- A thread: the calls it has still to make, and the loop index of the one under way. -/
structure PoolThread where
  calls : List PoolCall
  i : ℕ

/-- A key of the pool: the profile of a unit, and a device address. -/
abbrev PoolKey := DeviceMapProfile × UInt16

/-- One step of a thread, which takes the lock at most once: the pool, the thread and the value that
is stored for a key. -/
def PoolThread.step (pool : Pool) (t : PoolThread) : Pool × PoolThread × List (PoolKey × UInt16) :=
  match t.calls with
  | [] => (pool, t, [])
  | .write profile a v :: calls =>
    ((poolWriteByDeviceAddr pool profile a v).2, ⟨calls, 0⟩, [((profile, a), v)])
  | .readToPool profile readBuffer start readCount :: calls =>
    if t.i < readCount then
      let a := start + UInt16.ofNat t.i
      let v := readBuffer.getD t.i 0
      ((poolStore profile a v).elim pool pool.store, { t with i := t.i + 1 }, [((profile, a), v)])
    else (pool, ⟨calls, 0⟩, [])

structure PoolThreads where
  pool : Pool
  threads : List PoolThread

/-- The interleavings of the threads: an action is the number of the thread that goes on. -/
def poolMachine : Machine PoolThreads ℕ (PoolKey × UInt16) where
  step s k :=
    match s.threads[k]? with
    | none => (s, [])
    | some t =>
      let r := t.step s.pool
      (⟨r.1, s.threads.set k r.2.1⟩, r.2.2)

/-! ### Keys and their places -/

/-- The tables keep the documented rules, and those of different profiles have no pool address in
common. -/
structure OwnAddresses (profiles : Set DeviceMapProfile) : Prop where
  wellFormed : ∀ p ∈ profiles, p.WellFormed
  apart : ∀ p ∈ profiles, ∀ q ∈ profiles, p ≠ q →
    ∀ m ∈ p.table, ∀ m' ∈ q.table, m.poolAddress ≠ m'.poolAddress

/-- The slot of a key. -/
def poolPlace (key : PoolKey) : Option (Fin INTERNAL_POOL_SIZE) :=
  (deviceFindSlot key.1 key.2).bind fun m => poolSlot m.poolAddress

theorem poolReadByDeviceAddr_eq (pool : Pool) (profile : DeviceMapProfile) (a : UInt16) :
    poolReadByDeviceAddr pool profile a = readKey poolPlace pool (profile, a) := by
  simp only [poolReadByDeviceAddr, poolReadRegister, readKey, poolPlace, Option.map_bind]
  rfl

/-- An iteration of an ingest is the write of a key. -/
theorem elim_poolStore (pool : Pool) (profile : DeviceMapProfile) (a v : UInt16) :
    (poolStore profile a v).elim pool pool.store = writeKey poolPlace pool ((profile, a), v) := by
  simp only [poolStore, writeKey, poolPlace]
  rcases deviceFindSlot profile a with _ | m
  · rfl
  · rw [Option.bind_some, Option.bind_some]
    rcases poolSlot m.poolAddress with _ | slot <;> rfl

/-- A direct write is the write of a key, and it succeeds if the key has a slot. -/
theorem poolWriteByDeviceAddr_eq (pool : Pool) (profile : DeviceMapProfile) (a v : UInt16) :
    poolWriteByDeviceAddr pool profile a v =
      ((poolPlace (profile, a)).isSome, writeKey poolPlace pool ((profile, a), v)) := by
  simp only [poolWriteByDeviceAddr, writeKey, poolPlace]
  rcases deviceFindSlot profile a with _ | m
  · rfl
  · simp only [poolWriteRegister, Option.bind_some]
    rcases poolSlot m.poolAddress with _ | slot <;> rfl

namespace OwnAddresses

variable {profiles : Set DeviceMapProfile} (h : OwnAddresses profiles)

include h

/-- A row has one key, and it has one slot. -/
theorem injectivePlace : InjectivePlace poolPlace {key | key.1 ∈ profiles} := by
  rintro ⟨p, a⟩ hp ⟨q, b⟩ hq slot ha hb
  obtain ⟨m, hm, hslot⟩ := Option.bind_eq_some_iff.mp ha
  obtain ⟨m', hm', hslot'⟩ := Option.bind_eq_some_iff.mp hb
  obtain ⟨hmem, rfl⟩ := deviceFindSlot_sound hm
  obtain ⟨hmem', rfl⟩ := deviceFindSlot_sound hm'
  have haddr := poolSlot_inj hslot hslot'
  obtain rfl : p = q := by
    by_contra hne
    exact h.apart p hp q hq hne m hmem m' hmem' haddr
  rw [List.inj_on_of_nodup_map (h.wellFormed p hp).distinct hmem hmem' haddr]

/-- The keys with a slot are the mapped addresses. -/
theorem isSome_poolPlace {p : DeviceMapProfile} (hp : p ∈ profiles) (a : UInt16) :
    (poolPlace (p, a)).isSome ↔ ∃ m ∈ p.table, m.deviceAddress = a := by
  have hwf := h.wellFormed p hp
  rw [Option.isSome_iff_exists]
  constructor
  · rintro ⟨slot, hslot⟩
    obtain ⟨m, hm, -⟩ := Option.bind_eq_some_iff.mp hslot
    exact ⟨m, deviceFindSlot_sound hm⟩
  · rintro ⟨m, hm, rfl⟩
    refine ⟨⟨m.poolAddress.toNat, hwf.inPool m hm⟩, Option.bind_eq_some_iff.mpr ?_⟩
    exact ⟨m, hwf.ascending.find hm, poolSlot_eq_some_iff.mpr rfl⟩

end OwnAddresses

/-! ### Interleavings -/

/-- The threads call for the profiles only. -/
def PoolThreads.CallsFor (s : PoolThreads) (profiles : Set DeviceMapProfile) : Prop :=
  ∀ t ∈ s.threads, ∀ c ∈ t.calls, c.profile ∈ profiles

/-- **One step of a thread**: the keys it writes are of its calls, and nothing else is written. -/
theorem PoolThread.step_spec (pool : Pool) (t : PoolThread) :
    (t.step pool).1 = (t.step pool).2.2.foldl (writeKey poolPlace) pool ∧
      (∀ w ∈ (t.step pool).2.2, ∃ c ∈ t.calls, c.profile = w.1.1) ∧
      ∀ c ∈ (t.step pool).2.1.calls, c ∈ t.calls := by
  obtain ⟨calls, i⟩ := t
  cases calls with
  | nil => exact ⟨rfl, by simp [step], fun c hc => hc⟩
  | cons call calls =>
    cases call with
    | readToPool profile readBuffer start readCount =>
      simp only [step]
      split_ifs
      · refine ⟨elim_poolStore _ _ _ _, fun w hw => ⟨_, List.mem_cons_self, ?_⟩, fun c hc => hc⟩
        rw [List.mem_singleton.mp hw]
        rfl
      · exact ⟨rfl, by simp, fun c hc => List.mem_cons_of_mem _ hc⟩
    | write profile a v =>
      refine ⟨congrArg Prod.snd (poolWriteByDeviceAddr_eq _ _ _ _),
        fun w hw => ⟨_, List.mem_cons_self, ?_⟩, fun c hc => List.mem_cons_of_mem _ hc⟩
      rw [List.mem_singleton.mp hw]
      rfl

/-- The pool of a run is the pool after the writes of its keys, which are of the profiles. -/
theorem pool_eq_foldl {profiles : Set DeviceMapProfile} {s : PoolThreads}
    (hcalls : s.CallsFor profiles) (schedule : List ℕ) :
    (poolMachine.state s schedule).pool =
        (poolMachine.trace s schedule).foldl (writeKey poolPlace) s.pool ∧
      (poolMachine.state s schedule).CallsFor profiles ∧
      ∀ w ∈ poolMachine.trace s schedule, w.1.1 ∈ profiles := by
  refine poolMachine.trace_invariant (fun st ws => st.pool = ws.foldl (writeKey poolPlace) s.pool ∧
    st.CallsFor profiles ∧ ∀ w ∈ ws, w.1.1 ∈ profiles) ⟨rfl, hcalls, by simp⟩ ?_ schedule
  rintro st ws k ⟨hpool, hfor, hkeys⟩
  rcases ht : st.threads[k]? with _ | t
  · simpa only [poolMachine, ht, List.append_nil] using ⟨hpool, hfor, hkeys⟩
  have htmem := List.mem_of_getElem? ht
  obtain ⟨hstep, hwritten, hrest⟩ := t.step_spec st.pool
  simp only [poolMachine, ht, List.foldl_append, ← hpool]
  refine ⟨hstep, fun u hu c hc => ?_, fun w hw => ?_⟩
  · rcases List.mem_or_eq_of_mem_set hu with hu | rfl
    · exact hfor u hu c hc
    · exact hfor t htmem c (hrest c hc)
  · rcases List.mem_append.mp hw with hw | hw
    · exact hkeys w hw
    · obtain ⟨c, hc, heq⟩ := hwritten w hw
      exact heq ▸ hfor t htmem c hc

/-- What is read after a run. -/
theorem poolReadByDeviceAddr_state {profiles : Set DeviceMapProfile}
    (hprofiles : OwnAddresses profiles) {s : PoolThreads} (hcalls : s.CallsFor profiles)
    (schedule : List ℕ) {p : DeviceMapProfile} (hp : p ∈ profiles) (a : UInt16) :
    poolReadByDeviceAddr (poolMachine.state s schedule).pool p a =
      (poolReadByDeviceAddr s.pool p a).map fun v =>
        (lastWrite (poolMachine.trace s schedule) (p, a)).getD v := by
  obtain ⟨hpool, -, hkeys⟩ := pool_eq_foldl hcalls schedule
  rw [poolReadByDeviceAddr_eq, poolReadByDeviceAddr_eq, hpool]
  exact readKey_foldl_writeKey hprofiles.injectivePlace s.pool _ hkeys hp

/-- **The pool is a map.** For profiles with pool addresses of their own, and threads that store
through them in any order: a read succeeds exactly if the profile maps the device address, it gives
the last value that was stored for them, or the initial one, and under a mask the bits of that
value. What is stored for other keys does not change it. -/
theorem pool_keyed {profiles : Set DeviceMapProfile} (hprofiles : OwnAddresses profiles)
    (s : PoolThreads) (hcalls : s.CallsFor profiles) (schedule : List ℕ) {p : DeviceMapProfile}
    (hp : p ∈ profiles) (a mask : UInt16) :
    let run := poolMachine.state s schedule
    let value := fun v => (lastWrite (poolMachine.trace s schedule) (p, a)).getD v
    ((poolReadByDeviceAddr run.pool p a).isSome ↔ ∃ m ∈ p.table, m.deviceAddress = a) ∧
      poolReadByDeviceAddr run.pool p a = (poolReadByDeviceAddr s.pool p a).map value ∧
      poolReadMaskedByDeviceAddr run.pool p a mask =
        (poolReadByDeviceAddr s.pool p a).map (fun v => value v &&& mask) ∧
      ∀ more, (∀ w ∈ poolMachine.trace run more, w.1 ≠ (p, a)) →
        poolReadByDeviceAddr (poolMachine.state run more).pool p a =
          poolReadByDeviceAddr run.pool p a := by
  intro run value
  have hread := poolReadByDeviceAddr_state hprofiles hcalls schedule hp a
  refine ⟨?_, hread, ?_, fun more hother => ?_⟩
  · rw [poolReadByDeviceAddr_eq, readKey, Option.isSome_map, hprofiles.isSome_poolPlace hp]
  · rw [poolReadMaskedByDeviceAddr, hread, Option.map_map]
    rfl
  · rw [poolReadByDeviceAddr_state hprofiles (pool_eq_foldl hcalls schedule).2.1 more hp a,
      lastWrite_eq_none hother]
    exact Option.map_id'

theorem pool_keyed_two_units :
    let unit1 : DeviceMapProfile := ⟨"UPS1", [⟨0x0000, 0xBB00, .rw, "Voltage"⟩], 50⟩
    let unit2 : DeviceMapProfile := ⟨"UPS2", [⟨0x0000, 0xBC00, .rw, "Voltage"⟩], 50⟩
    let s : PoolThreads := ⟨deviceRegisterMapInit,
      [⟨[.readToPool unit1 [7] 0 1, .write unit1 0 5], 0⟩, ⟨[.write unit2 0 9], 0⟩]⟩
    poolReadByDeviceAddr (poolMachine.state s [0, 1, 0, 0]).pool unit1 0 = some 5 ∧
      poolReadMaskedByDeviceAddr (poolMachine.state s [0, 1, 0, 0]).pool unit1 0 4 = some 4 := by
  intro unit1 unit2 s
  have hown : OwnAddresses {p | p = unit1 ∨ p = unit2} := by
    have hwf : unit1.WellFormed ∧ unit2.WellFormed := by
      refine ⟨⟨?_, by decide, by decide⟩, ⟨?_, by decide, by decide⟩⟩ <;>
        exact List.pairwise_singleton _ _
    refine ⟨?_, ?_⟩
    · rintro p (rfl | rfl)
      exacts [hwf.1, hwf.2]
    · rintro p (rfl | rfl) q (rfl | rfl) hne
      exacts [absurd rfl hne, by decide, by decide, absurd rfl hne]
  have hcalls : s.CallsFor {p | p = unit1 ∨ p = unit2} := by
    intro t ht c hc
    rcases List.mem_cons.mp ht with rfl | ht
    · rcases List.mem_cons.mp hc with rfl | hc
      · exact .inl rfl
      · exact .inl (congrArg PoolCall.profile (List.mem_singleton.mp hc))
    · rw [List.mem_singleton.mp ht] at hc
      exact .inr (congrArg PoolCall.profile (List.mem_singleton.mp hc))
  obtain ⟨-, hread, hmasked, -⟩ := pool_keyed hown s hcalls [0, 1, 0, 0] (.inl rfl) 0 4
  rw [hread, hmasked]
  decide +kernel

end LoopCharger.DeviceMap

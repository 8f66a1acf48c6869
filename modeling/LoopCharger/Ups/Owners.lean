import Mathlib.Data.Set.BooleanAlgebra
import Mathlib.Order.CompletePartialOrder
import Mathlib.Data.List.Nodup
import LoopCharger.Ups.Ingest

/-!
# Which unit owns which slot

The pool addresses of the units that `start_ups_modules` of `src/ups_module.c` leaves running. The
tables document that a pool address belongs to one unit. The start selects a profile by the low byte
of the configured uid, and it does not look whether another unit has the same one.

## Main definitions

* `OwnPools`: the units have no pool address in common.
* `NoSharedSlot`: no slot is stored by the threads of two units.
* `startedConfigs`: the configurations for which a unit is started.
* `Owned`: every thread stores to slots of its own profile.

## Main results

* `cfg_startUpsModules`: the units started are those of `startedConfigs`.
* `noSharedSlot_of_ownPools`: units without a pool address in common share no slot, in any run.
-/

namespace LoopCharger.Ups

open Lib Modbus DeviceMap

variable {γ : Type*}

/-! ### Owners -/

/-- The pool addresses of a profile. -/
def poolAddresses (profile : DeviceMapProfile) : Set UInt16 :=
  {a | ∃ m ∈ profile.table, m.poolAddress = a}

/-- The units have no pool address in common. -/
def OwnPools (units : List (UnitThread γ)) : Prop :=
  units.Pairwise fun t u => Disjoint (poolAddresses t.unit.profile) (poolAddresses u.unit.profile)

/-- No slot is stored by the threads of two units. -/
def NoSharedSlot (events : List FleetEvent) : Prop :=
  ∀ k j s s', .thread k (.stored s) ∈ events → .thread j (.stored s') ∈ events →
    s.slot = s'.slot → k = j

/-- A store to a slot of the profile. -/
def StoresInto (profile : DeviceMapProfile) (s : PoolStore) : Prop :=
  ∃ a ∈ poolAddresses profile, poolSlot a = some s.slot

theorem StoresInto.of_fromReply {profile : DeviceMapProfile} {start count : UInt16} {reply : Reply}
    {s : PoolStore} (h : FromReply profile start count reply s) : StoresInto profile s := by
  obtain ⟨m, hfind, hslot, -, -⟩ := poolStore_eq_some_iff.mp h.1
  exact ⟨m.poolAddress, ⟨m, (deviceFindSlot_sound hfind).1, rfl⟩, hslot⟩

/-- Units with the profiles `profiles`: what a thread has stored, or is about to store, goes to a
slot of its own profile. -/
structure Owned (profiles : List DeviceMapProfile) (f : Fleet γ) (events : List FleetEvent) :
    Prop where
  profile : f.units.map (fun t => t.unit.profile) = profiles
  pending : ∀ t ∈ f.units, ∀ s ∈ t.pendingStores, StoresInto t.unit.profile s
  stored : ∀ k s, .thread k (.stored s) ∈ events → ∃ p, profiles[k]? = some p ∧ StoresInto p s

variable {profiles : List DeviceMapProfile} {f : Fleet γ} {events : List FleetEvent}

theorem map_profile_set {units : List (UnitThread γ)} {k : ℕ} {t t' : UnitThread γ}
    (hget : units[k]? = some t) (hprofile : t'.unit.profile = t.unit.profile) :
    (units.set k t').map (fun t => t.unit.profile) = units.map fun t => t.unit.profile := by
  obtain ⟨hk, rfl⟩ := List.getElem?_eq_some_iff.mp hget
  have hk' : k < (units.map fun t => t.unit.profile).length := by rwa [List.length_map]
  have hself := List.set_getElem_self hk'
  rw [List.getElem_map] at hself
  rw [List.map_set, hprofile, hself]

/-- One unit is replaced by one that has the same profile. -/
theorem Owned.set (h : Owned profiles f events) {k : ℕ} {t t' : UnitThread γ} (pool : Pool)
    (hget : f.units[k]? = some t) (hprofile : t'.unit.profile = t.unit.profile)
    (hpending : ∀ s ∈ t'.pendingStores, StoresInto t'.unit.profile s) (new : List FleetEvent)
    (hnew : ∀ j s, .thread j (.stored s) ∈ new → j = k ∧ StoresInto t.unit.profile s) :
    Owned profiles ⟨f.units.set k t', pool⟩ (events ++ new) := by
  refine ⟨(map_profile_set hget hprofile).trans h.profile, fun u hu s hs => ?_, fun j s hs => ?_⟩
  · rcases List.mem_or_eq_of_mem_set hu with hu | rfl
    · exact h.pending u hu s hs
    · exact hpending s hs
  · rcases List.mem_append.mp hs with hs | hs
    · exact h.stored j s hs
    · obtain ⟨rfl, hinto⟩ := hnew j s hs
      refine ⟨t.unit.profile, ?_, hinto⟩
      rw [← h.profile, List.getElem?_map, hget]
      rfl

/-- A step of the thread of a unit. -/
theorem Owned.thread (h : Owned profiles f events) (map : UidProfileMap) (api : UnitApi γ) {k : ℕ}
    {t : UnitThread γ} (hget : f.units[k]? = some t) :
    let r := fleetStep map api f (.thread k)
    Owned profiles r.1 (events ++ r.2) := by
  intro r
  have hprofile := (threadStep_cfg api t).2
  have hpending := h.pending t (List.mem_of_getElem? hget)
  have hstores := threadStep_stores api t
  simp only [r, fleetStep, hget]
  generalize threadStep api t = step at hprofile hstores
  obtain ⟨t', new⟩ := step
  dsimp only at hprofile hstores
  cases hstores with
  | none hsub =>
    refine h.set _ hget hprofile (fun s hs => ?_) [] (by simp)
    rw [hprofile]
    exact hpending s (hsub hs)
  | read start count reply hreply =>
    refine h.set _ hget hprofile (fun s hs => ?_) _ (by simp)
    rw [hprofile]
    exact .of_fromReply (hreply s hs)
  | stored s hs =>
    refine h.set _ hget hprofile (fun s' hs' => ?_) _ fun j s' hs' => ?_
    · rw [hprofile]
      exact hpending s' (hs ▸ List.mem_cons_of_mem s hs')
    · obtain ⟨rfl, rfl⟩ : j = k ∧ s' = s := by simpa using hs'
      exact ⟨rfl, hpending s' (hs ▸ List.mem_cons_self)⟩

/-- A unit is stopped. -/
theorem Owned.stop (h : Owned profiles f events) (k : ℕ) :
    Owned profiles ⟨f.units.modify k fun t => { t with running := false }, f.pool⟩ events := by
  refine ⟨?_, fun t ht s hs => ?_, h.stored⟩
  · rw [← h.profile]
    refine List.ext_getElem? fun j => ?_
    rw [List.getElem?_map, List.getElem?_map, List.getElem?_modify]
    rcases f.units[j]? with _ | u
    · rfl
    · simp only [Option.map_some]
      split_ifs <;> rfl
  · obtain ⟨j, hj⟩ := List.mem_iff_getElem?.mp ht
    obtain ⟨u, hu, ht⟩ := exists_of_getElem?_stop hj
    have hpending := h.pending u (List.mem_of_getElem? hu) s
    rcases ht with rfl | rfl <;> exact hpending hs

/-- Every step of the bridge or of a thread keeps the owners. -/
theorem Owned.step (h : Owned profiles f events) (map : UidProfileMap) (api : UnitApi γ)
    (a : FleetAction) :
    let r := fleetStep map api f a
    Owned profiles r.1 (events ++ r.2) := by
  intro r
  cases a with
  | onWrite uid addr val =>
    simp only [r]
    rcases fleetStep_onWrite_cases map api f uid addr val with
      hrej | ⟨-, -, k, t, -, -, -, -, hget, -, hacc⟩
    · simpa only [hrej, List.append_nil] using h
    · simp only [hacc]
      have hprofile : (t.push addr val).unit.profile = t.unit.profile := rfl
      exact h.set f.pool hget hprofile (h.pending t (List.mem_of_getElem? hget)) _ (by simp)
  | thread k =>
    rcases hget : f.units[k]? with _ | t
    · simpa only [r, fleetStep, hget, List.append_nil] using h
    · exact h.thread map api hget
  | stop k =>
    simp only [r, fleetStep, List.append_nil]
    exact h.stop k

theorem Owned.start (map : UidProfileMap) (created : ℕ → Bool) (conns : ℕ → γ)
    (ups : List ModuleConfig) :
    Owned ((startUpsModules map created conns ups).2.map fun t => t.unit.profile)
      (Fleet.start map created conns ups) [] := by
  refine ⟨rfl, fun t ht s hs => ?_, fun k s hs => absurd hs List.not_mem_nil⟩
  rcases mem_startLoop map created conns 0 ups 0 [] ht with hnil | ⟨cfg, profile, j, -, rfl⟩
  · cases hnil
  · cases hs

/-- Units without a pool address in common share no slot, in any run. -/
theorem noSharedSlot_of_ownPools {map : UidProfileMap} {created : ℕ → Bool} {conns : ℕ → γ}
    {ups : List ModuleConfig} (h : OwnPools (startUpsModules map created conns ups).2)
    (api : UnitApi γ) (actions : List FleetAction) :
    NoSharedSlot
      ((fleetMachine map api).trace (Fleet.start map created conns ups) actions) := by
  have hrun := (fleetMachine map api).trace_invariant (Owned _) (Owned.start map created conns ups)
    (fun f events a hf => hf.step map api a) actions
  intro k j s s' hs hs' hslot
  obtain ⟨p, hp, a, ha, hsa⟩ := hrun.stored k s hs
  obtain ⟨p', hp', a', ha', hsa'⟩ := hrun.stored j s' hs'
  by_contra hkj
  have hpools : ((startUpsModules map created conns ups).2.map fun t => t.unit.profile).Pairwise
      fun p p' => Disjoint (poolAddresses p) (poolAddresses p') := List.pairwise_map.mpr h
  have hdisj : Disjoint (poolAddresses p) (poolAddresses p') := by
    obtain ⟨hk, rfl⟩ := List.getElem?_eq_some_iff.mp hp
    obtain ⟨hj, rfl⟩ := List.getElem?_eq_some_iff.mp hp'
    rcases Nat.lt_or_gt_of_ne hkj with hlt | hgt
    · exact List.pairwise_iff_getElem.mp hpools k j hk hj hlt
    · exact (List.pairwise_iff_getElem.mp hpools j k hj hk hgt).symm
  obtain rfl := poolSlot_inj hsa (hslot ▸ hsa')
  exact Set.disjoint_left.mp hdisj ha ha'

/-! ### What is started -/

/-- The `i`-th configuration starts a unit: it is enabled, its uid has a profile, and its thread is
created. -/
def Starts (map : UidProfileMap) (created : ℕ → Bool) (x : ModuleConfig × ℕ) : Bool :=
  x.1.enabled && (upsFindProfileByUid map (.ofInt x.1.modbusUid)).isSome && created x.2

/-- The configurations for which a unit is started. -/
def startedConfigs (map : UidProfileMap) (created : ℕ → Bool) (ups : List ModuleConfig) :
    List ModuleConfig :=
  (ups.zipIdx.filter (Starts map created)).map Prod.fst

/-- The uid of a configuration, as the registry and the frames have it. -/
def ModuleConfig.uid (cfg : ModuleConfig) : UInt8 := .ofInt cfg.modbusUid

theorem cfg_startLoop (map : UidProfileMap) (created : ℕ → Bool) (conns : ℕ → γ) (i : ℕ)
    (cfgs : List ModuleConfig) (status : ℤ) (units : List (UnitThread γ)) :
    (startLoop map created conns i cfgs status units).2.map UnitThread.cfg =
      units.map UnitThread.cfg ++
        ((cfgs.zipIdx i).filter (Starts map created)).map Prod.fst := by
  induction cfgs generalizing i status units with
  | nil => simp [startLoop]
  | cons cfg cfgs ih =>
    rw [startLoop, List.zipIdx_cons]
    by_cases henabled : cfg.enabled = true
    case neg => simp [henabled, Starts, ih]
    rcases hprofile : upsFindProfileByUid map (.ofInt cfg.modbusUid) with _ | profile
    · simp [henabled, Starts, hprofile, ih]
    by_cases hcreated : created i = true
    · simp [henabled, Starts, hprofile, hcreated, ih]
    · simp [henabled, Starts, hprofile, hcreated, ih]

/-- The units started are those of `startedConfigs`, in their order. -/
theorem cfg_startUpsModules (map : UidProfileMap) (created : ℕ → Bool) (conns : ℕ → γ)
    (ups : List ModuleConfig) :
    (startUpsModules map created conns ups).2.map UnitThread.cfg =
      startedConfigs map created ups :=
  cfg_startLoop map created conns 0 ups 0 []

/-- A registry whose profiles have pool addresses, and none in common. -/
structure Separate (map : UidProfileMap) : Prop where
  nonempty : ∀ uid p, upsFindProfileByUid map uid = some p → (poolAddresses p).Nonempty
  disjoint : ∀ uid uid' p p', upsFindProfileByUid map uid = some p →
    upsFindProfileByUid map uid' = some p' → uid ≠ uid' →
      Disjoint (poolAddresses p) (poolAddresses p')

theorem separate_upsUidProfileMap : Separate upsUidProfileMap := by
  have huid : ∀ uid p, upsFindProfileByUid upsUidProfileMap uid = some p → uid = 1 := by
    intro uid p h
    have hmem := mem_of_upsFindProfileByUid h
    rw [upsUidProfileMap, List.mem_singleton] at hmem
    exact congrArg Prod.fst hmem
  refine ⟨fun uid p h => ?_, fun uid uid' p p' h h' hne => ?_⟩
  · rw [eq_ups1Profile h]
    exact ⟨0xBB00, _, List.mem_cons_self, rfl⟩
  · exact absurd ((huid uid p h).trans (huid uid' p' h').symm) hne

/-- Units of such a registry have no pool address in common if and only if no two of them have the
same uid. -/
theorem ownPools_iff_nodup {map : UidProfileMap} (hmap : Separate map) (created : ℕ → Bool)
    (conns : ℕ → γ) (ups : List ModuleConfig) :
    OwnPools (startUpsModules map created conns ups).2 ↔
      ((startedConfigs map created ups).map ModuleConfig.uid).Nodup := by
  have hprofile : ∀ t ∈ (startUpsModules map created conns ups).2,
      upsFindProfileByUid map t.cfg.uid = some t.unit.profile := by
    intro t ht
    rcases mem_startLoop map created conns 0 ups 0 [] ht with hnil | ⟨cfg, profile, j, h, rfl⟩
    · cases hnil
    · exact h
  rw [← cfg_startUpsModules map created conns ups, List.map_map, List.Nodup, List.pairwise_map]
  refine List.Pairwise.iff_of_mem fun {t u} ht hu => ⟨fun hdisj huid => ?_, fun hne => ?_⟩
  · have hsame : t.unit.profile = u.unit.profile := by
      refine Option.some.inj ((hprofile t ht).symm.trans (Eq.trans ?_ (hprofile u hu)))
      exact congrArg (upsFindProfileByUid map) huid
    obtain ⟨a, ha⟩ := hmap.nonempty _ _ (hprofile t ht)
    exact Set.disjoint_left.mp hdisj ha (hsame ▸ ha)
  · exact hmap.disjoint _ _ _ _ (hprofile t ht) (hprofile u hu) hne

/-- **Pool addresses of running units.** For every list of configurations and every outcome of the
thread creations: the units that are started have no pool address in common, and in no run do the
threads of two of them store to one slot, if and only if the low bytes of their uids are all
different. -/
theorem ownPools_iff_distinct_uids (created : ℕ → Bool) (conns : ℕ → γ) (ups : List ModuleConfig) :
    (OwnPools (startUpsModules upsUidProfileMap created conns ups).2 ∧
        ∀ (api : UnitApi γ) (actions : List FleetAction), NoSharedSlot
          ((fleetMachine upsUidProfileMap api).trace
            (Fleet.start upsUidProfileMap created conns ups) actions)) ↔
      ((startedConfigs upsUidProfileMap created ups).map ModuleConfig.uid).Nodup := by
  rw [← ownPools_iff_nodup separate_upsUidProfileMap created conns ups]
  refine ⟨And.left, fun h => ⟨h, fun api actions => noSharedSlot_of_ownPools h api actions⟩⟩

/-- A device that answers every request, with registers that are zero. -/
def zeroDevice : UnitApi Unit where
  readHoldingRegisters _ _ qty := (⟨MB_TCP_CLIENT_OK, List.replicate qty.toNat 0⟩, ())
  writeSingleRegister _ _ _ := (MB_TCP_CLIENT_OK, ())
  writeMultipleRegisters _ _ _ _ := (MB_TCP_CLIENT_OK, ())
  connect _ _ := (0, ())
  disconnect _ := ()

/-- The uids 1 and 257 have the same low byte: both units are started without an error, with the
same profile, and both store their first register to the slot `0xBB00`. -/
theorem sharedSlot_uid_257 :
    let ups : List ModuleConfig :=
      [⟨true, 1, "192.168.1.10", 502⟩, ⟨true, 257, "192.168.1.11", 502⟩]
    let start := Fleet.start upsUidProfileMap (fun _ => true) (fun _ => ()) ups
    let actions := List.replicate 5 (.thread 0) ++ List.replicate 5 (.thread 1)
    (startUpsModules upsUidProfileMap (fun _ => true) (fun _ => ()) ups).1 = 0 ∧
      ¬ OwnPools start.units ∧
      ¬ NoSharedSlot ((fleetMachine upsUidProfileMap zeroDevice).trace start actions) := by
  intro ups start actions
  refine ⟨by decide +kernel, ?_, fun hshared => ?_⟩
  · refine mt (ownPools_iff_nodup separate_upsUidProfileMap _ _ ups).mp ?_
    decide +kernel
  · have hzero : FleetEvent.thread 0 (.stored ⟨0, ⟨0xBB00, by decide⟩, 0⟩) ∈
        (fleetMachine upsUidProfileMap zeroDevice).trace start actions := by decide +kernel
    have hone : FleetEvent.thread 1 (.stored ⟨0, ⟨0xBB00, by decide⟩, 0⟩) ∈
        (fleetMachine upsUidProfileMap zeroDevice).trace start actions := by decide +kernel
    exact absurd (hshared 0 1 _ _ hzero hone rfl) (by decide)

end LoopCharger.Ups

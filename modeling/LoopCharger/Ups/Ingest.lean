import LoopCharger.Lib.History
import LoopCharger.Ups.Bridge

/-!
# What the units leave in the pool

The history of a slot of the pool, over all runs of the units and the bridge: until a successful
FC03 read of its register is stored, the slot is zero, and from then on it holds a value that such
a read has stored. This is so as long as the device answers no request by an exception with the code
zero: the client takes it for a success, and the unit stores what is in its buffer.

## Main definitions

* `SuccessfulRead`, `ReadOk`: the reply has a register, or only the return code of a success.
* `ReadInto`: a successful read of a register has stored a value.
* `Answered`: no reply has the return code of a success alone.
* `Ingested`: the pool and the stores under way, against the events so far.

## Main results

* `Ingested.step`: every step keeps this relation.
-/

namespace LoopCharger.Ups

open Lib Modbus DeviceMap

variable {γ : Type*}

/-! ### The stores of a thread -/

/-- The registers that a thread has read and not yet stored. -/
def UnitThread.pendingStores (t : UnitThread γ) : List PoolStore :=
  match t.phase with
  | .storing stores _ _ => stores
  | _ => []

/-- A store of a register that a successful request has read. -/
def FromReply (profile : DeviceMapProfile) (start count : UInt16) (reply : Reply) (s : PoolStore) :
    Prop :=
  poolStore profile s.deviceAddress s.value = some s ∧ reply.rc = MB_TCP_CLIENT_OK ∧
    ∃ i < count.toNat, s.deviceAddress = start + UInt16.ofNat i ∧
      ∀ w ∈ reply.out[i]?, w = s.value

/-- What a step reads and stores: nothing, or a request whose registers are then to be stored, or
the next of the registers to be stored. -/
inductive StoreStep (t t' : UnitThread γ) : List ThreadEvent → Prop
  | none (h : t'.pendingStores ⊆ t.pendingStores) : StoreStep t t' []
  | read (start count : UInt16) (reply : Reply)
      (h : ∀ s ∈ t'.pendingStores, FromReply t.unit.profile start count reply s) :
      StoreStep t t' [.read start count reply]
  | stored (s : PoolStore) (h : t.pendingStores = s :: t'.pendingStores) :
      StoreStep t t' [.stored s]

theorem fromReply_of_mem {profile : DeviceMapProfile} {buf : List UInt16} {start count : UInt16}
    {reply : Reply} (hrc : reply.rc = MB_TCP_CLIENT_OK) {s : PoolStore}
    (h : s ∈ readToPoolStores profile (reply.out ++ buf) start count.toNat) :
    FromReply profile start count reply s := by
  obtain ⟨i, hi, hstore⟩ := mem_readToPoolStores.mp h
  obtain ⟨m, hfind, hslot, hdev, hvalue⟩ := poolStore_eq_some_iff.mp hstore
  refine ⟨by rw [hdev, hvalue, hstore], hrc, i, hi, hdev, fun w hw => ?_⟩
  obtain ⟨hlen, rfl⟩ := List.getElem?_eq_some_iff.mp hw
  simp [hvalue, List.getD_eq_getElem?_getD, List.getElem?_append_left hlen, hlen]

theorem threadStep_stores (api : UnitApi γ) (t : UnitThread γ) :
    StoreStep t (threadStep api t).1 (threadStep api t).2 := by
  cases hphase : t.phase with
  | scanning buf segs =>
    cases segs with
    | nil =>
      simp only [threadStep, hphase]
      exact .none (List.nil_subset _)
    | cons seg segs =>
      simp only [threadStep, hphase]
      split_ifs with hrc hfail
      · exact .read _ _ _ fun s hs => absurd hs List.not_mem_nil
      · exact .read _ _ _ fun s hs => absurd hs List.not_mem_nil
      · exact .read _ _ _ fun s hs => fromReply_of_mem (not_not.mp hrc) hs
  | storing stores buf segs =>
    cases stores with
    | nil =>
      simp only [threadStep, hphase]
      exact .none (List.nil_subset _)
    | cons s stores =>
      simp only [threadStep, hphase]
      exact .stored s (by simp only [UnitThread.pendingStores, hphase])
  | connecting =>
    simp only [threadStep, hphase]
    split_ifs <;> exact .none (List.nil_subset _)
  | polling =>
    simp only [threadStep, hphase]
    split_ifs <;> exact .none (List.nil_subset _)
  | draining =>
    simp only [threadStep, hphase]
    split <;> exact .none (List.nil_subset _)
  | writing cmd =>
    simp only [threadStep, hphase]
    exact .none (List.nil_subset _)
  | failed =>
    simp only [threadStep, hphase]
    exact .none (List.nil_subset _)
  | stopped =>
    simp only [threadStep, hphase]
    exact .none (List.Subset.refl _)

/-! ### The pool of a fleet -/

/-- A request of the `k`-th unit for a register has returned `MB_TCP_CLIENT_OK`, and its reply has
`found` for the register. -/
def OkRequest (events : List FleetEvent) (k : ℕ) (deviceAddress : UInt16) (found : Option UInt16) :
    Prop :=
  ∃ start count reply, .thread k (.read start count reply) ∈ events ∧
    reply.rc = MB_TCP_CLIENT_OK ∧
    ∃ i < count.toNat, deviceAddress = start + UInt16.ofNat i ∧ reply.out[i]? = found

/-- The `k`-th unit has read a register, and `value` is what the reply has for it. -/
def SuccessfulRead (events : List FleetEvent) (k : ℕ) (deviceAddress value : UInt16) : Prop :=
  OkRequest events k deviceAddress (some value)

/-- A request for a register has returned `MB_TCP_CLIENT_OK`: it has read the value, or it was
answered by an exception with the code zero. The reply then has no registers, and `value` is what
the read buffer held. -/
def ReadOk (events : List FleetEvent) (k : ℕ) (deviceAddress value : UInt16) : Prop :=
  SuccessfulRead events k deviceAddress value ∨ OkRequest events k deviceAddress none

/-- No request is answered by an exception with the code zero: every reply with the return code
`MB_TCP_CLIENT_OK` has the registers asked for. -/
def Answered (events : List FleetEvent) : Prop :=
  ∀ k start count reply, .thread k (.read start count reply) ∈ events →
    reply.rc = MB_TCP_CLIENT_OK → count.toNat ≤ reply.out.length

/-- A successful read of a register has stored a value. -/
def ReadInto (deviceAddress value : UInt16) : List FleetEvent → Prop :=
  Sometime fun before event => ∃ k s, event = .thread k (.stored s) ∧
    s.deviceAddress = deviceAddress ∧ s.value = value ∧ SuccessfulRead before k deviceAddress value

theorem OkRequest.append {events : List FleetEvent} {k : ℕ} {a : UInt16} {found : Option UInt16}
    (h : OkRequest events k a found) (more : List FleetEvent) :
    OkRequest (events ++ more) k a found := by
  obtain ⟨start, count, reply, hmem, hread⟩ := h
  exact ⟨start, count, reply, List.mem_append_left _ hmem, hread⟩

theorem ReadOk.append {events : List FleetEvent} {k : ℕ} {a v : UInt16} (h : ReadOk events k a v)
    (more : List FleetEvent) : ReadOk (events ++ more) k a v :=
  h.imp (OkRequest.append · more) (OkRequest.append · more)

theorem Answered.of_append {events more : List FleetEvent} (h : Answered (events ++ more)) :
    Answered events := fun k start count reply hmem =>
  h k start count reply (List.mem_append_left _ hmem)

/-- Where every request is answered, one that returned `MB_TCP_CLIENT_OK` has read its registers. -/
theorem Answered.successfulRead {events : List FleetEvent} (h : Answered events) {k : ℕ}
    {a v : UInt16} (hread : ReadOk events k a v) : SuccessfulRead events k a v := by
  refine hread.resolve_right ?_
  rintro ⟨start, count, reply, hmem, hrc, i, hi, -, hnone⟩
  exact absurd (hi.trans_le (h k start count reply hmem hrc))
    (Nat.not_lt.mpr (List.getElem?_eq_none_iff.mp hnone))

/-- An event that stores nothing leaves the history of all registers as it is. -/
theorem readInto_concat_of_ne {events : List FleetEvent} {event : FleetEvent} {a v : UInt16}
    (h : ∀ k s, event = .thread k (.stored s) → s.deviceAddress ≠ a) :
    ReadInto a v (events ++ [event]) ↔ ReadInto a v events := by
  rw [ReadInto, sometime_concat, or_iff_left]
  rintro ⟨k, s, hevent, haddr, -⟩
  exact h k s hevent haddr

/-- The pool and the stores under way, for units of the profile `p`: the stores are of registers
that were asked for, and where every request is answered, a slot is zero until one of them is
stored. -/
structure Ingested (p : DeviceMapProfile) (f : Fleet γ) (events : List FleetEvent) : Prop where
  profile : ∀ (k : ℕ) t, f.units[k]? = some t → t.unit.profile = p
  pending : ∀ (k : ℕ) t, f.units[k]? = some t → ∀ s ∈ t.pendingStores,
    poolStore p s.deviceAddress s.value = some s ∧ ReadOk events k s.deviceAddress s.value
  pool : Answered events → ∀ m ∈ p.table, ∀ slot, poolSlot m.poolAddress = some slot →
    (f.pool slot = 0 ∧ ∀ v, ¬ ReadInto m.deviceAddress v events) ∨
      ReadInto m.deviceAddress (f.pool slot) events

variable {p : DeviceMapProfile} {f : Fleet γ} {events : List FleetEvent}

theorem Ingested.start (map : UidProfileMap)
    (hmap : ∀ uid profile, upsFindProfileByUid map uid = some profile → profile = p)
    (created : ℕ → Bool) (conns : ℕ → γ) (ups : List ModuleConfig) :
    Ingested p (Fleet.start map created conns ups) [] := by
  have hunit : ∀ (k : ℕ) t, (Fleet.start map created conns ups).units[k]? = some t →
      t.unit.profile = p ∧ t.pendingStores = [] := by
    intro k t hget
    rcases mem_startLoop map created conns 0 ups 0 [] (List.mem_of_getElem? hget) with
      hnil | ⟨cfg, profile, j, hprofile, rfl⟩
    · cases hnil
    · exact ⟨hmap _ _ hprofile, rfl⟩
  refine ⟨fun k t hget => (hunit k t hget).1, fun k t hget s hs => ?_, fun _ m _ slot _ => ?_⟩
  · rw [(hunit k t hget).2] at hs
    cases hs
  · exact .inl ⟨rfl, fun v => not_sometime_nil⟩

/-- One unit is replaced by one with the same profile, and the pool stays. -/
theorem Ingested.set (h : Ingested p f events) {k : ℕ} {t : UnitThread γ} (ht : t.unit.profile = p)
    (more : List FleetEvent)
    (hmore : ∀ a v, ReadInto a v (events ++ more) ↔ ReadInto a v events)
    (hpending : ∀ s ∈ t.pendingStores, poolStore p s.deviceAddress s.value = some s ∧
      ReadOk (events ++ more) k s.deviceAddress s.value) :
    Ingested p ⟨f.units.set k t, f.pool⟩ (events ++ more) := by
  refine ⟨fun j u hget => ?_, fun j u hget s hs => ?_, fun hall m hm slot hslot => ?_⟩
  · rw [List.getElem?_set] at hget
    split_ifs at hget with hkj hk
    · exact Option.some.inj hget ▸ ht
    · exact h.profile j u hget
  · rw [List.getElem?_set] at hget
    split_ifs at hget with hkj hk
    · obtain rfl := hkj
      exact hpending s (Option.some.inj hget ▸ hs)
    · exact (h.pending j u hget s hs).imp_right fun hread => hread.append more
  · simpa only [hmore] using h.pool hall.of_append m hm slot hslot

/-- The store of a register that was asked for. -/
theorem Ingested.store (h : Ingested p f events) (hp : p.WellFormed) {k : ℕ} {s : PoolStore}
    (hstore : poolStore p s.deviceAddress s.value = some s)
    (hread : ReadOk events k s.deviceAddress s.value) :
    Ingested p ⟨f.units, f.pool.store s⟩ (events ++ [.thread k (.stored s)]) := by
  obtain ⟨m', hfind, hslot', -, -⟩ := poolStore_eq_some_iff.mp hstore
  obtain ⟨hm', haddr⟩ := deviceFindSlot_sound hfind
  refine ⟨h.profile, fun j u hget r hr => ?_, fun hall m hm slot hslot => ?_⟩
  · exact (h.pending j u hget r hr).imp_right fun hread => hread.append _
  have hsuccess := hall.of_append.successfulRead hread
  · by_cases hmm' : m = m'
    · obtain rfl := hmm'
      obtain rfl : s.slot = slot := Option.some.inj (hslot'.symm.trans hslot)
      refine .inr (sometime_concat.mpr (.inr ⟨k, s, rfl, haddr.symm, ?_, ?_⟩))
      · simp only [Pool.store, Function.update_self]
      · simpa only [Pool.store, Function.update_self, haddr] using hsuccess
    · have hne : slot ≠ s.slot := by
        rintro rfl
        exact slot_ne_of_ne hp hm hm' hmm' hslot hslot'
      have haddr' : s.deviceAddress ≠ m.deviceAddress := fun heq =>
        hmm' (hp.ascending.eq_of_deviceAddress_eq hm hm' (heq.symm.trans haddr.symm))
      have hsame : ∀ v, ReadInto m.deviceAddress v (events ++ [.thread k (.stored s)]) ↔
          ReadInto m.deviceAddress v events := fun v => readInto_concat_of_ne (by
        rintro _ _ ⟨⟩
        exact haddr')
      simpa only [hsame, Pool.store, Function.update_of_ne hne] using
        h.pool hall.of_append m hm slot hslot

/-- What a read of the pool finds. -/
theorem Ingested.read (h : Ingested p f events) (hall : Answered events) {a v : UInt16}
    (hread : poolReadByDeviceAddr f.pool p a = some v) :
    (v = 0 ∧ ∀ w, ¬ ReadInto a w events) ∨ ReadInto a v events := by
  obtain ⟨m, hfind, hpool⟩ := Option.bind_eq_some_iff.mp hread
  obtain ⟨slot, hslot, rfl⟩ := Option.map_eq_some_iff.mp hpool
  obtain ⟨hm, rfl⟩ := deviceFindSlot_sound hfind
  exact h.pool hall m hm slot hslot

/-- A step of the thread of a unit. -/
theorem Ingested.thread (h : Ingested p f events) (hp : p.WellFormed) {map : UidProfileMap}
    (api : UnitApi γ) {k : ℕ} {t : UnitThread γ} (hget : f.units[k]? = some t) :
    let r := fleetStep map api f (.thread k)
    Ingested p r.1 (events ++ r.2) := by
  intro r
  have hprofile : (threadStep api t).1.unit.profile = p :=
    (threadStep_cfg api t).2.trans (h.profile k t hget)
  have hstores := threadStep_stores api t
  simp only [r, fleetStep, hget]
  generalize threadStep api t = step at hprofile hstores
  obtain ⟨t', new⟩ := step
  dsimp only at hprofile hstores
  cases hstores with
  | none hsub =>
    refine h.set hprofile [] (fun a v => by rw [List.append_nil]) fun s hs => ?_
    rw [List.append_nil]
    exact h.pending k t hget s (hsub hs)
  | read start count reply hreply =>
    refine h.set hprofile _ (fun a v => readInto_concat_of_ne (by rintro _ _ ⟨⟩)) fun s hs => ?_
    obtain ⟨hstore, hrc, i, hi, hdev, hvalue⟩ := hreply s hs
    rw [h.profile k t hget] at hstore
    have hok : OkRequest (events ++ [.thread k (.read start count reply)]) k s.deviceAddress
        reply.out[i]? :=
      ⟨start, count, reply, List.mem_append_right _ List.mem_cons_self, hrc, i, hi, hdev, rfl⟩
    cases hout : reply.out[i]? with
    | none => exact ⟨hstore, .inr (hout ▸ hok)⟩
    | some w =>
      rw [hout, hvalue w hout] at hok
      exact ⟨hstore, .inl hok⟩
  | stored s hs =>
    have hmem : s ∈ t.pendingStores := hs ▸ List.mem_cons_self
    obtain ⟨hstore, hread⟩ := h.pending k t hget s hmem
    have hset : Ingested p ⟨f.units.set k t', f.pool⟩ (events ++ []) := by
      refine h.set hprofile [] (fun a v => by rw [List.append_nil]) fun s' hs' => ?_
      rw [List.append_nil]
      exact h.pending k t hget s' (hs ▸ List.mem_cons_of_mem s hs')
    rw [List.append_nil] at hset
    exact hset.store hp hstore hread

/-- A unit is told to stop. -/
theorem Ingested.stop (h : Ingested p f events) (k : ℕ) :
    Ingested p ⟨f.units.modify k fun t => { t with running := false }, f.pool⟩ events := by
  refine ⟨fun j u hget => ?_, fun j u hget s hs => ?_, h.pool⟩
  · obtain ⟨t, ht, hu⟩ := exists_of_getElem?_stop hget
    have hprofile := h.profile j t ht
    rcases hu with rfl | rfl <;> exact hprofile
  · obtain ⟨t, ht, hu⟩ := exists_of_getElem?_stop hget
    have hpending := h.pending j t ht s
    rcases hu with rfl | rfl <;> exact hpending hs

/-- **What is in the pool.** Every step of the bridge or of a thread keeps the relation between the
pool and the events. -/
theorem Ingested.step (h : Ingested p f events) (hp : p.WellFormed) (map : UidProfileMap)
    (api : UnitApi γ) (a : FleetAction) :
    let r := fleetStep map api f a
    Ingested p r.1 (events ++ r.2) := by
  intro r
  cases a with
  | onWrite uid addr val =>
    simp only [r]
    rcases fleetStep_onWrite_cases map api f uid addr val with
      hrej | ⟨-, -, k, t, -, -, -, -, hget, -, hacc⟩
    · simpa only [hrej, List.append_nil] using h
    · simp only [hacc]
      have hprofile : (t.push addr val).unit.profile = p := h.profile k t hget
      refine h.set hprofile _ (fun a v => ?_) fun s hs => ?_
      · exact readInto_concat_of_ne (by rintro _ _ ⟨⟩)
      · exact (h.pending k t hget s hs).imp_right fun hread => hread.append _
  | thread k =>
    rcases hget : f.units[k]? with _ | t
    · simpa only [r, fleetStep, hget, List.append_nil] using h
    · exact h.thread hp api hget
  | stop k =>
    simp only [r, fleetStep, List.append_nil]
    exact h.stop k

end LoopCharger.Ups

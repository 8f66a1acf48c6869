import LoopCharger.Lib.Progress
import LoopCharger.Ups.Bridge

/-!
# How long a command waits

A write that the bridge has queued waits for the thread of its unit: until a scan that is under way
has come to its end, and until the writes before it are sent. The time is counted in steps of this
thread, whatever the bridge and the other threads do between them.

## Main definitions

* `Phase.distance`: the steps to the next look at the queue.
* `UnitThread.delayTo`: the steps until the first `n` writes are sent.

## Main results

* `distance_le`: the distance of a unit, in every run.
* `accepted_sent_within`: what is accepted is sent, or the connection ends.
-/

namespace LoopCharger.Ups

open Lib Modbus DeviceMap

/-! ### Distances -/

/-- The steps of a scan that has the segments `segs` left: a request, the stores and the end of
each. -/
def scanSteps (segs : List (List DeviceRegisterMapping)) : ℕ :=
  (segs.map fun seg => seg.length + 2).sum + 1

/-- The steps that a thread is away from the next write, if one waits. -/
def Phase.distance : Phase → ℕ
  | .writing _ => 0
  | .draining => 1
  | .polling => 2
  | .scanning _ segs => scanSteps segs + 2
  | .storing stores _ segs => stores.length + 1 + (scanSteps segs + 2)
  | .failed => 1
  | .connecting | .stopped => 0

variable {γ : Type*}

theorem length_readToPoolStores_le (profile : DeviceMapProfile) (buf : List UInt16)
    (seg : List DeviceRegisterMapping) :
    (readToPoolStores profile buf (segmentStart seg) (segmentCount seg).toNat).length ≤
      seg.length := by
  refine (List.length_filterMap_le _ _).trans ?_
  rw [List.length_range, Int.toNat_natCast, segmentCount, UInt16.toNat_ofNat']
  exact Nat.mod_le _ _

theorem scanSteps_cons (seg : List DeviceRegisterMapping)
    (segs : List (List DeviceRegisterMapping)) :
    scanSteps (seg :: segs) = seg.length + 2 + scanSteps segs := by
  rw [scanSteps, scanSteps, List.map_cons, List.sum_cons, Nat.add_assoc]

/-- What a step does to the distance. -/
inductive DistanceStep (t t' : UnitThread γ) : Prop
  /-- Nothing waits, and a scan begins. -/
  | scan (hphase : t.phase = .draining) (hcount : t.unit.cmdQueue.count = 0)
      (h : t'.phase.distance = scanSteps (segments t.unit.profile) + 2)
  | wrote (cmd : UpsWriteCmd) (hphase : t.phase = .writing cmd) (h : t'.phase = .draining)
  | connected (hphase : t.phase = .connecting) (h : t'.phase = .polling)
  /-- The thread is without a connection. -/
  | ended (h : t'.phase.connected = false)
  | nearer (hc : t'.phase.connected = true) (h : t'.phase.distance < t.phase.distance)

theorem distance_threadStep (api : UnitApi γ) (t : UnitThread γ) :
    DistanceStep t (threadStep api t).1 := by
  cases hphase : t.phase with
  | connecting =>
    by_cases hrunning : t.running = true
    · by_cases hrc : (upsTcpInitCallback api t.cfg t.unit).1 = 0
      · exact .connected hphase (by simp [threadStep, hphase, hrunning, hrc])
      · exact .ended (by simp [threadStep, hphase, hrunning, hrc, Phase.connected])
    · exact .ended (by simp [threadStep, hphase, hrunning, Phase.connected])
  | polling =>
    by_cases hrunning : t.running = true
    · have hstep : (threadStep api t).1.phase = .draining := by simp [threadStep, hphase, hrunning]
      exact .nearer (by rw [hstep]; rfl) (by rw [hstep, hphase]; decide)
    · exact .ended (by simp [threadStep, hphase, hrunning, Phase.connected])
  | draining =>
    by_cases hzero : t.unit.cmdQueue.count = 0
    · have hpop : queuePop t.unit.cmdQueue = (none, t.unit.cmdQueue) := if_pos hzero
      exact .scan hphase hzero (by simp only [threadStep, hphase, hpop, Phase.distance])
    · obtain ⟨cmd, q, hpop⟩ : ∃ cmd q, queuePop t.unit.cmdQueue = (some cmd, q) :=
        ⟨_, _, if_neg hzero⟩
      have hstep : (threadStep api t).1.phase = .writing cmd := by
        simp only [threadStep, hphase, hpop]
      exact .nearer (by rw [hstep]; rfl) (by rw [hstep, hphase]; exact Nat.zero_lt_one)
  | writing cmd => exact .wrote cmd hphase (by simp only [threadStep, hphase])
  | scanning buf segs =>
    cases segs with
    | nil =>
      have hstep : (threadStep api t).1.phase = .polling := by simp only [threadStep, hphase]
      exact .nearer (by rw [hstep]; rfl) (by rw [hstep, hphase]; exact Nat.lt_succ_self 2)
    | cons seg segs =>
      have hsteps := scanSteps_cons seg segs
      have hone : 0 < scanSteps segs := Nat.succ_pos _
      by_cases hrc : (api.readHoldingRegisters t.unit.tcpCtx (segmentStart seg)
          (segmentCount seg)).1.rc = MB_TCP_CLIENT_OK
      · obtain ⟨buf', hstep⟩ : ∃ buf', (threadStep api t).1.phase =
            .storing (readToPoolStores t.unit.profile buf' (segmentStart seg)
              (segmentCount seg).toNat) buf' segs :=
          ⟨_, by simp only [threadStep, hphase, hrc, ne_eq, not_true_eq_false, if_false]; rfl⟩
        have hstores := length_readToPoolStores_le t.unit.profile buf' seg
        refine .nearer (by rw [hstep]; rfl) ?_
        rw [hstep, hphase, Phase.distance, Phase.distance, hsteps]
        omega
      · by_cases hfail : t.unit.commFailCount + 1 ≥ UPS_COMM_FAIL_THRESHOLD
        · have hstep : (threadStep api t).1.phase = .failed := by
            simp only [threadStep, hphase, hrc, ne_eq, not_false_eq_true, if_true, hfail]
          refine .nearer (by rw [hstep]; rfl) ?_
          rw [hstep, hphase, Phase.distance, Phase.distance]
          omega
        · obtain ⟨buf', hstep⟩ : ∃ buf', (threadStep api t).1.phase = .scanning buf' segs :=
            ⟨_, by simp only [threadStep, hphase, hrc, ne_eq, not_false_eq_true, if_true, hfail,
              if_false]; rfl⟩
          refine .nearer (by rw [hstep]; rfl) ?_
          rw [hstep, hphase, Phase.distance, Phase.distance, hsteps]
          omega
  | storing stores buf segs =>
    cases stores with
    | nil =>
      have hstep : (threadStep api t).1.phase = .scanning buf segs := by
        simp only [threadStep, hphase]
      refine .nearer (by rw [hstep]; rfl) ?_
      rw [hstep, hphase, Phase.distance, Phase.distance]
      exact Nat.lt_add_of_pos_left (Nat.succ_pos _)
    | cons s stores =>
      have hstep : (threadStep api t).1.phase = .storing stores buf segs := by
        simp only [threadStep, hphase]
      refine .nearer (by rw [hstep]; rfl) ?_
      rw [hstep, hphase, Phase.distance, Phase.distance, List.length_cons]
      omega
  | failed => exact .ended (by simp only [threadStep, hphase]; rfl)
  | stopped => exact .ended (by simp only [threadStep, hphase]; rfl)

theorem Phase.distance_of_not_connected {p : Phase} (h : p.connected = false) :
    p.distance = 0 := by
  cases p with
  | connecting => rfl
  | stopped => rfl
  | _ => exact absurd h (by simp [Phase.connected])

/-- The distance is never longer than a scan. -/
theorem distance_le_threadStep (api : UnitApi γ) {t : UnitThread γ}
    (h : t.phase.distance ≤ scanSteps (segments t.unit.profile) + 2) :
    (threadStep api t).1.phase.distance ≤
      scanSteps (segments (threadStep api t).1.unit.profile) + 2 := by
  rw [(threadStep_cfg api t).2]
  cases distance_threadStep api t with
  | scan hphase hcount hscan => exact hscan.le
  | wrote cmd hphase hdrain =>
    rw [hdrain]
    exact Nat.le_add_left 1 _
  | connected hphase hpoll =>
    rw [hpoll]
    exact Nat.le_add_left 2 _
  | ended hend =>
    rw [Phase.distance_of_not_connected hend]
    exact Nat.zero_le _
  | nearer hc hlt => exact hlt.le.trans h

/-! ### Writes that wait -/

section Writes

variable {σ : Type*} {map : UidProfileMap} {t : UnitThread (Client (σ × List Bytes) × ℕ)}
  {ws : List (UInt16 × UInt16)}

/-- Every accepted write is sent or waits. -/
theorem Delivers.length_eq (h : Delivers map t ws) :
    t.written.length + t.outstanding.length = ws.length := by
  obtain ⟨sent, rest, rfl, hsent, hrest⟩ := h.split
  have hlen := congrArg List.length hsent
  rw [List.length_map, List.length_map] at hlen
  rw [hlen, hrest, List.length_map, List.length_append]

theorem Delivers.length_outstanding_le (h : Delivers map t ws) :
    t.outstanding.length ≤ UPS_CMD_QUEUE_CAPACITY + 1 := by
  have hcount : t.unit.cmdQueue.pending.length ≤ UPS_CMD_QUEUE_CAPACITY := by
    rw [UpsCmdQueue.length_pending]
    exact h.queue.count_le
  unfold UnitThread.outstanding
  split
  · rw [List.length_cons]
    omega
  · omega

/-- The steps of a thread until its unit has sent the first `n` of the accepted writes. -/
def UnitThread.delayTo (n : ℕ) (t : UnitThread (Client (σ × List Bytes) × ℕ)) : ℕ :=
  t.phase.distance + 2 * (n - t.written.length)

/-- A step of a thread with writes that wait comes nearer to the last of them. -/
theorem Delivers.delayTo_thread (h : Delivers map t ws) (N : Network σ)
    (stack : ℕ → ResponseBuffer) (hc : t.phase.connected = true) {n : ℕ} (hn : n ≤ ws.length)
    (hwait : t.written.length < n) :
    let t' := (threadStep (clientUnitApi N.logged stack) t).1
    t'.phase.connected = false ∨
      t'.phase.connected = true ∧ t'.delayTo n < t.delayTo n := by
  intro t'
  have hlen := h.length_eq
  have hlen' := (h.thread N stack).length_eq
  change t'.written.length + t'.outstanding.length = ws.length at hlen'
  obtain ⟨-, hout⟩ := threadStep_queue (clientUnitApi N.logged stack) h.queue
  -- A step that does not write leaves what waits as it is.
  have hsame : (∀ cmd, t.phase ≠ .writing cmd) → t'.written.length = t.written.length := by
    intro hne
    have := congrArg List.length (hout hne)
    change t'.outstanding.length = t.outstanding.length at this
    omega
  cases distance_threadStep (clientUnitApi N.logged stack) t with
  | scan hphase hcount hscan =>
    have hnil : t.outstanding.length = 0 := by
      rw [UnitThread.outstanding_of_ne fun cmd => by rw [hphase]; exact Phase.noConfusion,
        UpsCmdQueue.length_pending, hcount]
    omega
  | wrote cmd hphase hdrain =>
    have hqueue := (threadStep_of_ne_draining (clientUnitApi N.logged stack)
      (show t.phase ≠ .draining by rw [hphase]; exact Phase.noConfusion)).1
    have hone : t'.written.length = t.written.length + 1 := by
      have hcons : t.outstanding.length = t.unit.cmdQueue.pending.length + 1 := by
        simp only [UnitThread.outstanding, hphase, List.length_cons]
      have hrest : t'.outstanding = t.unit.cmdQueue.pending := by
        rw [UnitThread.outstanding_of_ne fun cmd => by
          rw [show t'.phase = _ from hdrain]; exact Phase.noConfusion]
        exact congrArg UpsCmdQueue.pending hqueue
      rw [hrest] at hlen'
      omega
    refine .inr ⟨by rw [show t'.phase = _ from hdrain]; rfl, ?_⟩
    rw [UnitThread.delayTo, UnitThread.delayTo, hone, show t'.phase = _ from hdrain, hphase]
    simp only [Phase.distance]
    omega
  | connected hphase hpoll =>
    rw [hphase] at hc
    cases hc
  | ended hend => exact .inl hend
  | nearer hconn hlt =>
    have hne : ∀ cmd, t.phase ≠ .writing cmd := by
      rintro cmd hphase
      rw [hphase] at hlt
      exact absurd hlt (Nat.not_lt_zero _)
    refine .inr ⟨hconn, ?_⟩
    rw [UnitThread.delayTo, UnitThread.delayTo, hsame hne]
    exact Nat.add_lt_add_right hlt _

end Writes

/-! ### Runs -/

/-- The steps of the `k`-th thread. -/
def FleetAction.isThread (k : ℕ) : FleetAction → Bool
  | .thread j => j = k
  | _ => false

/-- A step that is not one of its thread leaves the connection of a unit as it is, and the point
where the thread stands. -/
theorem fleetStep_other (map : UidProfileMap) (api : UnitApi γ) (f : Fleet γ) {a : FleetAction}
    {k : ℕ} (ha : a.isThread k = false) {t : UnitThread γ} (hget : f.units[k]? = some t) :
    ∃ u, (fleetStep map api f a).1.units[k]? = some u ∧ u.phase = t.phase ∧
      u.unit.tcpCtx = t.unit.tcpCtx ∧ u.unit.profile = t.unit.profile := by
  cases a with
  | onWrite uid addr val =>
    rcases fleetStep_onWrite_cases map api f uid addr val with
      hrej | ⟨_, _, j, u, -, -, -, -, hj, -, hacc⟩
    · exact ⟨t, by rwa [hrej], rfl, rfl, rfl⟩
    · rw [hacc]
      by_cases hjk : j = k
      · subst hjk
        obtain rfl := Option.some.inj (hj.symm.trans hget)
        exact ⟨u.push addr val, List.getElem?_set_self (List.getElem?_eq_some_iff.mp hget).1, rfl,
          rfl, rfl⟩
      · exact ⟨t, by rw [List.getElem?_set_ne hjk, hget], rfl, rfl, rfl⟩
  | thread j =>
    have hjk : j ≠ k := by simpa [FleetAction.isThread] using ha
    rcases hj : f.units[j]? with _ | u
    · exact ⟨t, by simpa only [fleetStep, hj] using hget, rfl, rfl, rfl⟩
    · exact ⟨t, by simp only [fleetStep, hj, List.getElem?_set_ne hjk, hget], rfl, rfl, rfl⟩
  | stop j =>
    simp only [fleetStep, List.getElem?_modify, hget]
    split_ifs
    · exact ⟨_, rfl, rfl, rfl, rfl⟩
    · exact ⟨_, rfl, rfl, rfl, rfl⟩

theorem fleetStep_thread (map : UidProfileMap) (api : UnitApi γ) {f : Fleet γ} {k : ℕ}
    {t : UnitThread γ} (hget : f.units[k]? = some t) :
    (fleetStep map api f (.thread k)).1.units[k]? = some (threadStep api t).1 := by
  simp only [fleetStep, hget]
  rw [List.getElem?_set_self (List.getElem?_eq_some_iff.mp hget).1]

/-- The distance of every unit in every run. -/
theorem distance_le (map : UidProfileMap) (api : UnitApi γ) (created : ℕ → Bool) (conns : ℕ → γ)
    (ups : List ModuleConfig) (actions : List FleetAction) :
    ∀ t ∈ ((fleetMachine map api).state (Fleet.start map created conns ups) actions).units,
      t.phase.distance ≤ scanSteps (segments t.unit.profile) + 2 := by
  refine (fleetMachine map api).invariant
    (fun f => ∀ t ∈ f.units, t.phase.distance ≤ scanSteps (segments t.unit.profile) + 2)
    (fun t ht => ?_) (fun f a h u hu => ?_) actions
  · rcases mem_startLoop map created conns 0 ups 0 [] ht with hnil | ⟨cfg, profile, j, -, rfl⟩
    · cases hnil
    · exact Nat.zero_le _
  · obtain ⟨k, hget⟩ := List.mem_iff_getElem?.mp hu
    obtain ⟨t, ht, -⟩ := fleetStep_cfg map api f a hget
    have hold := h t (List.mem_of_getElem? ht)
    cases ha : a.isThread k with
    | true =>
      obtain rfl : a = .thread k := by
        cases a <;> simp [FleetAction.isThread] at ha
        rw [ha]
      have hstep := fleetStep_thread map api ht
      obtain rfl := Option.some.inj (hstep.symm.trans hget)
      exact distance_le_threadStep api hold
    | false =>
      obtain ⟨u', hu', hphase, -, hprofile⟩ := fleetStep_other map api f ha ht
      obtain rfl := Option.some.inj (hu'.symm.trans hget)
      rwa [hphase, hprofile]

section Sent

variable {σ : Type*} {map : UidProfileMap}

/-- The thread of a unit is connected, and the unit has accepted `n` writes. -/
def Accepting (map : UidProfileMap) (k n : ℕ) (f : Fleet (Client (σ × List Bytes) × ℕ)) : Prop :=
  ∃ events, AllDeliver map f events ∧ n ≤ (acceptedBy k events).length ∧
    ∃ t, f.units[k]? = some t ∧ t.phase.connected = true

/-- A unit has sent `n` writes, or its connection has ended. -/
def Served (k n : ℕ) (f : Fleet (Client (σ × List Bytes) × ℕ)) : Prop :=
  ∃ t, f.units[k]? = some t ∧ (t.phase.connected = false ∨ n ≤ t.written.length)

/-- The steps of the `k`-th thread until its unit has sent `n` writes. -/
def Fleet.delayTo (k n : ℕ) (f : Fleet (Client (σ × List Bytes) × ℕ)) : ℕ :=
  (f.units[k]?.map (UnitThread.delayTo n)).getD 0

theorem Fleet.delayTo_eq {f : Fleet (Client (σ × List Bytes) × ℕ)} {k : ℕ}
    {t : UnitThread (Client (σ × List Bytes) × ℕ)} (hget : f.units[k]? = some t) (n : ℕ) :
    f.delayTo k n = t.delayTo n := by
  rw [Fleet.delayTo, hget]
  rfl

/-- Every step keeps a unit accepting, and each of its thread brings it nearer. -/
theorem Accepting.step {k n : ℕ} {f : Fleet (Client (σ × List Bytes) × ℕ)}
    (h : Accepting map k n f) (hserved : ¬ Served k n f) (N : Network σ)
    (stack : ℕ → ResponseBuffer) (a : FleetAction) :
    let f' := (fleetStep map (clientUnitApi N.logged stack) f a).1
    Served k n f' ∨
      Accepting map k n f' ∧ f'.delayTo k n + (a.isThread k).toNat ≤ f.delayTo k n := by
  intro f'
  obtain ⟨events, hdeliver, hn, t, hget, hc⟩ := h
  have hnext := hdeliver.step N stack a
  have hn' : ∀ new, n ≤ (acceptedBy k (events ++ new)).length := fun new => by
    rw [acceptedBy_append, List.length_append]
    exact hn.trans (Nat.le_add_right _ _)
  have hwait : t.written.length < n := by
    by_contra hle
    exact hserved ⟨t, hget, .inr (Nat.not_lt.mp hle)⟩
  cases ha : a.isThread k with
  | true =>
    obtain rfl : a = .thread k := by
      cases a <;> simp [FleetAction.isThread] at ha
      rw [ha]
    have hget' : f'.units[k]? = _ := fleetStep_thread map (clientUnitApi N.logged stack) hget
    rcases (hdeliver k t hget).delayTo_thread N stack hc hn hwait with hend | ⟨hconn, hlt⟩
    · exact .inl ⟨_, hget', .inl hend⟩
    · refine .inr ⟨⟨_, hnext, hn' _, _, hget', hconn⟩, ?_⟩
      rw [Fleet.delayTo_eq hget', Fleet.delayTo_eq hget]
      exact hlt
  | false =>
    obtain ⟨u, hu, hphase, htcp, -⟩ :=
      fleetStep_other map (clientUnitApi N.logged stack) f ha hget
    refine .inr ⟨⟨_, hnext, hn' _, u, hu, by rw [hphase, hc]⟩, ?_⟩
    rw [Fleet.delayTo_eq hu, Fleet.delayTo_eq hget, UnitThread.delayTo, UnitThread.delayTo, hphase,
      UnitThread.written, UnitThread.written, htcp]
    exact Nat.le_refl _

/-- Enough steps of a thread serve its unit. -/
theorem exists_served (N : Network σ) (stack : ℕ → ResponseBuffer) {k n : ℕ}
    {f : Fleet (Client (σ × List Bytes) × ℕ)} (h : Accepting map k n f) {actions : List FleetAction}
    (hturns : f.delayTo k n ≤ actions.countP (FleetAction.isThread k)) :
    ∃ first, first <+: actions ∧
      Served k n ((fleetMachine map (clientUnitApi N.logged stack)).state f first) := by
  refine (fleetMachine map (clientUnitApi N.logged stack)).reaches
    (fun f a hacc hserved => hacc.step hserved N stack a) (fun f hacc hzero => ?_) h hturns
  obtain ⟨events, hdeliver, hn, t, hget, hc⟩ := hacc
  rw [Fleet.delayTo_eq hget, UnitThread.delayTo] at hzero
  exact ⟨t, hget, .inr (by omega)⟩

/-- The steps within which a unit of `ups_map.c` answers: a scan, and two for each of the writes
that can wait. -/
def responseBound : ℕ := scanSteps (segments ups1Profile) + 2 + 2 * (UPS_CMD_QUEUE_CAPACITY + 1)

example : responseBound = 61 := by decide

/-- **How long a command waits.** A unit is connected in some state of some run. Within 61 steps of
its thread, whatever the bridge and the other threads do between them, all writes that it had
accepted are sent, in the order in which they were accepted, or its connection has ended. -/
theorem accepted_sent_within (N : Network σ) (stack : ℕ → ResponseBuffer) (created : ℕ → Bool)
    (conns : ℕ → Conn σ × ℕ) (ups : List ModuleConfig) (before actions : List FleetAction) {k : ℕ}
    {t : UnitThread (Client (σ × List Bytes) × ℕ)} :
    let M := fleetMachine upsUidProfileMap (clientUnitApi N.logged stack)
    let start := Fleet.start upsUidProfileMap created (fun i => newClient (conns i)) ups
    (M.state start before).units[k]? = some t → t.phase.connected = true →
      responseBound ≤ actions.countP (FleetAction.isThread k) →
      ∃ first u, first <+: actions ∧ (M.state start (before ++ first)).units[k]? = some u ∧
        (u.phase.connected = false ∨
          ((acceptedBy k (M.trace start before)).map fun w => some (u.request w)) <+:
            u.written.map decodeWriteRequest) := by
  intro M start hget hc hturns
  have hrun : ∀ as, AllDeliver upsUidProfileMap (M.state start as) (M.trace start as) :=
    M.trace_invariant (AllDeliver upsUidProfileMap)
      (allDeliver_start upsUidProfileMap created conns ups) fun f events a h => h.step N stack a
  have ht := hrun before k t hget
  have hprofile : t.unit.profile = ups1Profile :=
    congrArg Prod.snd (List.mem_singleton.mp (mem_of_upsFindProfileByUid ht.profile))
  have hdelay : (M.state start before).delayTo k (acceptedBy k (M.trace start before)).length ≤
      responseBound := by
    have hdistance := distance_le upsUidProfileMap (clientUnitApi N.logged stack) created
      (fun i => newClient (conns i)) ups before t (List.mem_of_getElem? hget)
    have hlen := ht.length_eq
    have hout := ht.length_outstanding_le
    rw [hprofile] at hdistance
    rw [Fleet.delayTo_eq hget, UnitThread.delayTo, responseBound]
    omega
  obtain ⟨first, hfirst, u, hu, hserved⟩ := exists_served N stack
    ⟨_, hrun before, Nat.le_refl _, t, hget, hc⟩ (hdelay.trans hturns)
  rw [← Machine.state_append] at hu
  refine ⟨first, u, hfirst, hu, hserved.imp_right fun hsent => ?_⟩
  obtain ⟨sent, rest, hws, hdecode, -⟩ := (hrun (before ++ first) k u hu).split
  have hlen := congrArg List.length hdecode
  rw [List.length_map, List.length_map] at hlen
  rw [M.trace_append, acceptedBy_append] at hws
  rw [hdecode]
  have hsent' := List.prefix_append sent rest
  rw [← hws] at hsent'
  refine List.IsPrefix.map _ ?_
  exact List.prefix_of_prefix_length_le (List.prefix_append _ _) hsent' (hlen ▸ hsent)

/-- A self test that is accepted by a connected unit. -/
theorem accepted_sent_within_first :
    let M := fleetMachine upsUidProfileMap
      (clientUnitApi silentNetwork.logged fun _ => Vector.replicate _ 0)
    let start := Fleet.start upsUidProfileMap (fun _ => true)
      (fun _ => newClient (⟨.other 0, ()⟩, 0)) [⟨true, 1, "192.168.1.10", 502⟩]
    let before : List FleetAction := [.thread 0, .onWrite 1 18 7]
    ∃ first u, first <+: List.replicate 61 (.thread 0) ∧
      (M.state start (before ++ first)).units[0]? = some u ∧
        (u.phase.connected = false ∨
          [some (u.request (18, 7))] <+: u.written.map decodeWriteRequest) := by
  intro M start before
  obtain ⟨t, ht⟩ : ∃ t, (M.state start before).units[0]? = some t :=
    Option.isSome_iff_exists.mp (by decide +kernel)
  have hc : (M.state start before).units[0]?.map (fun t => t.phase.connected) = some true := by
    decide +kernel
  have haccepted : acceptedBy 0 (M.trace start before) = [(18, 7)] := by decide +kernel
  rw [ht] at hc
  have h := accepted_sent_within silentNetwork (fun _ => Vector.replicate _ 0) (fun _ => true)
    (fun _ => (⟨.other 0, ()⟩, 0)) [⟨true, 1, "192.168.1.10", 502⟩] before
    (List.replicate 61 (.thread 0)) ht (Option.some.inj hc) (by decide +kernel)
  rwa [haccepted] at h

end Sent

end LoopCharger.Ups

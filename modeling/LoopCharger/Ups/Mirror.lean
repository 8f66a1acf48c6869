import LoopCharger.Lib.Keyed
import LoopCharger.Modbus.Device
import LoopCharger.Ups.Gateway
import LoopCharger.Ups.Permission

/-!
# The pool as a mirror of the device

One unit with a device that carries out every request in time. The thread of the unit sends the
writes that are queued and reads the registers of its profile into the pool, and the bridge queues
writes at any time. Whenever the thread is back at the head of its inner loop, the pool has what the
device has, and that is what has been written to it.

## Main definitions

* `Settled`: the connection of a unit between two calls.
* `AtRest`: the connection of a callback.
* `Mirrored`: what of the pool is up to date, at each point of the thread.

## Main results

* `processCallback_mirrors_device`: what one callback leaves in the pool.
* `regs_of_written`: the registers of the device are what has been written.
* `pool_mirrors_device`: what is read of the pool, in every run.
-/

namespace LoopCharger.Ups

open Lib Modbus DeviceMap

/-- A unit with its device. -/
abbrev DeviceUnit := UnitThread (Client (Device × List Bytes) × ℕ)

/-- The registers of the device of a unit. -/
def UnitThread.regs (t : DeviceUnit) : RegisterFile := t.unit.tcpCtx.1.conn.net.1.regs

/-- The calls of a unit on the connection to its device. -/
abbrev deviceApi (stack : ℕ → ResponseBuffer) : UnitApi (Client (Device × List Bytes) × ℕ) :=
  clientUnitApi deviceNetwork.logged stack

/-! ### The connection -/

/-- Between two calls nothing is under way on the connection of a unit, and the device has carried
out all requests. -/
structure Settled (R : RegisterFile) (t : DeviceUnit) : Prop where
  idle : t.phase.connected = true → t.unit.tcpCtx.1.conn.net.1.ready = []
  faithful : Faithful R t.unit.tcpCtx.1

variable {R : RegisterFile} {t : DeviceUnit}

/-- A step of the thread makes one call at most. -/
theorem Settled.thread (h : Settled R t) (honline : t.phase.connected = true → t.Online)
    (stack : ℕ → ResponseBuffer) : Settled R (threadStep (deviceApi stack) t).1 := by
  have hcall : t.phase.connected = true → ∀ q : Request, _ := fun hc q =>
    h.faithful.call (honline hc).1 (h.idle hc) q (stack t.unit.tcpCtx.2)
  rcases threadStep_conn (deviceApi stack) t with ⟨cmd, hphase⟩ | ⟨-, hconn⟩
  · have hc : t.phase.connected = true := by rw [hphase]; rfl
    have hwritten : (threadStep (deviceApi stack) t).1.unit.tcpCtx =
        (writeRegistersToDevice (deviceApi stack).toModbusApi t.unit.tcpCtx cmd.addr cmd.value
          cmd.count cmd.mode).2 := by simp only [threadStep, hphase]
    rcases writeRegistersToDevice_cases deviceNetwork.logged.toTransport stack t.unit.tcpCtx
      cmd.addr cmd.value cmd.count cmd.mode with hsame | ⟨q, -, hsent⟩
    · have htcp := hwritten.trans hsame
      exact ⟨fun _ => htcp ▸ h.idle hc, htcp ▸ h.faithful⟩
    · have htcp := (congrArg Prod.fst hwritten).trans hsent
      exact ⟨fun _ => htcp ▸ (hcall hc q).2, htcp ▸ (hcall hc q).1⟩
  · generalize (threadStep (deviceApi stack) t).1 = t' at hconn ⊢
    cases hconn with
    | same htcp hc => exact ⟨fun hc' => htcp ▸ h.idle (hc hc'), htcp ▸ h.faithful⟩
    | connect htcp hc =>
      obtain ⟨hfaithful, hready⟩ := h.faithful.connect t.cfg.client
      exact ⟨fun hc' => htcp ▸ hready (hc hc'), htcp ▸ hfaithful⟩
    | disconnect htcp hc =>
      exact ⟨fun hc' => absurd (hc'.symm.trans hc) (by decide), htcp ▸ h.faithful.disconnect⟩
    | read addr qty htcp hc =>
      obtain ⟨hfaithful, hready⟩ := hcall hc (.read addr qty)
      exact ⟨fun _ => htcp ▸ hready, htcp ▸ hfaithful⟩

/-! ### A callback -/

/-- A connected client with nothing under way, whose device has carried out all requests. -/
structure AtRest (R : RegisterFile) (c : Client (Device × List Bytes) × ℕ) : Prop where
  sock : 0 ≤ c.1.ctx.sock
  idle : c.1.conn.net.1.ready = []
  faithful : Faithful R c.1

variable {c c' : Client (Device × List Bytes) × ℕ}

theorem AtRest.call (h : AtRest R c) (q : Request) (resp : ResponseBuffer)
    (hc : c'.1 = (q.call deviceNetwork.logged.toTransport c.1 resp).2) : AtRest R c' := by
  obtain ⟨hfaithful, hready⟩ := h.faithful.call h.sock h.idle q resp
  have hctx := (Request.ctx_call deviceNetwork.logged.toTransport c.1 q resp).1
  exact ⟨by rw [hc, hctx]; exact h.sock, hc ▸ hready, hc ▸ hfaithful⟩

/-- The queue of a unit is written to the device. -/
theorem AtRest.drainLoop (h : AtRest R c) (stack : ℕ → ResponseBuffer) (n : ℕ)
    (q : UpsCmdQueue) :
    AtRest R (drainLoop (clientApi deviceNetwork.logged.toTransport stack) n q c).2 := by
  induction n generalizing q c with
  | zero => exact h
  | succ n ih =>
    simp only [Ups.drainLoop]
    rcases queuePop q with ⟨_ | cmd, q'⟩
    · exact h
    · refine ih ?_ q'
      rcases writeRegistersToDevice_cases deviceNetwork.logged.toTransport stack c cmd.addr
        cmd.value cmd.count cmd.mode with hsame | ⟨req, -, hsent⟩
      · rwa [hsame]
      · exact h.call req _ hsent

/-- A device at rest answers with its registers, which a read does not change. -/
theorem answersIn_device (R D : RegisterFile) (stack : ℕ → ResponseBuffer) :
    AnswersIn (clientApi deviceNetwork.logged.toTransport stack)
      (fun c => AtRest R c ∧ c.1.conn.net.1.regs = D) D where
  out c addr qty h hrc := by
    have hq : (Request.read addr qty).valid = true := by
      by_contra hq
      have hcall : (Request.read addr qty).call deviceNetwork.logged.toTransport c.1 (stack c.2) =
          _ := Request.call_of_not_ready (fun hboth => hq hboth.1) _
      have hrefusal : (Request.read addr qty).refusal = MB_TCP_CLIENT_OK :=
        (congrArg (fun r => r.1.rc) hcall).symm.trans hrc
      rw [Request.refusal, if_neg hq] at hrefusal
      exact absurd hrefusal (by decide)
    obtain ⟨hreply, -⟩ := call_device h.1.sock h.1.idle _ hq (stack c.2)
    rw [h.2] at hreply
    exact congrArg Reply.out hreply
  keeps c addr qty h := by
    refine ⟨h.1.call (.read addr qty) (stack c.2) rfl, ?_⟩
    by_cases hq : (Request.read addr qty).valid = true
    · obtain ⟨-, -, hregs⟩ := call_device h.1.sock h.1.idle _ hq (stack c.2)
      exact hregs.trans h.2
    · have hcall : (Request.read addr qty).call deviceNetwork.logged.toTransport c.1 (stack c.2) =
          _ := Request.call_of_not_ready (fun hboth => hq hboth.1) _
      exact (congrArg (fun r => r.2.conn.net.1.regs) hcall).trans h.2

/-- The arguments of the read of a segment are in range. -/
theorem IsSegment.valid {profile : DeviceMapProfile} {seg : List DeviceRegisterMapping}
    (h : IsSegment profile seg) :
    (Request.read (segmentStart seg) (segmentCount seg)).valid = true := by
  refine decide_eq_true ⟨fun hzero => ?_, h.toNat_segmentCount ▸ h.length_le⟩
  have hlength := h.toNat_segmentCount
  rw [hzero] at hlength
  exact h.ne_nil (List.length_eq_zero_iff.mp hlength.symm)

/-- **A callback mirrors the device.** The queued writes are sent, and then every row of the profile
has, in the pool, what the device has; the slots of no row keep their values. -/
theorem processCallback_mirrors_device {u : UpsUnit (Client (Device × List Bytes) × ℕ)}
    (h : AtRest R u.tcpCtx) (hp : u.profile.WellFormed)
    (hchunk : u.profile.readChunk.toNat ≤ MODBUS_MAX_READ_REGISTERS) (stack : ℕ → ResponseBuffer)
    (pool : Pool) :
    let r := upsTcpProcessCallback (clientApi deviceNetwork.logged.toTransport stack) u pool
    r.rc = 0 ∧ AtRest R r.unit.tcpCtx ∧
      (∀ m ∈ u.profile.table, ∀ slot, poolSlot m.poolAddress = some slot →
        r.pool slot = R.after r.unit.tcpCtx.1.log m.deviceAddress) ∧
      ∀ slot, (∀ m ∈ u.profile.table, poolSlot m.poolAddress ≠ some slot) →
        r.pool slot = pool slot := by
  intro r
  let api := clientApi deviceNetwork.logged.toTransport stack
  have hdrained : AtRest R (drainQueue api u.cmdQueue u.tcpCtx).2 := h.drainLoop stack _ _
  let D := (drainQueue api u.cmdQueue u.tcpCtx).2.1.conn.net.1.regs
  have hok : ∀ c : Client (Device × List Bytes) × ℕ, AtRest R c ∧ c.1.conn.net.1.regs = D →
      ∀ seg ∈ segments u.profile,
        (api.readHoldingRegisters c (segmentStart seg) (segmentCount seg)).1.rc =
          MB_TCP_CLIENT_OK := fun c hc seg hseg => by
    have hvalid := (isSegment_of_mem_segments hchunk hseg).valid
    exact congrArg Reply.rc (call_device hc.1.sock hc.1.idle _ hvalid (stack c.2)).1
  obtain ⟨hrc, ⟨hrest, hregs⟩, hrows, hothers⟩ :=
    processCallback_of_succeeds (answersIn_device R D stack) u ⟨hdrained, rfl⟩ hp hchunk hok pool
  refine ⟨hrc, hrest, fun m hm slot hslot => ?_, hothers⟩
  have hfaithful : r.unit.tcpCtx.1.conn.net.1.regs = R.after r.unit.tcpCtx.1.log := hrest.faithful
  rw [hrows m hm slot hslot, ← hfaithful]
  exact congrFun hregs.symm _

/-- A profile with a gap, and a unit with a write in its queue, whose device has its own addresses
in its registers. -/
theorem processCallback_mirrors_device_gap :
    let profile : DeviceMapProfile := ⟨"gap",
      [⟨3, 7, .ro, ""⟩, ⟨4, 5, .rw, ""⟩, ⟨9, 6, .ro, ""⟩], 50⟩
    let cl : Client (Device × List Bytes) :=
      ⟨⟨3, 7, ⟨"192.168.1.10", 502, 1⟩⟩, ⟨.other 0, ⟨id, [], [3, 0, 8]⟩, []⟩⟩
    let u : UpsUnit (Client (Device × List Bytes) × ℕ) :=
      ⟨profile, (cl, 0), 4, (queuePush queueInit 4 (fun _ => 700) 1 .auto).2⟩
    let stack : ℕ → ResponseBuffer := fun _ => Vector.replicate _ 0
    let r := upsTcpProcessCallback (clientApi deviceNetwork.logged.toTransport stack) u fun _ => 1
    r.rc = 0 ∧ r.pool ⟨5, by decide⟩ = 700 ∧ r.pool ⟨6, by decide⟩ = 9 ∧
      r.pool ⟨8, by decide⟩ = 1 := by
  intro profile cl u stack r
  have hp : profile.WellFormed := by
    refine ⟨?_, by decide, ?_⟩
    · simp only [DeviceMapProfile.Ascending, profile]
      decide
    · simp only [profile]
      decide
  have hrest : AtRest id u.tcpCtx := ⟨by decide, rfl, rfl⟩
  obtain ⟨hrc, -, hrows, hothers⟩ :=
    processCallback_mirrors_device hrest hp (by decide) stack fun _ => 1
  refine ⟨hrc, ?_, ?_, hothers ⟨8, by decide⟩ (by decide)⟩
  · exact (hrows ⟨4, 5, .rw, ""⟩ (by decide) ⟨5, by decide⟩ rfl).trans (by decide +kernel)
  · exact (hrows ⟨9, 6, .ro, ""⟩ (by decide) ⟨6, by decide⟩ rfl).trans (by decide +kernel)

/-! ### What has been written -/

/-- The writes of single registers, carried out one after the other. -/
theorem after_of_decode (R : RegisterFile) (uid : UInt8) (log : List Bytes)
    (ws : List (UInt16 × UInt16))
    (h : log.map decodeWriteRequest = ws.map fun w => some ⟨uid, w.1, [w.2]⟩) (a : UInt16) :
    R.after log a = (lastWrite ws a).getD (R a) := by
  have hfold : R.after log = ws.foldl (writeKey some) R := by
    induction log generalizing R ws with
    | nil => rw [List.map_eq_nil_iff.mp h.symm]; rfl
    | cons req log ih =>
      cases ws with
      | nil => cases h
      | cons w ws =>
        obtain ⟨hreq, hlog⟩ := List.cons.inj h
        have hserved : (R.served req).1 = writeKey some R w := by
          simp only [RegisterFile.served, hreq, RegisterFile.write_singleton]
          rfl
        exact (congrArg (RegisterFile.after · log) hserved).trans (ih _ ws hlog)
  have hinj : InjectivePlace (some : UInt16 → Option UInt16) Set.univ :=
    fun k _ k' _ i hk hk' => Option.some.inj (hk.trans hk'.symm)
  rw [hfold]
  exact Option.some.inj (readKey_foldl_writeKey hinj R ws (fun _ _ => trivial) trivial)

/-- **The registers of the device are what has been written.** They have the values of the writes
that the unit has accepted and sent; the writes behind these are still waiting. -/
theorem regs_of_written (h : Settled R t) {map : UidProfileMap} {ws : List (UInt16 × UInt16)}
    (hdeliver : Delivers map t ws) :
    ∃ sent rest, ws = sent ++ rest ∧ t.outstanding = rest.map registerWrite ∧
      ∀ a, t.regs a = (lastWrite sent a).getD (R a) := by
  obtain ⟨sent, rest, hws, hsent, hrest⟩ := hdeliver.split
  refine ⟨sent, rest, hws, hrest, fun a => ?_⟩
  have hregs : t.regs = R.after t.unit.tcpCtx.1.log := h.faithful
  rw [hregs, ← RegisterFile.after_filter]
  exact after_of_decode R _ _ sent hsent a

/-! ### What is up to date -/

/-- The slot of a row has what the device has. -/
def UpToDate (t : DeviceUnit) (pool : Pool) (m : DeviceRegisterMapping) : Prop :=
  ∀ slot, poolSlot m.poolAddress = some slot → pool slot = t.regs m.deviceAddress

/-- A store that is under way is of a register as the device has it. -/
def IsCurrent (t : DeviceUnit) (s : PoolStore) : Prop :=
  poolStore t.unit.profile s.deviceAddress s.value = some s ∧ s.value = t.regs s.deviceAddress

/-- What of the pool is up to date: after a first read all rows at the head of the inner loop, and
in a scan the rows behind it. No request fails. -/
def Mirrored (t : DeviceUnit) (pool : Pool) (hasRead : Prop) : Prop :=
  match t.phase with
  | .connecting => t.running = true → ¬ hasRead
  | .polling => hasRead → ∀ m ∈ t.unit.profile.table, UpToDate t pool m
  | .scanning _ segs => ∀ m ∈ t.unit.profile.table, m ∉ segs.flatten → UpToDate t pool m
  | .storing stores _ segs => (∀ s ∈ stores, IsCurrent t s) ∧
      ∀ m ∈ t.unit.profile.table, m ∉ segs.flatten →
        UpToDate t pool m ∨ ∃ s ∈ stores, s.deviceAddress = m.deviceAddress
  | .failed => False
  | .draining | .writing _ | .stopped => True

/-- A store that is current makes its row up to date, and leaves the others. -/
theorem IsCurrent.store {s : PoolStore} (h : IsCurrent t s) (hp : t.unit.profile.WellFormed)
    {pool : Pool} {m : DeviceRegisterMapping} (hm : m ∈ t.unit.profile.table)
    (hrow : UpToDate t pool m ∨ s.deviceAddress = m.deviceAddress) :
    UpToDate t (pool.store s) m := by
  intro slot hslot
  obtain ⟨m', hfind, hslot', -, -⟩ := poolStore_eq_some_iff.mp h.1
  obtain ⟨hm', haddr⟩ := deviceFindSlot_sound hfind
  by_cases heq : m' = m
  · subst heq
    obtain rfl : s.slot = slot := Option.some.inj (hslot'.symm.trans hslot)
    rw [Pool.store, Function.update_self, h.2, haddr]
  · have hne : slot ≠ s.slot := by
      rintro rfl
      exact slot_ne_of_ne hp hm hm' (Ne.symm heq) hslot hslot'
    have hother : s.deviceAddress ≠ m.deviceAddress := fun hsame =>
      heq (hp.ascending.eq_of_deviceAddress_eq hm' hm (haddr.trans hsame))
    rw [Pool.store, Function.update_of_ne hne]
    exact hrow.resolve_right hother slot hslot

/-! ### The stores of a segment -/

section Segment

variable {p : DeviceMapProfile} {seg : List DeviceRegisterMapping} {D : UInt16 → UInt16}
  {buf : List UInt16}

/-- What is stored of a segment is what the device has. -/
theorem IsSegment.value_eq (h : IsSegment p seg) (hbuf : Holds D (segmentStart seg) buf seg.length)
    {s : PoolStore}
    (hs : s ∈ readToPoolStores p buf (segmentStart seg) (segmentCount seg).toNat) :
    poolStore p s.deviceAddress s.value = some s ∧ s.value = D s.deviceAddress := by
  obtain ⟨i, hi, hstore⟩ := mem_readToPoolStores.mp hs
  obtain ⟨m, -, -, hdev, hvalue⟩ := poolStore_eq_some_iff.mp hstore
  have hi : i < seg.length := h.toNat_segmentCount ▸ hi
  exact ⟨by rw [hdev, hvalue, hstore], by rw [hvalue, hdev, hbuf i hi]⟩

/-- Every row of a segment is stored. -/
theorem IsSegment.exists_store (h : IsSegment p seg) (hp : p.WellFormed)
    {m : DeviceRegisterMapping} (hm : m ∈ seg) :
    ∃ s ∈ readToPoolStores p buf (segmentStart seg) (segmentCount seg).toNat,
      s.deviceAddress = m.deviceAddress := by
  have hmem := h.mem_table m hm
  obtain ⟨j, hj, rfl⟩ := List.getElem_of_mem hm
  obtain ⟨slot, hslot⟩ : ∃ slot, poolSlot seg[j].poolAddress = some slot :=
    ⟨⟨_, hp.inPool _ hmem⟩, poolSlot_eq_some_iff.mpr rfl⟩
  refine ⟨⟨seg[j].deviceAddress, slot, buf.getD j 0⟩, mem_readToPoolStores.mpr ⟨j, ?_, ?_⟩, rfl⟩
  · exact h.toNat_segmentCount ▸ hj
  · rw [← h.deviceAddress_eq hj]
    exact poolStore_eq_some_iff.mpr ⟨_, hp.ascending.find hmem, hslot, rfl, rfl⟩

end Segment

/-! ### A step of the thread -/

/-- The read of a segment returns the registers of the device, and leaves them. -/
theorem read_device (hsock : 0 ≤ t.unit.tcpCtx.1.ctx.sock)
    (hready : t.unit.tcpCtx.1.conn.net.1.ready = []) {seg : List DeviceRegisterMapping}
    (hseg : IsSegment t.unit.profile seg) (stack : ℕ → ResponseBuffer) :
    let r := (deviceApi stack).readHoldingRegisters t.unit.tcpCtx (segmentStart seg)
      (segmentCount seg)
    r.1 = ⟨MB_TCP_CLIENT_OK, (List.range seg.length).map (t.regs.read (segmentStart seg))⟩ ∧
      r.2.1.conn.net.1.regs = t.regs := by
  intro r
  obtain ⟨hreply, -, hregs⟩ := call_device hsock hready _ hseg.valid (stack t.unit.tcpCtx.2)
  refine ⟨?_, hregs⟩
  rw [← hseg.toNat_segmentCount]
  exact hreply

/-- **A step of the thread keeps the mirror.** -/
theorem Mirrored.thread {pool : Pool} {hasRead hasRead' : Prop} (h : Mirrored t pool hasRead)
    (hidle : t.phase.connected = true → t.unit.tcpCtx.1.conn.net.1.ready = [])
    (honline : t.phase.connected = true → t.Online)
    (hsegs : ∀ seg ∈ t.phase.unread, IsSegment t.unit.profile seg)
    (hp : t.unit.profile.WellFormed) (stack : ℕ → ResponseBuffer)
    (hsame : (threadStep (deviceApi stack) t).2 = [] → hasRead' → hasRead) :
    Mirrored (threadStep (deviceApi stack) t).1
      (poolAfter pool (threadStep (deviceApi stack) t).2) hasRead' := by
  cases hphase : t.phase with
  | connecting =>
    simp only [Mirrored, hphase] at h
    by_cases hrunning : t.running = true
    · have hnever : ¬ hasRead' := fun hread => h hrunning (hsame (by
        simp only [threadStep, hphase, if_pos hrunning]) hread)
      simp only [threadStep, hphase, if_pos hrunning]
      split_ifs
      · exact fun _ => hnever
      · exact fun hread => absurd hread hnever
    · simp only [threadStep, hphase, if_neg hrunning]
      trivial
  | polling =>
    simp only [threadStep, hphase]
    by_cases hrunning : t.running = true
    · simp only [Mirrored, if_pos hrunning]
    · simp only [Mirrored, if_neg hrunning]
      exact fun hrun => absurd hrun hrunning
  | draining =>
    simp only [threadStep, hphase]
    rcases queuePop t.unit.cmdQueue with ⟨_ | cmd, q⟩
    · intro m hm hunread
      exact absurd ((flatten_segments t.unit.profile).symm ▸ hm) hunread
    · trivial
  | writing cmd =>
    simp only [threadStep, hphase]
    trivial
  | scanning buf segs =>
    simp only [Mirrored, hphase] at h
    cases segs with
    | nil =>
      simp only [threadStep, hphase]
      exact fun _ m hm => h m hm List.not_mem_nil
    | cons seg segs =>
      have hc : t.phase.connected = true := by rw [hphase]; rfl
      have hseg := hsegs seg (by rw [hphase]; exact List.mem_cons_self)
      obtain ⟨hreply, hregs⟩ := read_device (honline hc).1 (hidle hc) hseg stack
      have hbuf : ∀ rest, Holds t.regs (segmentStart seg)
          ((List.range seg.length).map (t.regs.read (segmentStart seg)) ++ rest) seg.length :=
        fun rest j hj => by
          rw [List.getD_eq_getElem?_getD, List.getElem?_append_left (by simpa using hj)]
          simp [hj, RegisterFile.read]
      simp only [threadStep, hphase, hreply, ne_eq, not_true_eq_false, if_false]
      refine ⟨fun s hs => ?_, fun m hm hunread => ?_⟩
      · obtain ⟨hstore, hvalue⟩ := hseg.value_eq (hbuf _) hs
        exact ⟨hstore, hvalue.trans (congrFun hregs.symm _)⟩
      · by_cases hmem : m ∈ seg
        · exact .inr (hseg.exists_store hp hmem)
        · refine .inl fun slot hslot => ?_
          exact (h m hm (by simpa [hmem] using hunread) slot hslot).trans
            (congrFun hregs.symm _)
  | storing stores buf segs =>
    simp only [Mirrored, hphase] at h
    obtain ⟨hcurrent, hrows⟩ := h
    cases stores with
    | nil =>
      simp only [threadStep, hphase]
      refine fun m hm hunread => (hrows m hm hunread).resolve_right ?_
      rintro ⟨s, hs, -⟩
      exact absurd hs List.not_mem_nil
    | cons s stores =>
      simp only [threadStep, hphase]
      have hs := hcurrent s List.mem_cons_self
      refine ⟨fun s' hs' => hcurrent s' (List.mem_cons_of_mem s hs'), fun m hm hunread => ?_⟩
      rcases hrows m hm hunread with hrow | ⟨s', hs', haddr⟩
      · exact .inl (hs.store hp hm (.inl hrow))
      · rcases List.mem_cons.mp hs' with rfl | hs'
        · exact .inl (hs.store hp hm (.inr haddr))
        · exact .inr ⟨s', hs', haddr⟩
  | failed => exact absurd h (by simp only [Mirrored, hphase, not_false_eq_true])
  | stopped =>
    simp only [threadStep, hphase, Mirrored]

/-- What others do to the unit: it waits for more writes, or is told to stop. -/
theorem Mirrored.of_eq {t' : DeviceUnit} {pool : Pool} {hasRead hasRead' : Prop}
    (h : Mirrored t pool hasRead) (hphase : t'.phase = t.phase)
    (hprofile : t'.unit.profile = t.unit.profile) (hregs : t'.regs = t.regs)
    (hrunning : t'.running = true → t.running = true) (himp : hasRead' → hasRead) :
    Mirrored t' pool hasRead' := by
  unfold Mirrored at h ⊢
  simp only [UpToDate, IsCurrent, hphase, hprofile, hregs] at h ⊢
  split at h
  · exact fun hrun hread => h (hrunning hrun) (himp hread)
  · exact fun hread => h (himp hread)
  · exact h
  · exact h
  · exact h
  · exact h
  · exact h
  · exact h

/-! ### Runs -/

def FleetEvent.isRead : FleetEvent → Bool
  | .thread _ (.read _ _ _) => true
  | _ => false

/-- A read has been made. -/
def HasRead (events : List FleetEvent) : Prop := ∃ event ∈ events, event.isRead

/-- What holds in a run with one unit at most. -/
structure Reflects (R : RegisterFile) (f : Fleet (Client (Device × List Bytes) × ℕ))
    (events : List FleetEvent) : Prop where
  deliver : AllDeliver upsUidProfileMap f events
  own : AllReadOwn f
  one : f.units.length ≤ 1
  settled : ∀ t ∈ f.units, Settled R t
  mirrored : ∀ t ∈ f.units, Mirrored t f.pool (HasRead events)

variable {f : Fleet (Client (Device × List Bytes) × ℕ)} {events : List FleetEvent}

/-- One unit at most: it is the first. -/
theorem Reflects.getElem? (h : Reflects R f events) {k : ℕ} {t : DeviceUnit}
    (hget : f.units[k]? = some t) : k = 0 ∧ f.units = [t] := by
  obtain ⟨hk, rfl⟩ := List.getElem?_eq_some_iff.mp hget
  obtain rfl : k = 0 := by have := h.one; omega
  obtain ⟨u, hu⟩ := List.length_eq_one_iff.mp (Nat.le_antisymm h.one hk)
  simp only [hu, List.getElem_cons_zero, and_self]

theorem Reflects.thread (h : Reflects R f events) (stack : ℕ → ResponseBuffer) {t : DeviceUnit}
    (hget : f.units[0]? = some t) :
    Settled R (threadStep (deviceApi stack) t).1 ∧
      Mirrored (threadStep (deviceApi stack) t).1
        (poolAfter f.pool (threadStep (deviceApi stack) t).2)
        (HasRead (events ++ (threadStep (deviceApi stack) t).2.map (.thread 0))) := by
  have hmem := List.mem_of_getElem? hget
  have hdeliver := h.deliver 0 t hget
  have hsettled := h.settled t hmem
  have hprofile := eq_ups1Profile hdeliver.profile
  have hchunk : t.unit.profile.readChunk.toNat ≤ MODBUS_MAX_READ_REGISTERS := by
    rw [hprofile]
    decide
  refine ⟨hsettled.thread hdeliver.online stack, (h.mirrored t hmem).thread hsettled.idle
    hdeliver.online (fun seg hseg => ?_) (hprofile ▸ wellFormed_ups1Profile) stack fun hnil => ?_⟩
  · exact isSegment_of_mem_segments hchunk ((h.own t hmem).unread seg hseg)
  · rw [hnil, List.map_nil, List.append_nil]
    exact id

theorem Reflects.step (h : Reflects R f events) (stack : ℕ → ResponseBuffer) (a : FleetAction) :
    Reflects R (fleetStep upsUidProfileMap (deviceApi stack) f a).1
      (events ++ (fleetStep upsUidProfileMap (deviceApi stack) f a).2) := by
  have hdeliver := h.deliver.step deviceNetwork stack a
  have hown := h.own.fleetStep h.deliver deviceNetwork stack a
  suffices hunits : (fleetStep upsUidProfileMap (deviceApi stack) f a).1.units.length ≤ 1 ∧
      ∀ t ∈ (fleetStep upsUidProfileMap (deviceApi stack) f a).1.units, Settled R t ∧
        Mirrored t (fleetStep upsUidProfileMap (deviceApi stack) f a).1.pool
          (HasRead (events ++ (fleetStep upsUidProfileMap (deviceApi stack) f a).2)) from
    ⟨hdeliver, hown, hunits.1, fun t ht => (hunits.2 t ht).1, fun t ht => (hunits.2 t ht).2⟩
  have hsame : ∀ t ∈ f.units, Settled R t ∧ Mirrored t f.pool (HasRead (events ++ [])) := by
    intro t ht
    rw [List.append_nil]
    exact ⟨h.settled t ht, h.mirrored t ht⟩
  cases a with
  | onWrite uid addr val =>
    rcases fleetStep_onWrite_cases upsUidProfileMap (deviceApi stack) f uid addr val with
      hrej | ⟨_, _, k, t, -, -, -, -, hget, -, hacc⟩
    · rw [hrej]
      exact ⟨h.one, hsame⟩
    · obtain ⟨rfl, hunits⟩ := h.getElem? hget
      have hmem := List.mem_of_getElem? hget
      rw [hacc, hunits]
      refine ⟨Nat.le_refl 1, fun u hu => ?_⟩
      obtain rfl := List.mem_singleton.mp hu
      refine ⟨⟨(h.settled t hmem).idle, (h.settled t hmem).faithful⟩,
        (h.mirrored t hmem).of_eq rfl rfl rfl id fun ⟨event, hevent, hread⟩ => ?_⟩
      rcases List.mem_append.mp hevent with hevent | hnew
      · exact ⟨event, hevent, hread⟩
      · rw [List.mem_singleton.mp hnew] at hread
        exact absurd hread Bool.false_ne_true
  | thread k =>
    rcases hget : f.units[k]? with _ | t
    · simp only [fleetStep, hget]
      exact ⟨h.one, hsame⟩
    · obtain ⟨rfl, hunits⟩ := h.getElem? hget
      have hthread := h.thread stack hget
      simp only [fleetStep, hunits]
      refine ⟨Nat.le_refl 1, fun u hu => ?_⟩
      obtain rfl := List.mem_singleton.mp hu
      exact hthread
  | stop k =>
    refine ⟨(List.length_modify ..).trans_le h.one, fun u hu => ?_⟩
    obtain ⟨j, hget⟩ := List.mem_iff_getElem?.mp hu
    obtain ⟨t, ht, rfl | rfl⟩ := exists_of_getElem?_stop hget
    · exact hsame _ (List.mem_of_getElem? ht)
    · obtain ⟨hsettled, hmirrored⟩ := hsame _ (List.mem_of_getElem? ht)
      exact ⟨⟨hsettled.idle, hsettled.faithful⟩,
        hmirrored.of_eq rfl rfl rfl (fun hrun => absurd hrun Bool.false_ne_true) id⟩

theorem reflects_start (created : ℕ → Bool) (conns : ℕ → Conn Device × ℕ)
    (hregs : ∀ i, (conns i).1.net.regs = R) (ups : List ModuleConfig)
    (hone : (startedConfigs upsUidProfileMap created ups).length ≤ 1) :
    Reflects R (Fleet.start upsUidProfileMap created (fun i => newClient (conns i)) ups) [] := by
  have hstarted : ∀ t ∈ (Fleet.start upsUidProfileMap created
      (fun i => newClient (conns i)) ups).units, Settled R t ∧ Mirrored t deviceRegisterMapInit
        (HasRead []) := by
    intro t ht
    rcases mem_startLoop upsUidProfileMap created _ 0 ups 0 [] ht with
      hnil | ⟨cfg, profile, j, -, rfl⟩
    · cases hnil
    · exact ⟨⟨fun hc => absurd hc Bool.false_ne_true, hregs j⟩,
        fun _ ⟨_, hevent, _⟩ => absurd hevent List.not_mem_nil⟩
  refine ⟨allDeliver_start _ _ _ _, allReadOwn_start _ _ _ _, ?_, fun t ht => (hstarted t ht).1,
    fun t ht => (hstarted t ht).2⟩
  rw [← List.length_map (f := UnitThread.cfg)]
  exact (congrArg List.length (cfg_startUpsModules upsUidProfileMap created _ ups)).trans_le hone

/-- A run of the bridge and the units with their devices: the units and the pool in the end, and
what was done. -/
def deviceRun (stack : ℕ → ResponseBuffer) (created : ℕ → Bool) (conns : ℕ → Conn Device × ℕ)
    (ups : List ModuleConfig) (actions : List FleetAction) :
    Fleet (Client (Device × List Bytes) × ℕ) × List FleetEvent :=
  let M := fleetMachine upsUidProfileMap (deviceApi stack)
  let start := Fleet.start upsUidProfileMap created (fun i => newClient (conns i)) ups
  (M.state start actions, M.trace start actions)

/-- **The pool mirrors the device.** One unit at most is started, and its device has the registers
`R`. In every run, when the thread of the unit is at the head of its inner loop and has made a read,
every read of the bridge that passes its checks succeeds. It returns the last value written to the
register, among the writes that are no longer waiting, or else the one the device had. -/
theorem pool_mirrors_device (stack : ℕ → ResponseBuffer) (created : ℕ → Bool)
    (conns : ℕ → Conn Device × ℕ) (hregs : ∀ i, (conns i).1.net.regs = R) (ups : List ModuleConfig)
    (hone : (startedConfigs upsUidProfileMap created ups).length ≤ 1) (actions : List FleetAction)
    (hget : (deviceRun stack created conns ups actions).1.units[0]? = some t)
    (hphase : t.phase = .polling) (hread : HasRead (deviceRun stack created conns ups actions).2) :
    let run := deviceRun stack created conns ups actions
    ∃ sent rest, acceptedBy 0 run.2 = sent ++ rest ∧
      t.unit.cmdQueue.pending = rest.map registerWrite ∧
      ∀ addr outVal, ReadPasses upsUidProfileMap run.1.pool UPS_BRIDGE_DEFAULT_UID addr outVal →
        onRead upsUidProfileMap run.1.pool UPS_BRIDGE_DEFAULT_UID addr outVal =
          (0, (lastWrite sent addr).getD (R addr)) := by
  intro run
  have hrun : Reflects R run.1 run.2 :=
    (fleetMachine upsUidProfileMap (deviceApi stack)).trace_invariant (Reflects R)
      (reflects_start created conns hregs ups hone) (fun f events a h => h.step stack a) actions
  have hmem := List.mem_of_getElem? hget
  have hprofile := eq_ups1Profile (hrun.deliver 0 t hget).profile
  obtain ⟨sent, rest, haccepted, hrest, hvalue⟩ :=
    regs_of_written (hrun.settled t hmem) (hrun.deliver 0 t hget)
  have hpolling : ∀ cmd, t.phase ≠ .writing cmd := fun cmd h => Phase.noConfusion (hphase ▸ h)
  refine ⟨sent, rest, haccepted, ?_, fun addr outVal hpasses => ?_⟩
  · rw [← UnitThread.outstanding_of_ne hpolling, hrest]
  · have hmirrored := hrun.mirrored t hmem
    simp only [Mirrored, hphase, hprofile] at hmirrored
    obtain ⟨v, hpool, hresult⟩ := onRead_of_readPasses rfl wellFormed_ups1Profile hpasses
    obtain ⟨m, hfind, hslot⟩ := Option.bind_eq_some_iff.mp hpool
    obtain ⟨slot, hplace, rfl⟩ := Option.map_eq_some_iff.mp hslot
    obtain ⟨hrow, rfl⟩ := deviceFindSlot_sound hfind
    rw [hresult, hmirrored hread m hrow slot hplace, hvalue]

/-- A device whose registers are their own addresses, and a run with one write. -/
theorem pool_mirrors_device_write :
    let run := deviceRun (fun _ => Vector.replicate _ 0) (fun _ => true)
      (fun _ => (⟨.other 0, ⟨id, [], [3, 0, 8]⟩⟩, 0)) [⟨true, 1, "192.168.1.10", 502⟩]
      (.onWrite 1 0x0012 700 :: List.replicate 30 (.thread 0))
    onRead upsUidProfileMap run.1.pool UPS_BRIDGE_DEFAULT_UID 0x0012 0 = (0, 700) ∧
      onRead upsUidProfileMap run.1.pool UPS_BRIDGE_DEFAULT_UID 0x0004 0 = (0, 4) := by
  intro run
  have hunit : run.1.units[0]?.map (fun t => (t.phase matches .polling, t.unit.cmdQueue.pending)) =
      some (true, []) := by decide +kernel
  obtain ⟨t, ht, heq⟩ := Option.map_eq_some_iff.mp hunit
  obtain ⟨hpolling, hpending⟩ := Prod.mk.inj heq
  have hphase : t.phase = .polling := by
    generalize t.phase = phase at hpolling
    cases phase <;> first | rfl | cases hpolling
  have hread : HasRead run.2 := by
    unfold HasRead
    decide +kernel
  have haccepted : acceptedBy 0 run.2 = [(0x0012, 700)] := by decide +kernel
  have hpasses : ∀ addr, (∃ entry, deviceFindSlot ups1Profile addr = some entry ∧
      entry.access ≠ .wo) → ReadPasses upsUidProfileMap run.1.pool 1 addr 0 := fun addr h =>
    (readPasses_iff rfl run.1.pool 0).mpr h
  obtain ⟨sent, rest, hsplit, hrest, hvalue⟩ := pool_mirrors_device (fun _ => Vector.replicate _ 0)
    (fun _ => true) (fun _ => (⟨.other 0, ⟨id, [], [3, 0, 8]⟩⟩, 0)) (fun _ => rfl)
    [⟨true, 1, "192.168.1.10", 502⟩] (by decide)
    (.onWrite 1 0x0012 700 :: List.replicate 30 (.thread 0)) ht hphase hread
  obtain rfl : rest = [] := List.map_eq_nil_iff.mp (hrest.symm.trans hpending)
  obtain rfl : sent = [(0x0012, 700)] := by rw [← haccepted, hsplit, List.append_nil]
  refine ⟨hvalue 0x0012 0 (hpasses _ ⟨_, rfl, by decide⟩), ?_⟩
  exact hvalue 0x0004 0 (hpasses _ ⟨_, rfl, by decide⟩)

end LoopCharger.Ups

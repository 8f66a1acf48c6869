import LoopCharger.Lib.Runs
import LoopCharger.Ups.Unit

/-!
# The scan of a unit

`ups_tcp_process_callback` of `src/ups_module.c`: it drains the write queue of the unit, reads the
mapped registers in segments of consecutive addresses, one FC03 request for each, and stores what
it reads in the shared pool. Five failed reads in a row end the callback early.

The loop runs one past the end of the table and cuts off a segment at every gap, at the limit of
the profile and at the end. `scanLoop_eq_runSegments` takes it to the list of segments, where the
rest of the development works.

## Main definitions

* `scanLoop`, `upsTcpProcessCallback`: the loop and the callback.
* `segments`, `runSegments`: the segments of a profile, and the loop over them.

## Main results

* `scanLoop_eq_runSegments`: the loop of the code is the loop over the segments.
* `processCallback_scanned`: a callback is a scan over the segments of the profile.
* `processCallback_of_succeeds`: a callback whose requests all succeed.
* `processCallback_pool`: what a callback leaves in the pool.
-/

namespace LoopCharger.Ups

open Modbus DeviceMap

/-! ### The callback -/

def UPS_COMM_FAIL_THRESHOLD : ℕ := 5

/-- One FC03 request of a scan, with its return code. -/
structure SegmentRead where
  start : UInt16
  count : UInt16
  rc : ℤ
  deriving DecidableEq, Repr

/-- The data of a scan; `reads` are the requests made so far. -/
structure Scan (γ : Type*) where
  tcpCtx : γ
  commFailCount : ℕ
  pool : Pool
  buf : List UInt16
  reads : List SegmentRead

variable {γ : Type*} (api : ModbusApi γ) (profile : DeviceMapProfile)

/-- The part of the loop body that reads a segment; `true` asks for the early return. The read
stores its registers at the front of the buffer. -/
def readSegment (start count : UInt16) (s : Scan γ) : Bool × Scan γ :=
  let r := api.readHoldingRegisters s.tcpCtx start count
  let s : Scan γ := { s with
    tcpCtx := r.2
    buf := r.1.out ++ s.buf.drop r.1.out.length
    reads := s.reads ++ [⟨start, count, r.1.rc⟩] }
  if r.1.rc ≠ MB_TCP_CLIENT_OK then
    let commFailCount := s.commFailCount + 1
    (commFailCount ≥ UPS_COMM_FAIL_THRESHOLD, { s with commFailCount })
  else
    (false, { s with
      commFailCount := 0
      pool := deviceMapReadToPool profile s.buf start count.toNat s.pool })

/-- The next row follows the row without a gap. The sum is one of `int`, so nothing follows the
address `0xFFFF`. -/
def contiguous (m m' : DeviceRegisterMapping) : Bool :=
  m'.deviceAddress.toNat = m.deviceAddress.toNat + 1

/-- The last `n` rounds of the loop, from the index `i` on, with the segment that has begun. -/
def scanLoop : (n i segStart segLen : ℕ) → Scan γ → ℤ × Scan γ
  | 0, _, _, _, s => (0, s)
  | n + 1, i, segStart, segLen, s =>
    if (i < profile.table.length ∧ contiguous (profile.row (i - 1)) (profile.row i)) ∧
        ¬ segLen ≥ profile.readChunk.toNat then
      scanLoop n (i + 1) segStart (segLen + 1) s
    else
      match readSegment api profile (profile.row segStart).deviceAddress (.ofNat segLen) s with
      | (true, s) => (-1, s)
      | (false, s) => scanLoop n (i + 1) i 1 s

/-- What a callback returns, and the unit, the pool and the reads after it. -/
structure ProcessResult (γ : Type*) where
  rc : ℤ
  unit : UpsUnit γ
  pool : Pool
  reads : List SegmentRead

/-- The process callback of a unit. -/
def upsTcpProcessCallback (u : UpsUnit γ) (pool : Pool) : ProcessResult γ :=
  let d := drainQueue api u.cmdQueue u.tcpCtx
  if u.profile.table.length = 0 then ⟨0, { u with cmdQueue := d.1, tcpCtx := d.2 }, pool, []⟩
  else
    let r := scanLoop api u.profile u.profile.table.length 1 0 1
      ⟨d.2, u.commFailCount, pool, List.replicate MODBUS_MAX_READ_REGISTERS 0, []⟩
    ⟨r.1, { u with cmdQueue := d.1, tcpCtx := r.2.tcpCtx, commFailCount := r.2.commFailCount },
      r.2.pool, r.2.reads⟩

/-! ### Segments -/

/-- The segments of a profile. -/
def segments : List (List DeviceRegisterMapping) :=
  Lib.runs contiguous profile.readChunk.toNat profile.table

theorem flatten_segments : (segments profile).flatten = profile.table :=
  Lib.flatten_runs profile.table

/-- The first address of a segment. -/
def segmentStart (seg : List DeviceRegisterMapping) : UInt16 :=
  (seg.headD ⟨0, 0, .ro, ""⟩).deviceAddress

/-- The number of registers requested for a segment. -/
def segmentCount (seg : List DeviceRegisterMapping) : UInt16 := .ofNat seg.length

/-- The loop over the segments. -/
def runSegments : List (List DeviceRegisterMapping) → Scan γ → ℤ × Scan γ
  | [], s => (0, s)
  | seg :: segs, s =>
    match readSegment api profile (segmentStart seg) (segmentCount seg) s with
    | (true, s) => (-1, s)
    | (false, s) => runSegments segs s

/-- The rows of a table around the end of the segment that has begun. -/
theorem row_of_table_eq {done run : List DeviceRegisterMapping} {x : DeviceRegisterMapping}
    {ys : List DeviceRegisterMapping} (h : profile.table = done ++ (run ++ x :: ys)) :
    (profile.row done.length).deviceAddress = segmentStart (run ++ [x]) ∧
      profile.row (done.length + run.length) = x ∧
      ∀ y ∈ ys.head?, profile.row (done.length + run.length + 1) = y := by
  refine ⟨?_, ?_, fun y hy => ?_⟩
  · cases run <;> simp [DeviceMapProfile.row, segmentStart, h, List.getD_eq_getElem?_getD]
  · simp [DeviceMapProfile.row, h, List.getD_eq_getElem?_getD]
  · obtain ⟨ys', rfl⟩ : ∃ ys', ys = y :: ys' := ⟨ys.tail, (List.cons_head?_tail hy).symm⟩
    have hsplit : profile.table = (done ++ run ++ [x]) ++ y :: ys' := by simp [h]
    have hlen : done.length + run.length + 1 = (done ++ run ++ [x]).length := by
      simp only [List.length_append, List.length_singleton]
    simp only [DeviceMapProfile.row, List.getD_eq_getElem?_getD]
    rw [hsplit, hlen, List.getElem?_append_right (Nat.le_refl _), Nat.sub_self]
    rfl

/-- **The loop of the code is the loop over the segments.** The segment that has begun is
`run ++ [x]`, behind the rows `done`, and the rows `ys` are to come. -/
theorem scanLoop_eq_runSegments (done run : List DeviceRegisterMapping)
    (x : DeviceRegisterMapping) (ys : List DeviceRegisterMapping) (s : Scan γ)
    (h : profile.table = done ++ (run ++ x :: ys)) :
    scanLoop api profile (ys.length + 1) (done.length + run.length + 1) done.length
        (run.length + 1) s =
      runSegments api profile
        (Lib.runsFrom contiguous profile.readChunk.toNat run x ys) s := by
  induction ys generalizing done run x s with
  | nil =>
    obtain ⟨hstart, -, -⟩ := row_of_table_eq profile h
    have hend : ¬ done.length + run.length + 1 < profile.table.length := by simp [h]; omega
    simp only [List.length_nil, scanLoop, hend, false_and, if_false, hstart, Lib.runsFrom,
      runSegments, segmentCount, List.length_append, List.length_singleton]
  | cons y ys ih =>
    obtain ⟨hstart, hx, hy⟩ := row_of_table_eq profile h
    have hin : done.length + run.length + 1 < profile.table.length := by simp [h]; omega
    have hlast : done.length + run.length + 1 - 1 = done.length + run.length := by omega
    rw [List.length_cons, scanLoop, Lib.runsFrom]
    simp only [hin, hlast, hx, hy y rfl, hstart, true_and, ge_iff_le, Nat.not_le]
    by_cases hjoin : contiguous x y = true ∧ run.length + 1 < profile.readChunk.toNat
    · rw [if_pos hjoin, if_pos hjoin]
      have hgrow := ih done (run ++ [x]) y s (by simp [h])
      rwa [List.length_append, List.length_singleton] at hgrow
    · rw [if_neg hjoin, if_neg hjoin, runSegments]
      have hnext := fun s => ih (done ++ run ++ [x]) [] y s (by simp [h])
      simp only [List.length_append, List.length_singleton, List.length_nil, Nat.add_zero,
        Nat.zero_add] at hnext
      simp only [segmentCount, List.length_append, List.length_singleton, hnext]

/-- The reads of a callback are the ones of the segments of the profile. -/
theorem processCallback_eq (u : UpsUnit γ) (pool : Pool) :
    let d := drainQueue api u.cmdQueue u.tcpCtx
    let s : Scan γ := ⟨d.2, u.commFailCount, pool, List.replicate MODBUS_MAX_READ_REGISTERS 0, []⟩
    let r := runSegments api u.profile (segments u.profile) s
    upsTcpProcessCallback api u pool =
      ⟨r.1, { u with cmdQueue := d.1, tcpCtx := r.2.tcpCtx, commFailCount := r.2.commFailCount },
        r.2.pool, r.2.reads⟩ := by
  intro d s r
  unfold upsTcpProcessCallback
  rcases htable : u.profile.table with _ | ⟨x, ys⟩
  · have hr : r = (0, s) := by simp only [r, segments, htable, Lib.runs, runSegments]
    simp only [List.length_nil, if_true, hr]
    rfl
  · have hloop := scanLoop_eq_runSegments api u.profile [] [] x ys s htable
    have hr : r = runSegments api u.profile
        (Lib.runsFrom contiguous u.profile.readChunk.toNat [] x ys) s := by
      simp only [r, segments, htable, Lib.runs]
    simp only [List.length_nil, Nat.zero_add] at hloop
    simp only [List.length_cons, Nat.add_eq_zero_iff, Nat.one_ne_zero, and_false, if_false,
      hr, ← hloop]
    rfl

/-! ### What a segment stores -/

/-- A part of the table with consecutive device addresses. -/
structure IsSegment (seg : List DeviceRegisterMapping) : Prop where
  ne_nil : seg ≠ []
  isChain : seg.IsChain fun m m' => contiguous m m'
  mem_table : ∀ m ∈ seg, m ∈ profile.table
  length_le : seg.length ≤ MODBUS_MAX_READ_REGISTERS

variable {profile}

/-- The addresses of a segment are counted up from the first. -/
theorem toNat_deviceAddress_of_isChain {seg : List DeviceRegisterMapping}
    (h : seg.IsChain fun m m' => contiguous m m') {j : ℕ} (hj : j < seg.length) :
    seg[j].deviceAddress.toNat = (segmentStart seg).toNat + j := by
  induction seg generalizing j with
  | nil => exact absurd hj (Nat.not_lt_zero j)
  | cons m seg ih =>
    cases j with
    | zero => rfl
    | succ j =>
      cases seg with
      | nil => simp at hj
      | cons m' seg =>
        obtain ⟨hjoin, hrest⟩ := List.isChain_cons_cons.mp h
        have hstart : m'.deviceAddress.toNat = m.deviceAddress.toNat + 1 := of_decide_eq_true hjoin
        have hnext := ih hrest (Nat.lt_of_succ_lt_succ hj)
        simp only [List.getElem_cons_succ, hnext, segmentStart, List.headD_cons, hstart]
        omega

/-- The addresses of a segment do not pass the last address. -/
theorem IsSegment.start_add_length_le {seg : List DeviceRegisterMapping}
    (h : IsSegment profile seg) : (segmentStart seg).toNat + seg.length ≤ 65536 := by
  have hlt : seg.length - 1 < seg.length :=
    Nat.sub_one_lt_of_lt (List.length_pos_of_ne_nil h.ne_nil)
  have hlast := toNat_deviceAddress_of_isChain h.isChain hlt
  have := seg[seg.length - 1].deviceAddress.toNat_lt
  omega

/-- The address of the row at a place of a segment. -/
theorem IsSegment.deviceAddress_eq {seg : List DeviceRegisterMapping} (h : IsSegment profile seg)
    {j : ℕ} (hj : j < seg.length) :
    seg[j].deviceAddress = segmentStart seg + UInt16.ofNat j := by
  have hle := h.start_add_length_le
  rw [← UInt16.toNat_inj, toNat_deviceAddress_of_isChain h.isChain hj, UInt16.toNat_add,
    UInt16.toNat_ofNat']
  omega

theorem IsSegment.toNat_segmentCount {seg : List DeviceRegisterMapping}
    (h : IsSegment profile seg) : (segmentCount seg).toNat = seg.length := by
  have hle : seg.length ≤ 125 := h.length_le
  rw [segmentCount, UInt16.toNat_ofNat']
  omega

/-- The read buffer holds the registers `D` from the address `start` on. -/
def Holds (D : UInt16 → UInt16) (start : UInt16) (buf : List UInt16) (n : ℕ) : Prop :=
  ∀ j < n, buf.getD j 0 = D (start + UInt16.ofNat j)

/-- A segment stores the device's value in the slot of each of its rows. -/
theorem IsSegment.store_of_mem {seg : List DeviceRegisterMapping} (h : IsSegment profile seg)
    (hp : profile.WellFormed) {D : UInt16 → UInt16} {buf : List UInt16}
    (hbuf : Holds D (segmentStart seg) buf seg.length) (pool : Pool)
    {m : DeviceRegisterMapping} (hm : m ∈ seg) {slot : Fin INTERNAL_POOL_SIZE}
    (hslot : poolSlot m.poolAddress = some slot) :
    deviceMapReadToPool profile buf (segmentStart seg) (segmentCount seg).toNat pool slot =
      D m.deviceAddress := by
  obtain ⟨j, hj, rfl⟩ := List.getElem_of_mem hm
  have hdev := h.deviceAddress_eq hj
  rw [h.toNat_segmentCount, hdev, ← hbuf j hj]
  exact deviceMapReadToPool_of_mem hp h.start_add_length_le hj (h.mem_table _ hm) hdev hslot pool

/-- A segment leaves the slots of other rows as they are. -/
theorem IsSegment.store_of_forall_ne {seg : List DeviceRegisterMapping}
    (h : IsSegment profile seg) (hp : profile.WellFormed) (buf : List UInt16) (pool : Pool)
    {slot : Fin INTERNAL_POOL_SIZE} (hslot : ∀ m ∈ seg, poolSlot m.poolAddress ≠ some slot) :
    deviceMapReadToPool profile buf (segmentStart seg) (segmentCount seg).toNat pool slot =
      pool slot := by
  refine deviceMapReadToPool_of_forall_ne pool fun m hm j hj hdev => ?_
  have hj : j < seg.length := h.toNat_segmentCount ▸ hj
  have hrow : m = seg[j] := hp.ascending.eq_of_deviceAddress_eq hm
    (h.mem_table _ (List.getElem_mem hj)) (hdev.trans (h.deviceAddress_eq hj).symm)
  exact hslot m (hrow ▸ List.getElem_mem hj)

/-- The segments of a profile whose chunks fit the buffer are segments. -/
theorem isSegment_of_mem_segments (hchunk : profile.readChunk.toNat ≤ MODBUS_MAX_READ_REGISTERS)
    {seg : List DeviceRegisterMapping} (h : seg ∈ segments profile) : IsSegment profile seg where
  ne_nil := Lib.ne_nil_of_mem_runs h
  isChain := Lib.isChain_of_mem_runs h
  mem_table m hm := by
    rw [← flatten_segments]
    exact List.mem_flatten.mpr ⟨seg, h, hm⟩
  length_le := Nat.le_trans (Lib.length_le_of_mem_runs h)
    (Nat.max_le.mpr ⟨by decide, hchunk⟩)

/-! ### What a scan stores -/

variable {api}

/-- Reads that succeed return the registers `D` of the device. -/
def Answers (api : ModbusApi γ) (D : UInt16 → UInt16) : Prop :=
  ∀ c addr qty, (api.readHoldingRegisters c addr qty).1.rc = MB_TCP_CLIENT_OK →
    (api.readHoldingRegisters c addr qty).1.out =
      (List.range qty.toNat).map fun i => D (addr + UInt16.ofNat i)

/-- The same of the connections with `P`, which a read keeps. -/
structure AnswersIn (api : ModbusApi γ) (P : γ → Prop) (D : UInt16 → UInt16) : Prop where
  out : ∀ c addr qty, P c → (api.readHoldingRegisters c addr qty).1.rc = MB_TCP_CLIENT_OK →
    (api.readHoldingRegisters c addr qty).1.out =
      (List.range qty.toNat).map fun i => D (addr + UInt16.ofNat i)
  keeps : ∀ c addr qty, P c → P (api.readHoldingRegisters c addr qty).2

theorem Answers.answersIn {D : UInt16 → UInt16} (hD : Answers api D) :
    AnswersIn api (fun _ => True) D :=
  ⟨fun c addr qty _ => hD c addr qty, fun _ _ _ _ => trivial⟩

/-- Whether the request of the `k`-th segment was made and succeeded. -/
def Succeeded (reads : List SegmentRead) (k : ℕ) : Bool :=
  reads[k]?.any fun r => r.rc == MB_TCP_CLIENT_OK

/-- One segment: the request is recorded, its rows hold the device's values if it succeeded, and
nothing else changes in the pool. -/
theorem readSegment_spec {P : γ → Prop} {D : UInt16 → UInt16} (hD : AnswersIn api P D)
    (hp : profile.WellFormed) {seg : List DeviceRegisterMapping} (h : IsSegment profile seg)
    (s : Scan γ) (hP : P s.tcpCtx) :
    let r := readSegment api profile (segmentStart seg) (segmentCount seg) s
    P r.2.tcpCtx ∧ ∃ rc, r.2.reads = s.reads ++ [⟨segmentStart seg, segmentCount seg, rc⟩] ∧
      (∀ m ∈ seg, ∀ slot, poolSlot m.poolAddress = some slot →
        r.2.pool slot = if rc = MB_TCP_CLIENT_OK then D m.deviceAddress else s.pool slot) ∧
      ∀ slot, (∀ m ∈ seg, poolSlot m.poolAddress ≠ some slot) → r.2.pool slot = s.pool slot := by
  intro r
  have hkeep : r.2.tcpCtx =
      (api.readHoldingRegisters s.tcpCtx (segmentStart seg) (segmentCount seg)).2 := by
    simp only [r, readSegment]
    split_ifs <;> rfl
  refine ⟨hkeep ▸ hD.keeps _ _ _ hP,
    (api.readHoldingRegisters s.tcpCtx (segmentStart seg) (segmentCount seg)).1.rc, ?_⟩
  have hout := hD.out s.tcpCtx (segmentStart seg) (segmentCount seg) hP
  simp only [r, readSegment]
  generalize api.readHoldingRegisters s.tcpCtx (segmentStart seg) (segmentCount seg) = reply
    at hout ⊢
  by_cases hrc : reply.1.rc = MB_TCP_CLIENT_OK
  · have hbuf : Holds D (segmentStart seg) (reply.1.out ++ s.buf.drop reply.1.out.length)
        seg.length := fun j hj => by
      rw [hout hrc, h.toNat_segmentCount, List.getD_eq_getElem?_getD,
        List.getElem?_append_left (by simpa using hj)]
      simp [hj]
    simp only [hrc, ne_eq, not_true_eq_false, if_false, if_true, true_and]
    exact ⟨fun m hm slot hslot => h.store_of_mem hp hbuf s.pool hm hslot,
      fun slot hslot => h.store_of_forall_ne hp _ s.pool hslot⟩
  · simp only [hrc, ne_eq, not_false_eq_true, if_true, if_false, implies_true, and_self]

/-- The request that a segment is read with. -/
def segmentRequest (seg : List DeviceRegisterMapping) : UInt16 × UInt16 :=
  (segmentStart seg, segmentCount seg)

/-- What a scan over the segments `segs` with the requests `new` makes of the pool `old`: the
requests are the ones of the segments, up to an early return; the rows of a segment hold the
device's values exactly if its request succeeded, and nothing else changes. -/
structure Scanned (D : UInt16 → UInt16) (segs : List (List DeviceRegisterMapping)) (rc : ℤ)
    (new : List SegmentRead) (old pool : Pool) : Prop where
  requests : (new.map fun x => (x.start, x.count)) <+: segs.map segmentRequest
  complete : rc = 0 → new.length = segs.length
  rows : ∀ k seg, segs[k]? = some seg → ∀ m ∈ seg, ∀ slot, poolSlot m.poolAddress = some slot →
    pool slot = if Succeeded new k then D m.deviceAddress else old slot
  others : ∀ slot, (∀ m ∈ segs.flatten, poolSlot m.poolAddress ≠ some slot) → pool slot = old slot

/-- Nothing is requested. -/
theorem scanned_nil (D : UInt16 → UInt16) {segs : List (List DeviceRegisterMapping)} {rc : ℤ}
    (h : rc = 0 → segs = []) (pool : Pool) : Scanned D segs rc [] pool pool :=
  ⟨List.nil_prefix, fun hrc => by rw [h hrc]; rfl, fun _ _ _ _ _ _ _ => rfl, fun _ _ => rfl⟩

/-- The rows of a well-formed table have slots of their own. -/
theorem slot_ne_of_ne (hp : profile.WellFormed) {m m' : DeviceRegisterMapping}
    (hm : m ∈ profile.table) (hm' : m' ∈ profile.table) (hne : m ≠ m')
    {slot : Fin INTERNAL_POOL_SIZE} (hslot : poolSlot m.poolAddress = some slot) :
    poolSlot m'.poolAddress ≠ some slot :=
  fun hslot' => hne (List.inj_on_of_nodup_map hp.distinct hm hm' (poolSlot_inj hslot hslot'))

/-- A scan over segments with different rows. -/
theorem runSegments_scanned {P : γ → Prop} {D : UInt16 → UInt16} (hD : AnswersIn api P D)
    (hp : profile.WellFormed) {segs : List (List DeviceRegisterMapping)}
    (hsegs : ∀ seg ∈ segs, IsSegment profile seg) (hnodup : segs.flatten.Nodup) (s : Scan γ)
    (hP : P s.tcpCtx) :
    let r := runSegments api profile segs s
    P r.2.tcpCtx ∧ ∃ new, r.2.reads = s.reads ++ new ∧
      Scanned D segs r.1 new s.pool r.2.pool := by
  induction segs generalizing s with
  | nil => exact ⟨hP, [], by simp [runSegments], scanned_nil D (fun _ => rfl) s.pool⟩
  | cons seg segs ih =>
    have hseg := hsegs seg List.mem_cons_self
    have hrest := fun t ht => hsegs t (List.mem_cons_of_mem _ ht)
    rw [List.flatten_cons, List.nodup_append] at hnodup
    obtain ⟨-, hnodup, hdisj⟩ := hnodup
    -- The rows of the segment and the rows behind it have different slots.
    have hapart : ∀ m ∈ seg, ∀ m' ∈ segs.flatten, m ≠ m' ∧ m' ∈ profile.table := by
      intro m hm m' hm'
      obtain ⟨t, ht, hmt⟩ := List.mem_flatten.mp hm'
      exact ⟨hdisj m hm m' hm', (hrest t ht).mem_table m' hmt⟩
    obtain ⟨hP₁, rc, hreads, hmem, hne⟩ := readSegment_spec hD hp hseg s hP
    rcases hread : readSegment api profile (segmentStart seg) (segmentCount seg) s with ⟨stop, s₁⟩
    rw [hread] at hP₁ hreads hmem hne
    dsimp only at hP₁ hreads hmem hne
    obtain ⟨hend, new, hnew, htail⟩ :
        P (runSegments api profile (seg :: segs) s).2.tcpCtx ∧ ∃ new,
          (runSegments api profile (seg :: segs) s).2.reads = s₁.reads ++ new ∧
            Scanned D segs (runSegments api profile (seg :: segs) s).1 new s₁.pool
              (runSegments api profile (seg :: segs) s).2.pool := by
      simp only [runSegments, hread]
      cases stop with
      | true =>
        have hrc : (-1 : ℤ) = 0 → segs = [] := fun h => by cases h
        exact ⟨hP₁, [], (List.append_nil _).symm, scanned_nil D hrc s₁.pool⟩
      | false => exact ih hrest hnodup s₁ hP₁
    refine ⟨hend, ⟨segmentStart seg, segmentCount seg, rc⟩ :: new,
      by rw [hnew, hreads, List.append_assoc]; rfl, ?_, fun h => ?_, ?_, fun slot hslot => ?_⟩
    · exact List.cons_prefix_cons.mpr ⟨rfl, htail.requests⟩
    · rw [List.length_cons, htail.complete h, List.length_cons]
    · rintro (_ | k) t ht m hm slot hslot
      · obtain rfl : seg = t := Option.some.inj ht
        have hothers : ∀ m' ∈ segs.flatten, poolSlot m'.poolAddress ≠ some slot := fun m' hm' =>
          slot_ne_of_ne hp (hseg.mem_table m hm) (hapart m hm m' hm').2 (hapart m hm m' hm').1 hslot
        rw [htail.others slot hothers, hmem m hm slot hslot]
        simp [Succeeded]
      · have hget : segs[k]? = some t := ht
        have hflat : m ∈ segs.flatten := List.mem_flatten.mpr ⟨t, List.mem_of_getElem? hget, hm⟩
        have hold : s₁.pool slot = s.pool slot := hne slot fun m' hm' hslot' =>
          slot_ne_of_ne hp (hseg.mem_table m' hm') (hapart m' hm' m hflat).2
            (hapart m' hm' m hflat).1 hslot' hslot
        rw [htail.rows k t hget m hm slot hslot, hold]
        rfl
    · rw [List.flatten_cons, List.forall_mem_append] at hslot
      rw [htail.others slot hslot.2, hne slot hslot.1]

/-- A callback is a scan over the segments, on the connection that the queue leaves it. -/
theorem processCallback_scanned {P : γ → Prop} {D : UInt16 → UInt16} (hD : AnswersIn api P D)
    (u : UpsUnit γ) (hP : P (drainQueue api u.cmdQueue u.tcpCtx).2) (hp : u.profile.WellFormed)
    (hchunk : u.profile.readChunk.toNat ≤ MODBUS_MAX_READ_REGISTERS) (pool : Pool) :
    let r := upsTcpProcessCallback api u pool
    P r.unit.tcpCtx ∧ Scanned D (segments u.profile) r.rc r.reads pool r.pool := by
  intro r
  have hnodup : (segments u.profile).flatten.Nodup := by
    rw [flatten_segments]
    exact hp.ascending.imp fun hlt heq => absurd (heq ▸ hlt) (Nat.lt_irrefl _)
  obtain ⟨hend, new, hreads, hscan⟩ := runSegments_scanned hD hp
    (fun seg hseg => isSegment_of_mem_segments hchunk hseg) hnodup
    ⟨(drainQueue api u.cmdQueue u.tcpCtx).2, u.commFailCount, pool,
      List.replicate MODBUS_MAX_READ_REGISTERS 0, []⟩ hP
  have hr : r = _ := processCallback_eq api u pool
  rw [List.nil_append] at hreads
  rw [hr]
  refine ⟨hend, ?_⟩
  dsimp only
  rw [hreads]
  exact hscan

/-- A scan whose requests all succeed runs to its end. -/
theorem runSegments_of_succeeds {P : γ → Prop}
    (hkeep : ∀ c addr qty, P c → P (api.readHoldingRegisters c addr qty).2)
    {segs : List (List DeviceRegisterMapping)}
    (hok : ∀ c, P c → ∀ seg ∈ segs,
      (api.readHoldingRegisters c (segmentStart seg) (segmentCount seg)).1.rc = MB_TCP_CLIENT_OK)
    (s : Scan γ) (hP : P s.tcpCtx) (hs : ∀ x ∈ s.reads, x.rc = MB_TCP_CLIENT_OK) :
    (runSegments api profile segs s).1 = 0 ∧
      ∀ x ∈ (runSegments api profile segs s).2.reads, x.rc = MB_TCP_CLIENT_OK := by
  induction segs generalizing s with
  | nil => exact ⟨rfl, hs⟩
  | cons seg segs ih =>
    have hrc := hok s.tcpCtx hP seg List.mem_cons_self
    simp only [runSegments, readSegment, hrc, ne_eq, not_true_eq_false, if_false]
    refine ih (fun c hc t ht => hok c hc t (List.mem_cons_of_mem _ ht)) _ (hkeep _ _ _ hP) ?_
    intro x hx
    rcases List.mem_append.mp hx with hx | hx
    · exact hs x hx
    · rw [List.mem_singleton.mp hx]

/-- A callback whose requests all succeed leaves the registers of the device in the slots of the
profile. -/
theorem processCallback_of_succeeds {P : γ → Prop} {D : UInt16 → UInt16} (hD : AnswersIn api P D)
    (u : UpsUnit γ) (hP : P (drainQueue api u.cmdQueue u.tcpCtx).2) (hp : u.profile.WellFormed)
    (hchunk : u.profile.readChunk.toNat ≤ MODBUS_MAX_READ_REGISTERS)
    (hok : ∀ c, P c → ∀ seg ∈ segments u.profile,
      (api.readHoldingRegisters c (segmentStart seg) (segmentCount seg)).1.rc = MB_TCP_CLIENT_OK)
    (pool : Pool) :
    let r := upsTcpProcessCallback api u pool
    r.rc = 0 ∧ P r.unit.tcpCtx ∧
      (∀ m ∈ u.profile.table, ∀ slot, poolSlot m.poolAddress = some slot →
        r.pool slot = D m.deviceAddress) ∧
      ∀ slot, (∀ m ∈ u.profile.table, poolSlot m.poolAddress ≠ some slot) →
        r.pool slot = pool slot := by
  intro r
  have hr : r = _ := processCallback_eq api u pool
  obtain ⟨hend, hscan⟩ := processCallback_scanned hD u hP hp hchunk pool
  have hall : r.rc = 0 ∧ ∀ x ∈ r.reads, x.rc = MB_TCP_CLIENT_OK := by
    rw [hr]
    exact runSegments_of_succeeds hD.keeps hok _ hP (by simp)
  refine ⟨hall.1, hend, fun m hm slot hslot => ?_, fun slot hslot => ?_⟩
  · rw [← flatten_segments] at hm
    obtain ⟨seg, hseg, hmem⟩ := List.mem_flatten.mp hm
    obtain ⟨k, hk, hget⟩ := List.getElem_of_mem hseg
    have hread : k < r.reads.length := hscan.complete hall.1 ▸ hk
    have hsucc : Succeeded r.reads k = true := by
      rw [Succeeded, List.getElem?_eq_getElem hread, Option.any_some, beq_iff_eq]
      exact hall.2 _ (List.getElem_mem hread)
    have hrow := hscan.rows k seg (List.getElem?_eq_some_iff.mpr ⟨hk, hget⟩) m hmem slot hslot
    exact hrow.trans (if_pos hsucc)
  · exact hscan.others slot ((flatten_segments u.profile).symm ▸ hslot)

/-- **What a callback leaves in the pool.** The table is cut into segments, each requested once,
in order, up to an early return. The rows of a segment that was read hold the registers of the
device; the rows of a segment that was not, and all slots of no row, keep their values. -/
theorem processCallback_pool {D : UInt16 → UInt16} (hD : Answers api D) (u : UpsUnit γ)
    (hp : u.profile.WellFormed) (hchunk : u.profile.readChunk.toNat ≤ MODBUS_MAX_READ_REGISTERS)
    (pool : Pool) :
    let r := upsTcpProcessCallback api u pool
    let segs := segments u.profile
    segs.flatten = u.profile.table ∧
      (r.reads.map fun x => (x.start, x.count)) <+: segs.map segmentRequest ∧
      (r.rc = 0 → r.reads.length = segs.length) ∧
      (∀ k seg, segs[k]? = some seg → ∀ m ∈ seg, ∀ slot, poolSlot m.poolAddress = some slot →
        r.pool slot = if Succeeded r.reads k then D m.deviceAddress else pool slot) ∧
      ∀ slot, (∀ m ∈ u.profile.table, poolSlot m.poolAddress ≠ some slot) →
        r.pool slot = pool slot := by
  intro r segs
  have hflat : segs.flatten = u.profile.table := flatten_segments u.profile
  obtain ⟨-, hscan⟩ := processCallback_scanned hD.answersIn u trivial hp hchunk pool
  refine ⟨hflat, hscan.requests, hscan.complete, hscan.rows, fun slot hslot => ?_⟩
  exact hscan.others slot (hflat ▸ hslot)

/-- A device whose registers hold their own address; the requests fail that the list says. -/
def echoApi : ModbusApi (List Bool) where
  readHoldingRegisters c addr qty :=
    (if c.headD false then ⟨MB_TCP_CLIENT_ERR_TIMEOUT, []⟩
      else ⟨MB_TCP_CLIENT_OK, (List.range qty.toNat).map fun i => addr + UInt16.ofNat i⟩, c.tail)
  writeSingleRegister c _ _ := (MB_TCP_CLIENT_OK, c)
  writeMultipleRegisters c _ _ _ := (MB_TCP_CLIENT_OK, c)

theorem answers_echoApi : Answers echoApi id := by
  intro c addr qty hrc
  unfold echoApi at hrc ⊢
  dsimp only at hrc ⊢
  split at hrc
  · exact absurd hrc (by decide)
  · rename_i hok
    rw [if_neg hok]
    rfl

/-- A profile with a gap, scanned while the request of its first segment fails. -/
theorem processCallback_pool_gap :
    let profile : DeviceMapProfile := ⟨"gap",
      [⟨3, 7, .ro, ""⟩, ⟨4, 5, .rw, ""⟩, ⟨9, 6, .ro, ""⟩], 50⟩
    let u : UpsUnit (List Bool) := ⟨profile, [true], 0, queueInit⟩
    (upsTcpProcessCallback echoApi u fun _ => 1).pool ⟨5, by decide⟩ = 1 ∧
      (upsTcpProcessCallback echoApi u fun _ => 1).pool ⟨6, by decide⟩ = 9 := by
  intro profile u
  have hp : profile.WellFormed := by
    refine ⟨?_, by decide, ?_⟩
    · simp only [DeviceMapProfile.Ascending, profile]
      decide
    · simp only [profile]
      decide
  obtain ⟨-, -, -, hrows, -⟩ := processCallback_pool answers_echoApi u hp (by decide) fun _ => 1
  exact ⟨hrows 0 _ rfl ⟨4, 5, .rw, ""⟩ (by decide) ⟨5, by decide⟩ rfl,
    hrows 1 _ rfl ⟨9, 6, .ro, ""⟩ (by decide) ⟨6, by decide⟩ rfl⟩

end LoopCharger.Ups

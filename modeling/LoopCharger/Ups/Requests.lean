import LoopCharger.Modbus.Verdict
import LoopCharger.Ups.Scan

/-!
# The requests of a scan

The FC03 requests that the scan of `ups_tcp_process_callback` makes of an ascending table, with any
limit on their length. A request is a call of the client with a start and a count. The client
refuses a count that the buffer of the scan has no room for, so that neither the client nor
`device_map_read_to_pool` uses an entry behind the end of the buffer.

## Main definitions

* `SegmentRead.addresses`: the device addresses that a request asks for.
* `ScanRequests`: the requests cut the addresses of the table into runs.
* `FitsBuffer`: what the buffer of the scan relies on.

## Main results

* `scanRequests_segments`: the requests of the segments cut the table into runs.
* `scan_requests`: the requests of a callback.
-/

namespace LoopCharger.Ups

open Lib Modbus DeviceMap

/-! ### The requests of the segments -/

/-- The device addresses that a request asks for. -/
def SegmentRead.addresses (r : SegmentRead) : List ℕ :=
  (List.range r.count.toNat).map fun j => r.start.toNat + j

/-- The device addresses of the table. -/
def mappedAddresses (profile : DeviceMapProfile) : List ℕ :=
  profile.table.map fun m => m.deviceAddress.toNat

/-- The requests of a whole scan, in order, cut the device addresses of the table into runs of
consecutive addresses. -/
structure ScanRequests (profile : DeviceMapProfile) (reads : List SegmentRead) : Prop where
  addresses : reads.flatMap SegmentRead.addresses = mappedAddresses profile
  once : ∀ a, (reads.flatMap SegmentRead.addresses).count a =
    if a ∈ mappedAddresses profile then 1 else 0
  one_le_count : ∀ r ∈ reads, 1 ≤ r.count.toNat
  count_le : ∀ r ∈ reads, r.count.toNat ≤ max 1 profile.readChunk.toNat
  /-- A request ends at the limit, or no row has the address behind it. -/
  ends : ∀ r ∈ reads, r.count.toNat = max 1 profile.readChunk.toNat ∨
    r.start.toNat + r.count.toNat ∉ mappedAddresses profile

variable {profile : DeviceMapProfile}

/-- A segment is as long as its count says, whatever the limit is. -/
theorem toNat_segmentCount {seg : List DeviceRegisterMapping} (h : seg ∈ segments profile) :
    (segmentCount seg).toNat = seg.length := by
  have hle := length_le_of_mem_runs h
  have := profile.readChunk.toNat_lt
  rw [segmentCount, UInt16.toNat_ofNat']
  omega

/-- The addresses that the request of a segment asks for are the ones of its rows. -/
theorem addresses_segment {seg : List DeviceRegisterMapping} (h : seg ∈ segments profile) (rc : ℤ) :
    SegmentRead.addresses ⟨segmentStart seg, segmentCount seg, rc⟩ =
      seg.map fun m => m.deviceAddress.toNat := by
  have hchain := isChain_of_mem_runs h
  simp only [SegmentRead.addresses, toNat_segmentCount h]
  refine List.ext_getElem (by simp) fun j hj hj' => ?_
  have hlt : j < seg.length := by simpa using hj'
  rw [List.getElem_map, List.getElem_map, List.getElem_range,
    toNat_deviceAddress_of_isChain hchain hlt]

/-- In an ascending table the row of the next address, if there is one, is the next row. -/
theorem head_of_succ_mem {m m' : DeviceRegisterMapping} {post : List DeviceRegisterMapping}
    (hasc : (m :: post).Pairwise fun m m' => m.deviceAddress.toNat < m'.deviceAddress.toNat)
    (hmem : m' ∈ post) (hnext : m'.deviceAddress.toNat = m.deviceAddress.toNat + 1) :
    ∃ y ∈ post.head?, contiguous m y = true := by
  cases post with
  | nil => exact absurd hmem List.not_mem_nil
  | cons y post =>
    refine ⟨y, rfl, decide_eq_true ?_⟩
    obtain ⟨hfirst, hrest⟩ := List.pairwise_cons.mp hasc
    have hlow := hfirst y List.mem_cons_self
    rcases List.mem_cons.mp hmem with rfl | hmem
    · exact hnext
    · have hhigh := (List.pairwise_cons.mp hrest).1 m' hmem
      omega

/-- A segment ends at the limit, or no row has the address behind it. -/
theorem ends_segment (hasc : profile.Ascending) {seg : List DeviceRegisterMapping}
    (h : seg ∈ segments profile) :
    seg.length = max 1 profile.readChunk.toNat ∨
      (segmentStart seg).toNat + seg.length ∉ mappedAddresses profile := by
  have hchain := isChain_of_mem_runs h
  have hle := length_le_of_mem_runs h
  have hne : seg ≠ [] := ne_nil_of_mem_runs h
  obtain ⟨pre, post, htable, hend⟩ := exists_split_of_mem_runs h
  obtain ⟨init, x, rfl⟩ := (List.eq_nil_or_concat' seg).resolve_left hne
  have hlast : x.deviceAddress.toNat = (segmentStart (init ++ [x])).toNat + init.length := by
    have := toNat_deviceAddress_of_isChain hchain (j := init.length) (by simp)
    simpa using this
  rcases hend with hlimit | hcut
  · rw [List.length_append, List.length_singleton] at hle hlimit ⊢
    exact .inl (by omega)
  · refine .inr fun hmem => ?_
    obtain ⟨m, hm, haddr⟩ := List.mem_map.mp hmem
    have hsplit : profile.table = (pre ++ init) ++ x :: post := by simp [htable]
    rw [DeviceMapProfile.Ascending, hsplit, List.pairwise_append] at hasc
    obtain ⟨-, hbehind, hbefore⟩ := hasc
    have hnext : m.deviceAddress.toNat = x.deviceAddress.toNat + 1 := by
      rw [haddr, hlast, List.length_append, List.length_singleton, Nat.add_assoc]
    -- the rows up to the last one of the segment have lower addresses
    have hpost : m ∈ post := by
      rw [hsplit, List.mem_append] at hm
      rcases hm with hm | hm
      · have := hbefore m hm x List.mem_cons_self
        omega
      · refine (List.mem_cons.mp hm).resolve_left fun heq => ?_
        rw [heq] at hnext
        omega
    obtain ⟨y, hy, hjoin⟩ := head_of_succ_mem hbehind hpost hnext
    rw [hcut x (by simp) y hy] at hjoin
    exact Bool.false_ne_true hjoin

/-- The addresses of an ascending table are distinct. -/
theorem nodup_mappedAddresses (hasc : profile.Ascending) : (mappedAddresses profile).Nodup :=
  List.pairwise_map.mpr (hasc.imp fun hlt => Nat.ne_of_lt hlt)

/-- **The requests of the segments** cut the table into runs. -/
theorem scanRequests_segments (hasc : profile.Ascending) {reads : List SegmentRead}
    (hreads : (reads.map fun r => (r.start, r.count)) = (segments profile).map segmentRequest) :
    ScanRequests profile reads := by
  have hread : ∀ r ∈ reads, ∃ seg ∈ segments profile,
      r.start = segmentStart seg ∧ r.count = segmentCount seg := fun r hr => by
    have hmem : (r.start, r.count) ∈ (segments profile).map segmentRequest :=
      hreads ▸ List.mem_map.mpr ⟨r, hr, rfl⟩
    obtain ⟨seg, hseg, heq⟩ := List.mem_map.mp hmem
    exact ⟨seg, hseg, (congrArg Prod.fst heq).symm, (congrArg Prod.snd heq).symm⟩
  have haddresses : reads.flatMap SegmentRead.addresses = mappedAddresses profile := by
    let asked (q : UInt16 × UInt16) := SegmentRead.addresses ⟨q.1, q.2, 0⟩
    calc reads.flatMap SegmentRead.addresses
      _ = (reads.map fun r => (r.start, r.count)).flatMap asked := by
        rw [List.flatMap_map]
        rfl
      _ = (segments profile).flatMap fun seg => seg.map fun m => m.deviceAddress.toNat := by
        rw [hreads, List.flatMap_map]
        exact List.flatMap_congr fun seg hseg => addresses_segment hseg 0
      _ = ((segments profile).flatten).map fun m => m.deviceAddress.toNat := by
        rw [List.map_flatten, List.flatMap_def]
      _ = mappedAddresses profile := by
        rw [flatten_segments, mappedAddresses]
  refine ⟨haddresses, fun a => ?_, fun r hr => ?_, fun r hr => ?_, fun r hr => ?_⟩
  · rw [haddresses, (nodup_mappedAddresses hasc).count]
  all_goals
    obtain ⟨seg, hseg, hstart, hcount⟩ := hread r hr
    rw [hcount, toNat_segmentCount hseg]
  · exact List.length_pos_iff.mpr (ne_nil_of_mem_runs hseg)
  · exact length_le_of_mem_runs hseg
  · rw [hstart]
    exact ends_segment hasc hseg

/-! ### The requests of a callback -/

variable {γ : Type*} {api : ModbusApi γ}

/-- What the read buffer relies on: a call stores no more registers than it has room for, and one
that asks for more fails. -/
structure FitsBuffer (api : ModbusApi γ) : Prop where
  length_out_le : ∀ c addr qty,
    (api.readHoldingRegisters c addr qty).1.out.length ≤ MODBUS_MAX_READ_REGISTERS
  qty_le : ∀ c addr qty, (api.readHoldingRegisters c addr qty).1.rc = MB_TCP_CLIENT_OK →
    qty.toNat ≤ MODBUS_MAX_READ_REGISTERS

theorem length_out_readResponse_le (tid qty : UInt16) (b : Bytes) (n : ℕ) :
    (readResponse tid qty b n).out.length ≤ qty.toNat := by
  simp only [readResponse]
  split_ifs <;> simp

/-- The client checks the quantity before anything else. -/
theorem readHoldingRegisters_cases {σ : Type*} (T : Transport σ) (cl : Client σ)
    (addr qty : UInt16) (resp : ResponseBuffer) :
    (mbTcpClientReadHoldingRegisters T cl addr qty resp).1 = ⟨MB_TCP_CLIENT_ERR_ARG, []⟩ ∨
      qty.toNat ≤ MODBUS_MAX_READ_REGISTERS ∧
        (mbTcpClientReadHoldingRegisters T cl addr qty resp).1.out.length ≤ qty.toNat := by
  by_cases hargs : qty ≠ 0 ∧ qty.toNat ≤ MODBUS_MAX_READ_REGISTERS
  · refine .inr ⟨hargs.2, ?_⟩
    simp only [mbTcpClientReadHoldingRegisters, operation, decide_eq_true hargs]
    split_ifs with hfalse hsock
    · exact Nat.zero_le _
    · exact Nat.zero_le _
    · split
      · exact Nat.zero_le _
      · exact length_out_readResponse_le _ _ _ _
  · refine .inl ?_
    simp only [mbTcpClientReadHoldingRegisters, operation, decide_eq_false hargs]
    rfl

theorem fitsBuffer_clientApi {σ : Type*} (T : Transport σ) (stack : ℕ → ResponseBuffer) :
    FitsBuffer (clientApi T stack) where
  length_out_le c addr qty := by
    rcases readHoldingRegisters_cases T c.1 addr qty (stack c.2) with hrefused | ⟨hqty, hout⟩
    · exact (congrArg (fun r : Reply => r.out.length) hrefused).trans_le (Nat.zero_le _)
    · exact Nat.le_trans hout hqty
  qty_le c addr qty hrc := by
    rcases readHoldingRegisters_cases T c.1 addr qty (stack c.2) with hrefused | ⟨hqty, -⟩
    · exact absurd ((congrArg Reply.rc hrefused).symm.trans hrc) (by decide)
    · exact hqty

/-- One request: it is recorded, and the buffer keeps its length. -/
theorem readSegment_reads (hapi : FitsBuffer api) (profile : DeviceMapProfile)
    (start count : UInt16) (s : Scan γ) :
    ∃ rc, (readSegment api profile start count s).2.reads = s.reads ++ [⟨start, count, rc⟩] ∧
      (rc = MB_TCP_CLIENT_OK → count.toNat ≤ MODBUS_MAX_READ_REGISTERS) ∧
      (s.buf.length = MODBUS_MAX_READ_REGISTERS →
        (readSegment api profile start count s).2.buf.length = MODBUS_MAX_READ_REGISTERS) := by
  refine ⟨(api.readHoldingRegisters s.tcpCtx start count).1.rc, ?_,
    hapi.qty_le s.tcpCtx start count, fun hlen => ?_⟩
  · simp only [readSegment]
    split_ifs <;> rfl
  · have hout := hapi.length_out_le s.tcpCtx start count
    simp only [readSegment]
    split_ifs <;> simp only [List.length_append, List.length_drop, hlen] <;> omega

/-- The loop over the segments: its requests are the ones of the segments, up to an early return,
and a request that succeeds fits the buffer. -/
theorem runSegments_reads (hapi : FitsBuffer api) (segs : List (List DeviceRegisterMapping))
    (s : Scan γ) :
    ∃ new, (runSegments api profile segs s).2.reads = s.reads ++ new ∧
      ((runSegments api profile segs s).1 = 0 →
        (new.map fun r => (r.start, r.count)) = segs.map segmentRequest) ∧
      ∀ r ∈ new, r.rc = MB_TCP_CLIENT_OK → r.count.toNat ≤ MODBUS_MAX_READ_REGISTERS := by
  induction segs generalizing s with
  | nil =>
    exact ⟨[], (List.append_nil _).symm, fun _ => rfl, fun r hr => absurd hr List.not_mem_nil⟩
  | cons seg segs ih =>
    obtain ⟨rc, hreads, hfits, -⟩ :=
      readSegment_reads hapi profile (segmentStart seg) (segmentCount seg) s
    rcases hread : readSegment api profile (segmentStart seg) (segmentCount seg) s with ⟨stop, s₁⟩
    rw [hread] at hreads
    rw [runSegments, hread]
    cases stop with
    | true =>
      have hstop : (-1 : ℤ) ≠ 0 := by decide
      refine ⟨[⟨segmentStart seg, segmentCount seg, rc⟩], hreads, fun h => absurd h hstop,
        fun r hr => ?_⟩
      rw [List.mem_singleton.mp hr]
      exact hfits
    | false =>
      obtain ⟨new, hnew, hall, hrest⟩ := ih s₁
      refine ⟨⟨segmentStart seg, segmentCount seg, rc⟩ :: new, ?_, fun h => ?_, fun r hr => ?_⟩
      · rw [List.append_cons, ← hreads]
        exact hnew
      · rw [List.map_cons, List.map_cons, hall h]
        rfl
      · rcases List.mem_cons.mp hr with rfl | hr
        · exact hfits
        · exact hrest r hr

/-- No number of rounds of the loop makes the buffer longer. -/
theorem length_buf_scanLoop (hapi : FitsBuffer api) (n i segStart segLen : ℕ) (s : Scan γ)
    (hlen : s.buf.length = MODBUS_MAX_READ_REGISTERS) :
    (scanLoop api profile n i segStart segLen s).2.buf.length = MODBUS_MAX_READ_REGISTERS := by
  induction n generalizing i segStart segLen s with
  | zero => exact hlen
  | succ n ih =>
    rw [scanLoop]
    split_ifs
    · exact ih _ _ _ s hlen
    · obtain ⟨-, -, -, hkeeps⟩ := readSegment_reads hapi profile
        (profile.row segStart).deviceAddress (.ofNat segLen) s
      have hkept := hkeeps hlen
      split <;> rename_i hread
      · rwa [hread] at hkept
      · rw [hread] at hkept
        exact ih _ _ _ _ hkept

/-- **The requests of a callback.** Without an early return they cut the addresses of the table into
runs. The read buffer keeps its length in every round, and the registers taken from it are in it. -/
theorem scan_requests {σ : Type*} (T : Transport σ) (stack : ℕ → ResponseBuffer)
    (u : UpsUnit (Client σ × ℕ)) (hasc : u.profile.Ascending) (pool : Pool) :
    let r := upsTcpProcessCallback (clientApi T stack) u pool
    (r.rc = 0 → ScanRequests u.profile r.reads) ∧
      (∀ x ∈ r.reads, x.rc = MB_TCP_CLIENT_OK → x.count.toNat ≤ MODBUS_MAX_READ_REGISTERS) ∧
      ∀ (n i segStart segLen : ℕ) (s : Scan (Client σ × ℕ)),
        s.buf.length = MODBUS_MAX_READ_REGISTERS →
        (scanLoop (clientApi T stack) u.profile n i segStart segLen s).2.buf.length =
          MODBUS_MAX_READ_REGISTERS := by
  intro r
  have hapi := fitsBuffer_clientApi T stack
  have hr : r = _ := processCallback_eq (clientApi T stack) u pool
  obtain ⟨new, hnew, hall, hfits⟩ := runSegments_reads hapi (segments u.profile)
    ⟨(drainQueue (clientApi T stack) u.cmdQueue u.tcpCtx).2, u.commFailCount, pool,
      List.replicate MODBUS_MAX_READ_REGISTERS 0, []⟩
  have hreads : r.reads = new := (congrArg ProcessResult.reads hr).trans hnew
  have hrc : r.rc = _ := congrArg ProcessResult.rc hr
  rw [hreads, hrc]
  exact ⟨fun h => scanRequests_segments hasc (hall h), hfits, length_buf_scanLoop hapi⟩

/-- A table with a gap, read from a device that answers, with a limit above the buffer. -/
theorem scan_requests_gap :
    let profile : DeviceMapProfile := ⟨"gap",
      [⟨3, 7, .ro, ""⟩, ⟨4, 5, .rw, ""⟩, ⟨9, 6, .ro, ""⟩], 200⟩
    let stream : Bytes :=
      [0, 1, 0, 0, 0, 7, 1, 3, 4, 0, 8, 0, 9] ++ [0, 2, 0, 0, 0, 5, 1, 3, 2, 1, 1]
    let u : UpsUnit (Client Bytes × ℕ) :=
      ⟨profile, (⟨⟨5, 0, ⟨"ups", 502, 1⟩⟩, ⟨.other 0, stream⟩⟩, 0), 0, queueInit⟩
    ScanRequests profile
      (upsTcpProcessCallback (clientApi fixedStream fun _ => Vector.replicate _ 0) u
        fun _ => 0).reads := by
  intro profile stream u
  have hasc : profile.Ascending := by
    unfold DeviceMapProfile.Ascending
    decide
  exact (scan_requests fixedStream (fun _ => Vector.replicate _ 0) u hasc fun _ => 0).1
    (by decide +kernel)

end LoopCharger.Ups

import LoopCharger.Modbus.Client

/-!
# What the return codes say about the response

A caller learns about the response of a call by a return code: zero for a success, positive for a
Modbus exception, negative for an error. The code of an exception is a byte of the wire, and the
read operation looks at two bytes of its buffer before it knows how many were received. This
module settles for which responses the codes are right, and for which the buffer shows through.

## Main definitions

* `CodesSound`: success only for a response of the request, a positive code only for an exception.
* `BufferIndependent`: the outcome of a read does not depend on the uninitialised buffer.
* `MisreadException`, `DecidedByFrame`: the conditions on the frame received.

## Main results

* `codesSound_iff`: the codes are right exactly when no exception is misread.
* `bufferIndependent_iff`: a read is independent of its buffer exactly when the frame received
  decides it.
-/

namespace LoopCharger.Modbus

open Lib

variable {σ : Type*}

/-! ### The checks, outcome by outcome -/

theorem toNat_eq_zero_iff {b : UInt8} : (b.toNat : ℤ) = 0 ↔ b = 0 := by
  rw [← UInt8.toNat_inj]
  exact Int.natCast_eq_zero

/-- The read operation succeeds for a response that it takes for an exception with the code zero,
or that passes all its checks. -/
theorem readResponse_rc_eq_zero_iff {tid qty : UInt16} {b : Bytes} {n : ℕ} :
    (readResponse tid qty b n).rc = MB_TCP_CLIENT_OK ↔
      frameTid b = tid ∧
        (hasExceptionFlag (b.getD 7 0) = true ∧ b.getD 8 0 = 0 ∨
          b.getD 7 0 = MODBUS_FUNC_READ_HOLDING_REGISTERS ∧ 9 ≤ n ∧
            b.getD 8 0 = UInt8.ofNat (qty.toNat * 2)) := by
  have hflag : hasExceptionFlag MODBUS_FUNC_READ_HOLDING_REGISTERS = false := rfl
  have hcode := @toNat_eq_zero_iff (b.getD 8 0)
  simp only [readResponse, ADU_OFFSET_FC, ADU_OFFSET_ADDR_HIGH, FC03_RESPONSE_HEADER_LEN,
    FC03_RESPONSE_BYTE_COUNT_OFFSET, MB_TCP_CLIENT_OK, MB_TCP_CLIENT_ERR_TID,
    MB_TCP_CLIENT_ERR_FRAME]
  split_ifs <;> grind

/-- The code is positive for a response that is taken for an exception with another code. -/
theorem readResponse_rc_pos_iff {tid qty : UInt16} {b : Bytes} {n : ℕ} :
    0 < (readResponse tid qty b n).rc ↔
      frameTid b = tid ∧ hasExceptionFlag (b.getD 7 0) = true ∧ b.getD 8 0 ≠ 0 := by
  have hcode := @toNat_eq_zero_iff (b.getD 8 0)
  simp only [readResponse, ADU_OFFSET_FC, ADU_OFFSET_ADDR_HIGH, MB_TCP_CLIENT_OK,
    MB_TCP_CLIENT_ERR_TID, MB_TCP_CLIENT_ERR_FRAME]
  split_ifs <;> grind

theorem validateWriteResponse_eq_zero_iff {req b : Bytes} {n : ℕ} {tid : UInt16} :
    validateWriteResponse req b n tid = MB_TCP_CLIENT_OK ↔
      9 ≤ n ∧ frameTid b = tid ∧
        (hasExceptionFlag (b.getD 7 0) = true ∧ b.getD 8 0 = 0 ∨
          hasExceptionFlag (b.getD 7 0) = false ∧ 12 ≤ n ∧ b.getD 7 0 = req.getD 7 0) := by
  have hcode := @toNat_eq_zero_iff (b.getD 8 0)
  simp only [validateWriteResponse, ADU_OFFSET_FC, ADU_OFFSET_ADDR_HIGH, MIN_RESPONSE_LEN,
    FC16_RESPONSE_LEN, MB_TCP_CLIENT_OK, MB_TCP_CLIENT_ERR_TID, MB_TCP_CLIENT_ERR_FRAME]
  split_ifs <;> grind

theorem validateWriteResponse_pos_iff {req b : Bytes} {n : ℕ} {tid : UInt16} :
    0 < validateWriteResponse req b n tid ↔
      9 ≤ n ∧ frameTid b = tid ∧ hasExceptionFlag (b.getD 7 0) = true ∧ b.getD 8 0 ≠ 0 := by
  have hcode := @toNat_eq_zero_iff (b.getD 8 0)
  simp only [validateWriteResponse, ADU_OFFSET_FC, ADU_OFFSET_ADDR_HIGH, MIN_RESPONSE_LEN,
    FC16_RESPONSE_LEN, MB_TCP_CLIENT_OK, MB_TCP_CLIENT_ERR_TID, MB_TCP_CLIENT_ERR_FRAME]
  split_ifs <;> grind

/-! ### The codes and the frame received -/

/-- A frame brings its transaction identifier into the buffer. -/
theorem frameTid_storeAt {f : Bytes} (h : 6 < f.length) (buf : Bytes) :
    frameTid (storeAt buf 0 f) = frameTid f := by
  simp only [frameTid, getD_storeAt_zero, if_pos (show 0 < f.length by omega),
    if_pos (show 1 < f.length by omega)]

/-- The codes of a call are right: it succeeds only for a frame with the transaction identifier
and the function code of the request, and a positive code is returned only for a frame with the
exception bit. No request has a function code with that bit (`hasExceptionFlag_fc`). -/
def CodesSound (T : Transport σ) (cl : Client σ) (q : Request) (resp : ResponseBuffer) : Prop :=
  let rc := (q.call T cl resp).1.rc
  (rc = MB_TCP_CLIENT_OK → ∃ f, q.received T cl = some f ∧ frameTid f = nextTid cl.ctx.tid ∧
      f[7]? = some q.fc) ∧
    (0 < rc → ∃ f, q.received T cl = some f ∧ ∃ fc, f[7]? = some fc ∧ hasExceptionFlag fc = true)

theorem hasExceptionFlag_fc (q : Request) : hasExceptionFlag q.fc = false := by
  cases q <;> simp only [Request.fc] <;> decide

/-- The frame `f` is taken for an exception, but the code returned is zero, or the frame has no
function code. A write looks at a whole exception response only; a read looks at the buffer, over
which the frame is stored. -/
def MisreadException (q : Request) (resp : ResponseBuffer) (f : Bytes) : Prop :=
  let b := storeAt resp.toList 0 f
  match q with
  | .read _ _ => hasExceptionFlag (b.getD 7 0) = true ∧ (b.getD 8 0 = 0 ∨ f.length = 7)
  | _ => 9 ≤ f.length ∧ hasExceptionFlag (f.getD 7 0) = true ∧ f.getD 8 0 = 0

/-- The request on the wire has its function code in the eighth byte. -/
theorem getD_frame (q : Request) (tid : UInt16) (unitId : UInt8) :
    (q.frame tid unitId).getD 7 0 = q.fc := by
  cases q with
  | read addr qty => rfl
  | writeSingle addr value => rfl
  | writeMultiple addr qty data =>
    have hlen := buildFc16Request_length tid unitId addr qty data
    simp only [Request.frame, List.getD_eq_getElem?_getD]
    rw [List.getElem?_take_of_lt (by omega)]
    rfl

/-- The eighth byte of a frame, which a frame of seven bytes does not have. -/
theorem getElem?_seven_eq_some_iff {f : Bytes} {fc : UInt8} :
    f[7]? = some fc ↔ 7 < f.length ∧ f.getD 7 0 = fc := by
  by_cases h : 7 < f.length
  · simp [List.getD_eq_getElem?_getD, h]
  · simp [h]

/-- The codes of the read checks, for a frame stored in a buffer. -/
theorem readResponse_sound_iff {f : Bytes} (hlen : 6 < f.length) (buf : Bytes)
    (tid qty : UInt16) :
    let rc := (readResponse tid qty (storeAt buf 0 f) f.length).rc
    ((rc = MB_TCP_CLIENT_OK →
          frameTid f = tid ∧ f[7]? = some MODBUS_FUNC_READ_HOLDING_REGISTERS) ∧
        (0 < rc → ∃ fc, f[7]? = some fc ∧ hasExceptionFlag fc = true)) ↔
      (frameTid f = tid →
        ¬ (hasExceptionFlag ((storeAt buf 0 f).getD 7 0) = true ∧
          ((storeAt buf 0 f).getD 8 0 = 0 ∨ f.length = 7))) := by
  have hflag : hasExceptionFlag MODBUS_FUNC_READ_HOLDING_REGISTERS = false := by decide
  have hseven := getD_storeAt_zero buf f 7
  simp only [readResponse_rc_eq_zero_iff, readResponse_rc_pos_iff, frameTid_storeAt hlen,
    getElem?_seven_eq_some_iff]
  grind

/-- The codes of the write checks, for a frame stored in a buffer. -/
theorem validateWriteResponse_sound_iff {f : Bytes} (hlen : 6 < f.length) (buf req : Bytes)
    (tid : UInt16) (hreq : hasExceptionFlag (req.getD 7 0) = false) :
    let rc := validateWriteResponse req (storeAt buf 0 f) f.length tid
    ((rc = MB_TCP_CLIENT_OK → frameTid f = tid ∧ f[7]? = some (req.getD 7 0)) ∧
        (0 < rc → ∃ fc, f[7]? = some fc ∧ hasExceptionFlag fc = true)) ↔
      (frameTid f = tid →
        ¬ (9 ≤ f.length ∧ hasExceptionFlag (f.getD 7 0) = true ∧ f.getD 8 0 = 0)) := by
  have hseven := getD_storeAt_zero buf f 7
  have height := getD_storeAt_zero buf f 8
  simp only [validateWriteResponse_eq_zero_iff, validateWriteResponse_pos_iff,
    frameTid_storeAt hlen, getElem?_seven_eq_some_iff]
  grind

/-- **The codes are right exactly when no exception is misread**, for every behaviour of the
network, every context and every content of the response buffer. -/
theorem codesSound_iff (T : Transport σ) (cl : Client σ) (q : Request) (resp : ResponseBuffer) :
    CodesSound T cl q resp ↔
      ∀ f, q.received T cl = some f → frameTid f = nextTid cl.ctx.tid →
        ¬ MisreadException q resp f := by
  unfold CodesSound
  rcases hrec : q.received T cl with _ | f
  case none =>
    obtain ⟨rc, hneg, hcall⟩ := Request.call_of_not_received hrec
    simp only [hcall, reduceCtorEq, false_and, exists_false, imp_false, false_implies,
      implies_true, iff_true, MB_TCP_CLIENT_OK]
    omega
  case some =>
    have hlen := (Request.isFrame_of_received hrec).lt_length
    simp only [Request.call_of_received hrec, Option.some.injEq, exists_eq_left', forall_eq']
    have hwrite := validateWriteResponse_sound_iff hlen resp.toList
      (q.frame (nextTid cl.ctx.tid) cl.ctx.cfg.unitId) (nextTid cl.ctx.tid)
      (getD_frame q _ _ ▸ hasExceptionFlag_fc q)
    rw [getD_frame] at hwrite
    cases q with
    | read addr qty => exact readResponse_sound_iff hlen _ _ _
    | writeSingle addr value => exact hwrite
    | writeMultiple addr qty data => exact hwrite

/-- A server that answers nothing but sends a fixed stream of bytes and closes. -/
def fixedStream : Transport Bytes where
  recv s n := (.received (s.take n), s.drop n)
  send s bs := (.sent bs.length, s)
  length_recv_le s n := List.length_take_le n s

/-- An FC06 request that is rejected with the exception code zero counts as a success. -/
theorem not_codesSound_exception_zero :
    ¬ CodesSound fixedStream
      ⟨⟨3, 0, ⟨"192.168.1.10", 502, 1⟩⟩, ⟨.other 0, [0, 1, 0, 0, 0, 3, 1, 0x86, 0]⟩⟩
      (.writeSingle 0x12 1) (Vector.replicate _ 0) := by
  intro h
  obtain ⟨f, hf, -, hfc⟩ := h.1 (by decide)
  obtain rfl : [0, 1, 0, 0, 0, 3, 1, 0x86, 0] = f := Option.some.inj hf
  exact absurd hfc (by decide)

/-! ### The uninitialised buffer -/

/-- The outcome of a read does not depend on the contents of its response buffer: the code, the
registers stored on success, and success only for a frame that brings all of them. -/
structure BufferIndependent (T : Transport σ) (cl : Client σ) (addr qty : UInt16) : Prop where
  rc_eq : ∀ resp resp', (mbTcpClientReadHoldingRegisters T cl addr qty resp).1.rc =
    (mbTcpClientReadHoldingRegisters T cl addr qty resp').1.rc
  out_eq : ∀ resp resp',
    (mbTcpClientReadHoldingRegisters T cl addr qty resp).1.rc = MB_TCP_CLIENT_OK →
      (mbTcpClientReadHoldingRegisters T cl addr qty resp).1.out =
        (mbTcpClientReadHoldingRegisters T cl addr qty resp').1.out
  length_le : ∀ resp,
    (mbTcpClientReadHoldingRegisters T cl addr qty resp).1.rc = MB_TCP_CLIENT_OK →
      ∃ f, (Request.read addr qty).received T cl = some f ∧ 9 + 2 * qty.toNat ≤ f.length

/-- The frame decides a read of `qty` registers by itself: it brings the function code and the
byte behind it, unless eight bytes without the exception bit are all of it; and it brings all the
registers, if its byte count announces them or it is an exception with the code zero. -/
def DecidedByFrame (qty : UInt16) (f : Bytes) : Prop :=
  f.length = 8 ∧ hasExceptionFlag (f.getD 7 0) = false ∨
    9 ≤ f.length ∧
      (f.getD 7 0 = MODBUS_FUNC_READ_HOLDING_REGISTERS ∧
          f.getD 8 0 = UInt8.ofNat (qty.toNat * 2) ∨
        hasExceptionFlag (f.getD 7 0) = true ∧ f.getD 8 0 = 0 →
      9 + 2 * qty.toNat ≤ f.length)

/-- A frame with another transaction identifier is rejected before anything else is looked at. -/
theorem readResponse_of_tid_ne {tid qty : UInt16} {b : Bytes} {n : ℕ} (h : frameTid b ≠ tid) :
    readResponse tid qty b n = ⟨MB_TCP_CLIENT_ERR_TID, []⟩ :=
  if_pos h

/-- The checks of a read look at the identifier, the function code, the byte behind it when there
is an exception bit or nine bytes, and at the registers when they succeed. -/
theorem readResponse_congr {tid qty : UInt16} {b b' : Bytes} {n : ℕ}
    (htid : frameTid b = frameTid b') (hfc : b.getD 7 0 = b'.getD 7 0)
    (height : hasExceptionFlag (b.getD 7 0) = true ∨ 9 ≤ n → b.getD 8 0 = b'.getD 8 0)
    (hdata : (readResponse tid qty b n).rc = MB_TCP_CLIENT_OK → ∀ i < qty.toNat,
      b.getD (9 + i * 2) 0 = b'.getD (9 + i * 2) 0 ∧
        b.getD (9 + i * 2 + 1) 0 = b'.getD (9 + i * 2 + 1) 0) :
    readResponse tid qty b n = readResponse tid qty b' n := by
  by_cases heval : (readResponse tid qty b n).rc = MB_TCP_CLIENT_OK
  · have hout : ∀ i ∈ List.range qty.toNat,
        word (b.getD (9 + i * 2) 0) (b.getD (9 + i * 2 + 1) 0) =
          word (b'.getD (9 + i * 2) 0) (b'.getD (9 + i * 2 + 1) 0) := fun i hi => by
      obtain ⟨hhigh, hlow⟩ := hdata heval i (List.mem_range.mp hi)
      rw [hhigh, hlow]
    simp only [readResponse, ADU_OFFSET_FC, ADU_OFFSET_ADDR_HIGH, FC03_RESPONSE_HEADER_LEN,
      FC03_RESPONSE_BYTE_COUNT_OFFSET, List.map_congr_left hout, ← htid, ← hfc]
    grind
  · simp only [readResponse, ADU_OFFSET_FC, ADU_OFFSET_ADDR_HIGH, FC03_RESPONSE_HEADER_LEN,
      FC03_RESPONSE_BYTE_COUNT_OFFSET, ← htid, ← hfc] at heval ⊢
    grind

/-- A byte that a frame does not reach, in a buffer filled with one value. -/
theorem getD_storeAt_replicate {f : Bytes} {i : ℕ} (hf : f.length ≤ i)
    (hi : i < MODBUS_TCP_MAX_ADU_LENGTH) (v : UInt8) :
    (storeAt (Vector.replicate MODBUS_TCP_MAX_ADU_LENGTH v).toList 0 f).getD i 0 = v := by
  rw [getD_storeAt_zero, if_neg (Nat.not_lt.mpr hf)]
  simp [List.getD_eq_getElem?_getD, hi]

/-- The buffer shows through a frame that does not decide the read. -/
theorem decidedByFrame_of_bufferIndependent {T : Transport σ} {cl : Client σ} {addr qty : UInt16}
    (h : BufferIndependent T cl addr qty) {f : Bytes}
    (hrec : (Request.read addr qty).received T cl = some f)
    (htid : frameTid f = nextTid cl.ctx.tid) : DecidedByFrame qty f := by
  have hlen := (Request.isFrame_of_received hrec).lt_length
  have hcall : ∀ resp, (mbTcpClientReadHoldingRegisters T cl addr qty resp).1 =
      readResponse (nextTid cl.ctx.tid) qty (storeAt resp.toList 0 f) f.length :=
    Request.call_of_received hrec
  have hrc := h.rc_eq
  have hwhole := h.length_le (Vector.replicate _ 0)
  simp only [hcall, hrec, Option.some.injEq, exists_eq_left', readResponse_rc_eq_zero_iff,
    frameTid_storeAt hlen, htid, true_and] at hrc hwhole
  rcases Nat.lt_or_ge 8 f.length with hnine | hshort
  · refine .inr ⟨hnine, fun hok => hwhole ?_⟩
    simp only [getD_storeAt_zero, if_pos hnine, if_pos (show 7 < f.length by omega)]
    tauto
  -- The byte behind the function code is one of the buffer: fill the buffer in two ways.
  have hpos : ∀ v, 0 < (readResponse (nextTid cl.ctx.tid) qty
      (storeAt (Vector.replicate MODBUS_TCP_MAX_ADU_LENGTH v).toList 0 f) f.length).rc ↔ _ :=
    fun v => readResponse_rc_pos_iff
  simp only [getD_storeAt_replicate hshort (show 8 < 260 by decide), frameTid_storeAt hlen, htid,
    true_and] at hpos
  rcases Nat.lt_or_ge 7 f.length with height | hseven
  · refine .inl ⟨by omega, Bool.eq_false_iff.mpr fun hflag => ?_⟩
    simp only [getD_storeAt_zero, if_pos height, hflag, true_and] at hpos
    have hone := (hpos 1).mpr (by decide)
    rw [hrc _ (Vector.replicate _ 0)] at hone
    exact (hpos 0).mp hone rfl
  · simp only [getD_storeAt_replicate hseven (show 7 < 260 by decide)] at hpos
    have hflag := (hpos 0x80).mpr (by decide)
    rw [hrc _ (Vector.replicate _ 0)] at hflag
    exact absurd ((hpos 0).mp hflag).1 (by decide)

/-- A frame that decides the read is all that the checks look at. -/
theorem readResponse_of_decidedByFrame {f : Bytes} (hlen : 6 < f.length) {tid qty : UInt16}
    (h : DecidedByFrame qty f) (buf buf' : Bytes) :
    readResponse tid qty (storeAt buf 0 f) f.length =
        readResponse tid qty (storeAt buf' 0 f) f.length ∧
      ((readResponse tid qty (storeAt buf 0 f) f.length).rc = MB_TCP_CLIENT_OK →
        9 + 2 * qty.toNat ≤ f.length) := by
  have hseven : 7 < f.length := by
    rcases h with ⟨hlen, -⟩ | ⟨hlen, -⟩ <;> omega
  have hwhole : (readResponse tid qty (storeAt buf 0 f) f.length).rc = MB_TCP_CLIENT_OK →
      9 + 2 * qty.toNat ≤ f.length := by
    simp only [readResponse_rc_eq_zero_iff, getD_storeAt_zero, if_pos hseven]
    unfold DecidedByFrame at h
    grind
  refine ⟨readResponse_congr ?_ ?_ ?_ ?_, hwhole⟩
  · rw [frameTid_storeAt hlen, frameTid_storeAt hlen]
  · simp only [getD_storeAt_zero, if_pos hseven]
  · unfold DecidedByFrame at h
    simp only [getD_storeAt_zero, if_pos hseven]
    grind
  · intro hok i hi
    have hle := hwhole hok
    simp only [getD_storeAt_zero, if_pos (show 9 + i * 2 < f.length by omega),
      if_pos (show 9 + i * 2 + 1 < f.length by omega), and_self]

/-- A read that fails in one way for all buffers is independent of the buffer. -/
theorem bufferIndependent_of_error {T : Transport σ} {cl : Client σ} {addr qty : UInt16} {rc : ℤ}
    (hrc : rc ≠ MB_TCP_CLIENT_OK)
    (h : ∀ resp, (mbTcpClientReadHoldingRegisters T cl addr qty resp).1 = ⟨rc, []⟩) :
    BufferIndependent T cl addr qty := by
  constructor <;> simp [h, hrc]

/-- **A read is independent of its uninitialised buffer exactly when the frame received decides
it**, for every behaviour of the network, every context and all arguments. -/
theorem bufferIndependent_iff (T : Transport σ) (cl : Client σ) (addr qty : UInt16) :
    BufferIndependent T cl addr qty ↔
      ∀ f, (Request.read addr qty).received T cl = some f →
        frameTid f = nextTid cl.ctx.tid → DecidedByFrame qty f := by
  refine ⟨fun h f hrec htid => decidedByFrame_of_bufferIndependent h hrec htid, fun h => ?_⟩
  rcases hrec : (Request.read addr qty).received T cl with _ | f
  · obtain ⟨rc, hneg, hcall⟩ := Request.call_of_not_received hrec
    exact bufferIndependent_of_error (Int.ne_of_lt hneg) hcall
  · have hlen := (Request.isFrame_of_received hrec).lt_length
    have hcall : ∀ resp, (mbTcpClientReadHoldingRegisters T cl addr qty resp).1 =
        readResponse (nextTid cl.ctx.tid) qty (storeAt resp.toList 0 f) f.length :=
      Request.call_of_received hrec
    by_cases htid : frameTid f = nextTid cl.ctx.tid
    · have hdec := fun resp resp' : ResponseBuffer =>
        @readResponse_of_decidedByFrame f hlen (nextTid cl.ctx.tid) qty (h f hrec htid)
          resp.toList resp'.toList
      refine ⟨fun resp resp' => ?_, fun resp resp' _ => ?_, fun resp hok => ⟨f, hrec, ?_⟩⟩
      · rw [hcall, hcall, (hdec resp resp').1]
      · rw [hcall, hcall, (hdec resp resp').1]
      · rw [hcall] at hok
        exact (hdec resp resp).2 hok
    · have hne : MB_TCP_CLIENT_ERR_TID ≠ MB_TCP_CLIENT_OK := by decide
      refine bufferIndependent_of_error hne fun resp => ?_
      rw [hcall, readResponse_of_tid_ne (by rwa [frameTid_storeAt hlen])]

/-- A read of one register that is answered by a frame of seven bytes fails with one code or
another. -/
theorem not_bufferIndependent_short_frame :
    ¬ BufferIndependent fixedStream
      ⟨⟨3, 0, ⟨"192.168.1.10", 502, 1⟩⟩, ⟨.other 0, [0, 1, 0, 0, 0, 1, 1]⟩⟩ 0x10 1 := by
  intro h
  exact absurd (h.rc_eq (Vector.replicate _ 0x80) (Vector.replicate _ 0)) (by decide)

end LoopCharger.Modbus

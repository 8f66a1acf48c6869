import LoopCharger.Modbus.Verdict

/-!
# The responses of an honest server

What a server sends for one request of the client: a response with the identifiers of the request,
which carries the registers read, confirms a write or rejects the request with an exception code.

## Main definitions

* `Answer`, `serverResponse`: the answer to a request, and the response that carries it.

## Main results

* `Request.isFrame_serverResponse`, `Request.frameTid_serverResponse`: a response is a frame with
  the identifier of its request.
* `Request.check_serverResponse`: the client takes from the response to its request what the
  server put there.
-/

namespace LoopCharger.Modbus

open Lib

/-- The answer of the server to a request: it is carried out, and a read returns the registers
`v`, or it is rejected with an exception code. -/
inductive Answer
  | normal (v : ℕ → UInt16)
  | exception (code : UInt8) (ne_zero : code ≠ 0)

/-- The frame of a PDU: identifier, protocol, length and unit in front of it. -/
def adu (tidHi tidLo unitId : UInt8) (pdu : Bytes) : Bytes :=
  [tidHi, tidLo, 0, 0, highByte (.ofNat (1 + pdu.length)), lowByte (.ofNat (1 + pdu.length)),
    unitId] ++ pdu

/-- The PDU of the response to a request. A normal response to FC03 carries the registers, and to
the other requests it repeats the address and the word behind it. -/
def responsePdu (req : Bytes) : Answer → Bytes
  | .normal v =>
    if req.getD 7 0 = MODBUS_FUNC_READ_HOLDING_REGISTERS then
      let qty := (word (req.getD 10 0) (req.getD 11 0)).toNat
      [req.getD 7 0, .ofNat (2 * qty)] ++ wordBytes ((List.range qty).map v)
    else [req.getD 7 0, req.getD 8 0, req.getD 9 0, req.getD 10 0, req.getD 11 0]
  | .exception code _ => [req.getD 7 0 ||| MODBUS_EXCEPTION_FLAG, code]

/-- The response to a request, with the identifiers of the request. -/
def serverResponse (req : Bytes) (a : Answer) : Bytes :=
  adu (req.getD 0 0) (req.getD 1 0) (req.getD 6 0) (responsePdu req a)

/-! ### Frames of a PDU -/

@[simp] theorem length_adu (tidHi tidLo unitId : UInt8) (pdu : Bytes) :
    (adu tidHi tidLo unitId pdu).length = 7 + pdu.length := by
  simp only [adu, List.length_append, List.length_cons, List.length_nil]

@[simp] theorem frameTid_adu (tidHi tidLo unitId : UInt8) (pdu : Bytes) :
    frameTid (adu tidHi tidLo unitId pdu) = word tidHi tidLo :=
  rfl

/-- The function code and the bytes behind it are the PDU. -/
theorem getD_adu (tidHi tidLo unitId : UInt8) (pdu : Bytes) (i : ℕ) :
    (adu tidHi tidLo unitId pdu).getD (7 + i) 0 = pdu.getD i 0 := by
  simp only [adu, List.getD_eq_getElem?_getD]
  rw [List.getElem?_append_right (by simp only [List.length_cons, List.length_nil]; omega)]
  simp only [List.length_cons, List.length_nil, Nat.zero_add, Nat.reduceAdd,
    Nat.add_sub_cancel_left]

/-- The length field delimits a frame, as long as the buffer of the client has room for it. -/
theorem isFrame_adu (tidHi tidLo unitId : UInt8) {pdu : Bytes} (h : pdu.length ≤ 253) :
    IsFrame MODBUS_TCP_MAX_ADU_LENGTH (adu tidHi tidLo unitId pdu) := by
  have hmbap : mbapLength (adu tidHi tidLo unitId pdu) = .ofNat (1 + pdu.length) :=
    word_highByte_lowByte _
  have hnat : (mbapLength (adu tidHi tidLo unitId pdu)).toNat = 1 + pdu.length := by
    rw [hmbap, UInt16.toNat_ofNat']
    omega
  refine ⟨?_, fun hzero => ?_, ?_⟩
  · rw [length_adu, hnat, MODBUS_TCP_MBAP_HEADER_LEN]
    omega
  · rw [hzero, UInt16.toNat_zero] at hnat
    omega
  · rw [hnat]
    unfold MODBUS_TCP_MAX_ADU_LENGTH MODBUS_TCP_MBAP_HEADER_LEN
    omega

/-! ### The response to a request of the client -/

namespace Request

/-- The registers that a normal answer returns to the caller. -/
def registers (v : ℕ → UInt16) : Request → List UInt16
  | read _ qty => (List.range qty.toNat).map v
  | _ => []

/-- The address of a request and the word behind it. -/
def args : Request → UInt16 × UInt16
  | read addr qty => (addr, qty)
  | writeSingle addr value => (addr, value)
  | writeMultiple addr qty _ => (addr, qty)

/-- The first twelve bytes of a request. -/
theorem frame_eq (q : Request) (hq : q.valid = true) (tid : UInt16) (unitId : UInt8) :
    ∃ lenHi lenLo rest, q.frame tid unitId =
      [highByte tid, lowByte tid, 0, 0, lenHi, lenLo, unitId, q.fc, highByte q.args.1,
        lowByte q.args.1, highByte q.args.2, lowByte q.args.2] ++ rest := by
  cases q with
  | read addr qty => exact ⟨_, _, [], rfl⟩
  | writeSingle addr value => exact ⟨_, _, [], rfl⟩
  | writeMultiple addr qty data =>
    have hqty : qty.toNat ≤ MODBUS_MAX_WRITE_REGISTERS := (of_decide_eq_true hq).2
    simp only [frame, buildFc16Request_take tid unitId addr hqty]
    exact ⟨_, _, _, rfl⟩

/-- The PDU of the response to a request, by the arguments of the request. -/
def pdu (q : Request) : Answer → Bytes
  | .exception code _ => [q.fc ||| MODBUS_EXCEPTION_FLAG, code]
  | .normal v => match q with
    | read _ qty => [q.fc, .ofNat (2 * qty.toNat)] ++ wordBytes (q.registers v)
    | _ => [q.fc, highByte q.args.1, lowByte q.args.1, highByte q.args.2, lowByte q.args.2]

theorem serverResponse_frame (q : Request) (hq : q.valid = true) (tid : UInt16) (unitId : UInt8)
    (a : Answer) :
    serverResponse (q.frame tid unitId) a =
      adu (highByte tid) (lowByte tid) unitId (q.pdu a) := by
  obtain ⟨lenHi, lenLo, rest, hframe⟩ := q.frame_eq hq tid unitId
  rw [hframe]
  cases a with
  | exception code h => rfl
  | normal v =>
    cases q with
    | read addr qty => simp [serverResponse, responsePdu, pdu, fc, args, registers]
    | writeSingle addr value => rfl
    | writeMultiple addr qty data => rfl

theorem length_pdu_le (q : Request) (hq : q.valid = true) (a : Answer) :
    (q.pdu a).length ≤ 253 := by
  cases a with
  | exception code h => simp [pdu]
  | normal v =>
    cases q with
    | read addr qty =>
      have hqty : qty.toNat ≤ 125 := (of_decide_eq_true hq).2
      simp [pdu, registers]
      omega
    | writeSingle addr value => simp [pdu]
    | writeMultiple addr qty data => simp [pdu]

theorem isFrame_serverResponse (q : Request) (hq : q.valid = true) (tid : UInt16)
    (unitId : UInt8) (a : Answer) :
    IsFrame MODBUS_TCP_MAX_ADU_LENGTH (serverResponse (q.frame tid unitId) a) := by
  rw [q.serverResponse_frame hq]
  exact isFrame_adu _ _ _ (q.length_pdu_le hq a)

theorem frameTid_serverResponse (q : Request) (hq : q.valid = true) (tid : UInt16)
    (unitId : UInt8) (a : Answer) : frameTid (serverResponse (q.frame tid unitId) a) = tid := by
  rw [q.serverResponse_frame hq, frameTid_adu, word_highByte_lowByte]

/-- A byte of the PDU, read from the buffer in which the response is stored. -/
theorem getD_storeAt_adu (buf : Bytes) (tidHi tidLo unitId : UInt8) {pdu : Bytes} {i : ℕ}
    (hi : i < pdu.length) :
    (storeAt buf 0 (adu tidHi tidLo unitId pdu)).getD (7 + i) 0 = pdu.getD i 0 := by
  rw [getD_storeAt_zero, length_adu, if_pos (Nat.add_lt_add_left hi 7), getD_adu]

section Check

variable (q : Request) (hq : q.valid = true) (tid : UInt16) (unitId : UInt8) (a : Answer)
  (buf : Bytes)

include hq

theorem length_serverResponse :
    (serverResponse (q.frame tid unitId) a).length = 7 + (q.pdu a).length := by
  rw [q.serverResponse_frame hq, length_adu]

theorem frameTid_storeAt_serverResponse :
    frameTid (storeAt buf 0 (serverResponse (q.frame tid unitId) a)) = tid := by
  rw [q.serverResponse_frame hq, storeAt_zero]
  exact word_highByte_lowByte tid

/-- A byte of the PDU of the response, read from the buffer. -/
theorem getD_storeAt_serverResponse {i : ℕ} (hi : i < (q.pdu a).length) :
    (storeAt buf 0 (serverResponse (q.frame tid unitId) a)).getD (7 + i) 0 =
      (q.pdu a).getD i 0 := by
  rw [q.serverResponse_frame hq, getD_storeAt_adu buf _ _ _ hi]

end Check

/-- A register of the response to a read, read from the buffer. -/
theorem word_getD_serverResponse {addr qty : UInt16} (hq : (read addr qty).valid = true)
    (tid : UInt16) (unitId : UInt8) (v : ℕ → UInt16) (buf : Bytes) {i : ℕ} (hi : i < qty.toNat) :
    let f := serverResponse ((read addr qty).frame tid unitId) (.normal v)
    word ((storeAt buf 0 f).getD (FC03_RESPONSE_HEADER_LEN + i * 2) 0)
      ((storeAt buf 0 f).getD (FC03_RESPONSE_HEADER_LEN + i * 2 + 1) 0) = v i := by
  intro f
  have hlt : i < ((List.range qty.toNat).map v).length := by simpa using hi
  have hpdu : ((read addr qty).pdu (.normal v)).length = 2 * qty.toNat + 2 := by
    simp [pdu, registers]
  have hhigh : (storeAt buf 0 f).getD (7 + (2 * i + 2)) 0 =
      (wordBytes ((List.range qty.toNat).map v)).getD (2 * i) 0 :=
    getD_storeAt_serverResponse _ hq tid unitId _ buf (by omega)
  have hlow : (storeAt buf 0 f).getD (7 + (2 * i + 3)) 0 =
      (wordBytes ((List.range qty.toNat).map v)).getD (2 * i + 1) 0 :=
    getD_storeAt_serverResponse _ hq tid unitId _ buf (by omega)
  have hplace : FC03_RESPONSE_HEADER_LEN + i * 2 = 7 + (2 * i + 2) := by
    simp only [FC03_RESPONSE_HEADER_LEN]
    omega
  rw [hplace, Nat.add_assoc, hhigh, hlow, word_getD_wordBytes _ hlt]
  simp

/-- **The client takes from the response to its request what the server put there**: the exception
code, or a success and the registers. -/
theorem check_serverResponse (q : Request) (hq : q.valid = true) (tid : UInt16) (unitId : UInt8)
    (a : Answer) (buf : Bytes) :
    let req := q.frame tid unitId
    let f := serverResponse req a
    q.check tid req (storeAt buf 0 f) f.length =
      match a with
      | .normal v => ⟨MB_TCP_CLIENT_OK, q.registers v⟩
      | .exception code _ => ⟨code.toNat, []⟩ := by
  intro req f
  have hlen : f.length = 7 + (q.pdu a).length := q.length_serverResponse hq tid unitId a
  have htid : frameTid (storeAt buf 0 f) = tid :=
    q.frameTid_storeAt_serverResponse hq tid unitId a buf
  have hbyte : ∀ i < (q.pdu a).length,
      (storeAt buf 0 f).getD (7 + i) 0 = (q.pdu a).getD i 0 := fun i hi =>
    q.getD_storeAt_serverResponse hq tid unitId a buf hi
  cases a with
  | exception code h =>
    have hfc : (storeAt buf 0 f).getD ADU_OFFSET_FC 0 = q.fc ||| MODBUS_EXCEPTION_FLAG :=
      hbyte 0 Nat.zero_lt_two
    have hcode : (storeAt buf 0 f).getD ADU_OFFSET_ADDR_HIGH 0 = code := hbyte 1 Nat.one_lt_two
    have hflag : hasExceptionFlag (q.fc ||| MODBUS_EXCEPTION_FLAG) = true := by
      cases q <;> simp only [fc] <;> decide
    have hnine : ¬ f.length < MIN_RESPONSE_LEN := by rw [hlen]; exact Nat.lt_irrefl 9
    cases q <;>
      simp only [check, readResponse, validateWriteResponse, htid, hfc, hcode, hflag, hnine,
        ne_eq, not_true_eq_false, if_false, if_true]
  | normal v =>
    have hfc : (storeAt buf 0 f).getD ADU_OFFSET_FC 0 = q.fc := by
      cases q <;> exact hbyte 0 (Nat.succ_pos _)
    have hflag : hasExceptionFlag q.fc = false := by cases q <;> simp only [fc] <;> decide
    have hwrite : 12 ≤ f.length →
        validateWriteResponse req (storeAt buf 0 f) f.length tid = MB_TCP_CLIENT_OK :=
      fun htwelve => validateWriteResponse_eq_zero_iff.mpr ⟨by omega, htid, .inr
        ⟨by rw [← hflag, ← hfc]; rfl, htwelve, hfc.trans (getD_frame q tid unitId).symm⟩⟩
    cases q with
    | read addr qty =>
      have hcount : (storeAt buf 0 f).getD FC03_RESPONSE_BYTE_COUNT_OFFSET 0 =
          UInt8.ofNat (qty.toNat * 2) := by
        rw [Nat.mul_comm]
        exact hbyte 1 (Nat.succ_lt_succ (Nat.succ_pos _))
      have hnine : ¬ f.length < FC03_RESPONSE_HEADER_LEN := by
        rw [hlen, FC03_RESPONSE_HEADER_LEN]
        simp only [pdu, List.length_append, List.length_cons]
        omega
      have hout : ∀ i ∈ List.range qty.toNat,
          word ((storeAt buf 0 f).getD (FC03_RESPONSE_HEADER_LEN + i * 2) 0)
            ((storeAt buf 0 f).getD (FC03_RESPONSE_HEADER_LEN + i * 2 + 1) 0) = v i := fun i hi =>
        word_getD_serverResponse hq tid unitId v buf (List.mem_range.mp hi)
      have hflag : hasExceptionFlag MODBUS_FUNC_READ_HOLDING_REGISTERS = false := hflag
      simp only [check, readResponse, htid, hfc, hflag, hcount, hnine, List.map_congr_left hout,
        fc, registers, ne_eq, not_true_eq_false, Bool.false_eq_true, if_false]
    | writeSingle addr value =>
      exact congrArg (Reply.mk · []) (hwrite (Nat.le_of_eq hlen.symm))
    | writeMultiple addr qty data =>
      exact congrArg (Reply.mk · []) (hwrite (Nat.le_of_eq hlen.symm))

end Request

end LoopCharger.Modbus

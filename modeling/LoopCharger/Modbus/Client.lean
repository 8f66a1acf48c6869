import LoopCharger.Modbus.Receive

/-!
# The client operations

The three operations of `lib/modbus/modbus_tcp_client.c`: read holding registers (FC03), write a
single register (FC06) and write multiple registers (FC16). Each holds the context mutex from the
next transaction identifier to the end of its response, so that an operation is one step of the
context. The response lands in an uninitialised buffer on the stack, which is an argument of the
model. Log output is left out.

## Main definitions

* `nextTid`, `buildFc03Request`, `buildFc06Request`, `buildFc16Request`: the requests.
* `readResponse`, `validateWriteResponse`: the evaluation of a response.
* `operation`: the course that the three operations share.
* `mbTcpClientReadHoldingRegisters`, `mbTcpClientWriteSingleRegister`,
  `mbTcpClientWriteMultipleRegisters`: the operations.
* `Request`, `Request.call`: a call of any of the three.
* `Request.received`: the frame that answers a call.

## Main results

* `Request.call_of_received`: what a call returns is its evaluation of the frame received, stored
  over whatever the buffer held.
* `Request.call_of_not_received`: without a frame every call fails with a negative code.
-/

namespace LoopCharger.Modbus

open Lib

variable {σ : Type*}

/-! ### Context -/

/-- `mb_tcp_client_config_t`: the fields that the client reads itself. -/
structure MbTcpClientConfig where
  remoteHost : String
  port : UInt16
  unitId : UInt8
  deriving DecidableEq, Repr

/-- `mb_tcp_client_ctx_t` without its mutex. -/
structure MbTcpClientCtx where
  sock : ℤ
  tid : UInt16
  cfg : MbTcpClientConfig
  deriving DecidableEq, Repr

/-- A context and the connection behind its socket. -/
structure Client (σ : Type*) where
  ctx : MbTcpClientCtx
  conn : Conn σ

/-- The transaction identifier after `tid`; zero is left out. -/
def nextTid (tid : UInt16) : UInt16 := if tid < 65535 then tid + 1 else 1

/-! ### Requests -/

/-- A request of twelve bytes: FC03 with a quantity, or FC06 with a value. -/
def buildStandardRequest (fc : UInt8) (tid : UInt16) (unitId : UInt8) (addr arg : UInt16) :
    Bytes :=
  [highByte tid, lowByte tid, 0, 0, 0, MODBUS_TCP_MBAP_LEN_STANDARD_REQ, unitId, fc,
    highByte addr, lowByte addr, highByte arg, lowByte arg]

def buildFc03Request (tid : UInt16) (unitId : UInt8) (addr qty : UInt16) : Bytes :=
  buildStandardRequest MODBUS_FUNC_READ_HOLDING_REGISTERS tid unitId addr qty

def buildFc06Request (tid : UInt16) (unitId : UInt8) (addr value : UInt16) : Bytes :=
  buildStandardRequest MODBUS_FUNC_WRITE_SINGLE_REGISTER tid unitId addr value

/-- The FC16 request: the bytes written, and the length returned. The byte count is truncated to
eight bits, and the length follows it. -/
def buildFc16Request (tid : UInt16) (unitId : UInt8) (addr qty : UInt16) (data : ℕ → UInt16) :
    Bytes × ℕ :=
  let byteCount := UInt8.ofNat (qty.toNat * 2)
  let mbapLen : UInt16 := 7 + byteCount.toUInt16
  ([highByte tid, lowByte tid, 0, 0, highByte mbapLen, lowByte mbapLen, unitId,
      MODBUS_FUNC_WRITE_MULTIPLE_REGISTERS, highByte addr, lowByte addr, highByte qty,
      lowByte qty, byteCount] ++ wordBytes ((List.range qty.toNat).map data),
    MODBUS_TCP_MBAP_HEADER_LEN + mbapLen.toNat)

/-- The length returned is the one of the thirteen bytes in front of the data, and of the byte
count. -/
theorem buildFc16Request_length (tid : UInt16) (unitId : UInt8) (addr qty : UInt16)
    (data : ℕ → UInt16) :
    (buildFc16Request tid unitId addr qty data).2 = 13 + (UInt8.ofNat (qty.toNat * 2)).toNat := by
  have := (UInt8.ofNat (qty.toNat * 2)).toNat_lt
  simp only [buildFc16Request, MODBUS_TCP_MBAP_HEADER_LEN, UInt16.toNat_add, UInt16.reduceToNat,
    UInt8.toNat_toUInt16]
  omega

/-- A quantity that FC16 allows fits the byte count, and the whole request is sent. -/
theorem buildFc16Request_take (tid : UInt16) (unitId : UInt8) (addr : UInt16) {qty : UInt16}
    (h : qty.toNat ≤ MODBUS_MAX_WRITE_REGISTERS) (data : ℕ → UInt16) :
    (buildFc16Request tid unitId addr qty data).1.take
        (buildFc16Request tid unitId addr qty data).2 =
      (buildFc16Request tid unitId addr qty data).1 := by
  have hqty : qty.toNat ≤ 123 := h
  refine List.take_of_length_le ?_
  rw [buildFc16Request_length]
  simp only [buildFc16Request, List.length_append, List.length_cons, List.length_nil,
    length_wordBytes, List.length_map, List.length_range, UInt8.toNat_ofNat']
  omega

/-! ### Evaluation of a response -/

def ADU_OFFSET_FC : ℕ := 7
def ADU_OFFSET_ADDR_HIGH : ℕ := 8

/-- Length of an FC06 or FC16 success response. -/
def FC16_RESPONSE_LEN : ℕ := 12

/-- Length of an exception response, the shortest of all. -/
def MIN_RESPONSE_LEN : ℕ := 9

/-- Bytes before the data of an FC03 response. -/
def FC03_RESPONSE_HEADER_LEN : ℕ := 9

def FC03_RESPONSE_BYTE_COUNT_OFFSET : ℕ := 8

/-- The transaction identifier in a frame. -/
def frameTid (frame : Bytes) : UInt16 := word (frame.getD 0 0) (frame.getD 1 0)

/-- Whether a function code has the exception bit. -/
def hasExceptionFlag (fc : UInt8) : Bool := fc &&& MODBUS_EXCEPTION_FLAG != 0

/-- What an operation hands to its caller: a return code and the registers stored in `out`. -/
structure Reply where
  rc : ℤ
  out : List UInt16
  deriving DecidableEq, Repr

/-- The checks of the read operation on a response of `totalLen` bytes at the front of `resp`. -/
def readResponse (tid qty : UInt16) (resp : Bytes) (totalLen : ℕ) : Reply :=
  if frameTid resp ≠ tid then ⟨MB_TCP_CLIENT_ERR_TID, []⟩
  else
    let respFc := resp.getD ADU_OFFSET_FC 0
    if hasExceptionFlag respFc then ⟨(resp.getD ADU_OFFSET_ADDR_HIGH 0).toNat, []⟩
    else if respFc ≠ MODBUS_FUNC_READ_HOLDING_REGISTERS then ⟨MB_TCP_CLIENT_ERR_FRAME, []⟩
    else if totalLen < FC03_RESPONSE_HEADER_LEN then ⟨MB_TCP_CLIENT_ERR_FRAME, []⟩
    else if resp.getD FC03_RESPONSE_BYTE_COUNT_OFFSET 0 ≠ UInt8.ofNat (qty.toNat * 2) then
      ⟨MB_TCP_CLIENT_ERR_FRAME, []⟩
    else
      ⟨MB_TCP_CLIENT_OK, (List.range qty.toNat).map fun i =>
        word (resp.getD (FC03_RESPONSE_HEADER_LEN + i * 2) 0)
          (resp.getD (FC03_RESPONSE_HEADER_LEN + i * 2 + 1) 0)⟩

/-- The checks of the two write operations. -/
def validateWriteResponse (req resp : Bytes) (totalLen : ℕ) (expectedTid : UInt16) : ℤ :=
  if totalLen < MIN_RESPONSE_LEN then MB_TCP_CLIENT_ERR_FRAME
  else if frameTid resp ≠ expectedTid then MB_TCP_CLIENT_ERR_TID
  else
    let respFc := resp.getD ADU_OFFSET_FC 0
    if hasExceptionFlag respFc then (resp.getD ADU_OFFSET_ADDR_HIGH 0).toNat
    else if totalLen < FC16_RESPONSE_LEN then MB_TCP_CLIENT_ERR_FRAME
    else if respFc ≠ req.getD ADU_OFFSET_FC 0 then MB_TCP_CLIENT_ERR_FRAME
    else MB_TCP_CLIENT_OK

/-! ### The operations -/

/-- The response buffer of an operation, a local array that is not initialised. -/
abbrev ResponseBuffer := Vector UInt8 MODBUS_TCP_MAX_ADU_LENGTH

/-- The client error of a failed `recv_response`. -/
def recvErrToClientErr (recvRc : ℤ) : ℤ :=
  if recvRc = -2 then MB_TCP_CLIENT_ERR_TIMEOUT else MB_TCP_CLIENT_ERR_TRANSPORT

/-- Send a request and receive one response into `buf`: the buffer and the length of the response,
or the return code of the operation. -/
def transact (T : Transport σ) (c : Conn σ) (req buf : Bytes) : Except ℤ (Bytes × ℕ) × Conn σ :=
  match T.send c.net req with
  | (.error e, net) => (.error MB_TCP_CLIENT_ERR_TRANSPORT, ⟨e, net⟩)
  | (.sent n, net) =>
    if n ≠ req.length then (.error MB_TCP_CLIENT_ERR_TRANSPORT, ⟨c.errno, net⟩)
    else
      let r := recvResponse T ⟨c.errno, net⟩ buf MODBUS_TCP_MAX_ADU_LENGTH
      if r.1.rc ≠ 0 then (.error (recvErrToClientErr r.1.rc), r.2)
      else (.ok (r.1.buf, r.1.totalLen), r.2)

/-- The course of an operation: the checks of its arguments and of the socket, the next
transaction identifier, the exchange of its request, and the evaluation of the response. -/
def operation (T : Transport σ) (cl : Client σ) (argsOk : Bool)
    (build : UInt16 → UInt8 → Bytes) (check : UInt16 → Bytes → Bytes → ℕ → Reply)
    (resp : ResponseBuffer) : Reply × Client σ :=
  if !argsOk then (⟨MB_TCP_CLIENT_ERR_ARG, []⟩, cl)
  else if cl.ctx.sock < 0 then (⟨MB_TCP_CLIENT_ERR_NOT_CONNECTED, []⟩, cl)
  else
    let tid := nextTid cl.ctx.tid
    let req := build tid cl.ctx.cfg.unitId
    match transact T cl.conn req resp.toList with
    | (.error rc, conn) => (⟨rc, []⟩, ⟨{ cl.ctx with tid }, conn⟩)
    | (.ok (resp, totalLen), conn) =>
      (check tid req resp totalLen, ⟨{ cl.ctx with tid }, conn⟩)

/-- FC03. The registers are stored in `out` on `MB_TCP_CLIENT_OK` only. -/
def mbTcpClientReadHoldingRegisters (T : Transport σ) (cl : Client σ) (addr qty : UInt16)
    (resp : ResponseBuffer) : Reply × Client σ :=
  operation T cl (qty ≠ 0 ∧ qty.toNat ≤ MODBUS_MAX_READ_REGISTERS)
    (fun tid unitId => buildFc03Request tid unitId addr qty)
    (fun tid _ resp totalLen => readResponse tid qty resp totalLen) resp

/-- FC06. -/
def mbTcpClientWriteSingleRegister (T : Transport σ) (cl : Client σ) (addr value : UInt16)
    (resp : ResponseBuffer) : Reply × Client σ :=
  operation T cl true (fun tid unitId => buildFc06Request tid unitId addr value)
    (fun tid req resp totalLen => ⟨validateWriteResponse req resp totalLen tid, []⟩) resp

/-- FC16. The bytes sent are the first ones of the request buffer, up to the length returned by
the builder. -/
def mbTcpClientWriteMultipleRegisters (T : Transport σ) (cl : Client σ) (addr qty : UInt16)
    (data : ℕ → UInt16) (resp : ResponseBuffer) : Reply × Client σ :=
  operation T cl (qty ≠ 0 ∧ qty.toNat ≤ MODBUS_MAX_WRITE_REGISTERS)
    (fun tid unitId =>
      let r := buildFc16Request tid unitId addr qty data
      r.1.take r.2)
    (fun tid req resp totalLen => ⟨validateWriteResponse req resp totalLen tid, []⟩) resp

/-! ### A call of any of the three -/

/-- The arguments of a call. -/
inductive Request
  | read (addr qty : UInt16)
  | writeSingle (addr value : UInt16)
  | writeMultiple (addr qty : UInt16) (data : ℕ → UInt16)

namespace Request

/-- The operation, called. -/
def call (T : Transport σ) (cl : Client σ) (resp : ResponseBuffer) : Request → Reply × Client σ
  | read addr qty => mbTcpClientReadHoldingRegisters T cl addr qty resp
  | writeSingle addr value => mbTcpClientWriteSingleRegister T cl addr value resp
  | writeMultiple addr qty data => mbTcpClientWriteMultipleRegisters T cl addr qty data resp

/-- The checks of the arguments. -/
def valid : Request → Bool
  | read _ qty => qty ≠ 0 ∧ qty.toNat ≤ MODBUS_MAX_READ_REGISTERS
  | writeSingle _ _ => true
  | writeMultiple _ qty _ => qty ≠ 0 ∧ qty.toNat ≤ MODBUS_MAX_WRITE_REGISTERS

/-- The function code of the request. -/
def fc : Request → UInt8
  | read _ _ => MODBUS_FUNC_READ_HOLDING_REGISTERS
  | writeSingle _ _ => MODBUS_FUNC_WRITE_SINGLE_REGISTER
  | writeMultiple _ _ _ => MODBUS_FUNC_WRITE_MULTIPLE_REGISTERS

/-- The request on the wire. -/
def frame (tid : UInt16) (unitId : UInt8) : Request → Bytes
  | read addr qty => buildFc03Request tid unitId addr qty
  | writeSingle addr value => buildFc06Request tid unitId addr value
  | writeMultiple addr qty data =>
    let r := buildFc16Request tid unitId addr qty data
    r.1.take r.2

/-- The evaluation of the response. -/
def check (tid : UInt16) (req resp : Bytes) (totalLen : ℕ) : Request → Reply
  | read _ qty => readResponse tid qty resp totalLen
  | _ => ⟨validateWriteResponse req resp totalLen tid, []⟩

/-- A call up to its evaluation: the frame received, or the code the call fails with. -/
def exchange (T : Transport σ) (cl : Client σ) (q : Request) : Except ℤ Bytes × Client σ :=
  if !q.valid then (.error MB_TCP_CLIENT_ERR_ARG, cl)
  else if cl.ctx.sock < 0 then (.error MB_TCP_CLIENT_ERR_NOT_CONNECTED, cl)
  else
    let tid := nextTid cl.ctx.tid
    let req := q.frame tid cl.ctx.cfg.unitId
    match T.send cl.conn.net req with
    | (.error e, net) =>
      (.error MB_TCP_CLIENT_ERR_TRANSPORT, ⟨{ cl.ctx with tid }, ⟨e, net⟩⟩)
    | (.sent n, net) =>
      if n ≠ req.length then
        (.error MB_TCP_CLIENT_ERR_TRANSPORT, ⟨{ cl.ctx with tid }, ⟨cl.conn.errno, net⟩⟩)
      else
        let r := recvFrame T ⟨cl.conn.errno, net⟩ MODBUS_TCP_MAX_ADU_LENGTH
        (r.1.mapError recvErrToClientErr, ⟨{ cl.ctx with tid }, r.2⟩)

/-- The frame that answers a call, if one comes. -/
def received (T : Transport σ) (cl : Client σ) (q : Request) : Option Bytes :=
  (q.exchange T cl).1.toOption

end Request

/-- `transact` is an exchange without a buffer, and a store of the frame received. -/
theorem transact_eq (T : Transport σ) (c : Conn σ) (req buf : Bytes) :
    transact T c req buf =
      match T.send c.net req with
      | (.error e, net) => (.error MB_TCP_CLIENT_ERR_TRANSPORT, ⟨e, net⟩)
      | (.sent n, net) =>
        if n ≠ req.length then (.error MB_TCP_CLIENT_ERR_TRANSPORT, ⟨c.errno, net⟩)
        else
          let r := recvFrame T ⟨c.errno, net⟩ MODBUS_TCP_MAX_ADU_LENGTH
          ((r.1.mapError recvErrToClientErr).map fun f => (storeAt buf 0 f, f.length), r.2) := by
  unfold transact
  rcases T.send c.net req with ⟨n | e, net⟩
  case error => rfl
  case sent =>
    dsimp only
    split
    · rfl
    · obtain ⟨hconn, hresp⟩ :=
        recvResponse_eq T ⟨c.errno, net⟩ buf MODBUS_TCP_MAX_ADU_LENGTH
      rcases hframe : recvFrame T ⟨c.errno, net⟩ MODBUS_TCP_MAX_ADU_LENGTH with ⟨rc | f, c'⟩
      · rw [hframe] at hconn hresp
        obtain ⟨hrc, hne⟩ := hresp
        simp only [ne_eq, hrc, hne, not_false_eq_true, if_true, hconn, Except.mapError, Except.map]
      · rw [hframe] at hconn hresp
        dsimp only at hresp
        simp only [hresp, ne_eq, not_true_eq_false, if_false, hconn, Except.mapError, Except.map]

namespace Request

theorem call_eq_operation (T : Transport σ) (cl : Client σ) (q : Request)
    (resp : ResponseBuffer) :
    q.call T cl resp = operation T cl q.valid (fun tid unitId => q.frame tid unitId)
      (fun tid req resp totalLen => q.check tid req resp totalLen) resp := by
  cases q <;> rfl

/-- **A call is its exchange and the evaluation of the frame received**, which is stored over
whatever the response buffer held. -/
theorem call_eq (T : Transport σ) (cl : Client σ) (q : Request) (resp : ResponseBuffer) :
    q.call T cl resp =
      (match (q.exchange T cl).1 with
        | .error rc => ⟨rc, []⟩
        | .ok f => q.check (nextTid cl.ctx.tid) (q.frame (nextTid cl.ctx.tid) cl.ctx.cfg.unitId)
            (storeAt resp.toList 0 f) f.length,
        (q.exchange T cl).2) := by
  rw [call_eq_operation]
  simp only [operation, exchange, transact_eq]
  by_cases hvalid : q.valid = true
  case neg => simp only [hvalid, Bool.not_false, if_true]
  by_cases hsock : cl.ctx.sock < 0
  case pos => simp only [hvalid, hsock, Bool.not_true, Bool.false_eq_true, if_false, if_true]
  simp only [hvalid, hsock, Bool.not_true, Bool.false_eq_true, if_false]
  rcases T.send cl.conn.net (q.frame (nextTid cl.ctx.tid) cl.ctx.cfg.unitId) with ⟨n | e, net⟩
  case error => rfl
  case sent =>
    dsimp only
    by_cases hn : n ≠ (q.frame (nextTid cl.ctx.tid) cl.ctx.cfg.unitId).length
    case pos => simp only [if_pos hn]
    simp only [if_neg hn]
    rcases recvFrame T ⟨cl.conn.errno, net⟩ MODBUS_TCP_MAX_ADU_LENGTH with ⟨rc | f, c'⟩ <;> rfl

/-- The code of a call that sends nothing. -/
def refusal (q : Request) : ℤ :=
  if q.valid then MB_TCP_CLIENT_ERR_NOT_CONNECTED else MB_TCP_CLIENT_ERR_ARG

section Exchange

variable {T : Transport σ} {cl : Client σ} {q : Request}

theorem exchange_of_not_ready (h : ¬ (q.valid = true ∧ 0 ≤ cl.ctx.sock)) :
    q.exchange T cl = (.error q.refusal, cl) := by
  unfold exchange refusal
  by_cases hvalid : q.valid = true
  case neg => simp only [hvalid, Bool.not_false, Bool.false_eq_true, if_true, if_false]
  have hsock : cl.ctx.sock < 0 := Int.not_le.mp fun hsock => h ⟨hvalid, hsock⟩
  simp only [hvalid, hsock, Bool.not_true, Bool.false_eq_true, if_true, if_false]

theorem call_of_not_ready (h : ¬ (q.valid = true ∧ 0 ≤ cl.ctx.sock)) (resp : ResponseBuffer) :
    q.call T cl resp = (⟨q.refusal, []⟩, cl) := by
  rw [call_eq, exchange_of_not_ready h]

/-- An exchange whose request is not sent whole. -/
theorem exchange_of_unsent (h : q.valid = true ∧ 0 ≤ cl.ctx.sock) {r : SendResult} {net : σ}
    (hsend : T.send cl.conn.net (q.frame (nextTid cl.ctx.tid) cl.ctx.cfg.unitId) = (r, net))
    (hr : r ≠ .sent (q.frame (nextTid cl.ctx.tid) cl.ctx.cfg.unitId).length) :
    q.exchange T cl = (.error MB_TCP_CLIENT_ERR_TRANSPORT,
      ⟨{ cl.ctx with tid := nextTid cl.ctx.tid }, ⟨r.errnoAfter cl.conn.errno, net⟩⟩) := by
  have hsock : ¬ cl.ctx.sock < 0 := Int.not_lt.mpr h.2
  simp only [exchange, h.1, hsock, Bool.not_true, Bool.false_eq_true, if_false, hsend]
  cases r with
  | error e => rfl
  | sent n =>
    have hn : n ≠ (q.frame (nextTid cl.ctx.tid) cl.ctx.cfg.unitId).length :=
      fun hn => hr (congrArg SendResult.sent hn)
    simp only [ne_eq, hn, not_false_eq_true, if_true]
    rfl

/-- An exchange whose request is sent. -/
theorem exchange_of_sent (h : q.valid = true ∧ 0 ≤ cl.ctx.sock) {net : σ}
    (hsend : T.send cl.conn.net (q.frame (nextTid cl.ctx.tid) cl.ctx.cfg.unitId) =
      (.sent (q.frame (nextTid cl.ctx.tid) cl.ctx.cfg.unitId).length, net)) :
    q.exchange T cl =
      ((recvFrame T ⟨cl.conn.errno, net⟩ MODBUS_TCP_MAX_ADU_LENGTH).1.mapError recvErrToClientErr,
        ⟨{ cl.ctx with tid := nextTid cl.ctx.tid },
          (recvFrame T ⟨cl.conn.errno, net⟩ MODBUS_TCP_MAX_ADU_LENGTH).2⟩) := by
  have hsock : ¬ cl.ctx.sock < 0 := Int.not_lt.mpr h.2
  simp only [exchange, h.1, hsock, Bool.not_true, Bool.false_eq_true, if_false, hsend, ne_eq,
    not_true_eq_false]

end Exchange

/-- An exchange that receives a frame sent its request whole. -/
theorem exchange_ok_cases {T : Transport σ} {cl cl' : Client σ} {q : Request} {f : Bytes}
    (h : q.exchange T cl = (.ok f, cl')) :
    q.valid = true ∧ 0 ≤ cl.ctx.sock ∧ ∃ net c',
      T.send cl.conn.net (q.frame (nextTid cl.ctx.tid) cl.ctx.cfg.unitId) =
          (.sent (q.frame (nextTid cl.ctx.tid) cl.ctx.cfg.unitId).length, net) ∧
        recvFrame T ⟨cl.conn.errno, net⟩ MODBUS_TCP_MAX_ADU_LENGTH = (.ok f, c') ∧
        cl' = ⟨{ cl.ctx with tid := nextTid cl.ctx.tid }, c'⟩ := by
  by_cases hready : q.valid = true ∧ 0 ≤ cl.ctx.sock
  case neg => rw [exchange_of_not_ready hready] at h; cases h
  rcases hsend : T.send cl.conn.net (q.frame (nextTid cl.ctx.tid) cl.ctx.cfg.unitId) with ⟨r, net⟩
  by_cases hr : r = .sent (q.frame (nextTid cl.ctx.tid) cl.ctx.cfg.unitId).length
  case neg => rw [exchange_of_unsent hready hsend hr] at h; cases h
  subst hr
  rw [exchange_of_sent hready hsend] at h
  rcases hframe : recvFrame T ⟨cl.conn.errno, net⟩ MODBUS_TCP_MAX_ADU_LENGTH with ⟨rc | g, c'⟩
  all_goals rw [hframe] at h; cases h
  exact ⟨hready.1, hready.2, net, c', rfl, hframe, rfl⟩

theorem received_eq_some_iff {T : Transport σ} {cl : Client σ} {q : Request} {f : Bytes} :
    q.received T cl = some f ↔ (q.exchange T cl).1 = .ok f := by
  unfold received
  rcases (q.exchange T cl).1 with rc | g <;> simp [Except.toOption]

/-- The evaluation of the frame that answers a call. -/
theorem call_of_received {T : Transport σ} {cl : Client σ} {q : Request} {f : Bytes}
    (h : q.received T cl = some f) (resp : ResponseBuffer) :
    (q.call T cl resp).1 =
      q.check (nextTid cl.ctx.tid) (q.frame (nextTid cl.ctx.tid) cl.ctx.cfg.unitId)
        (storeAt resp.toList 0 f) f.length := by
  rw [call_eq, received_eq_some_iff.mp h]

/-- The failure of an exchange has a negative code. -/
theorem exchange_error_neg {T : Transport σ} {cl : Client σ} {q : Request} {rc : ℤ}
    (h : (q.exchange T cl).1 = .error rc) : rc < 0 := by
  have hrecv : ∀ rc, recvErrToClientErr rc < 0 := fun rc => by
    unfold recvErrToClientErr
    split <;> decide
  have hrefusal : q.refusal < 0 := by
    unfold refusal
    split <;> decide
  by_cases hready : q.valid = true ∧ 0 ≤ cl.ctx.sock
  case neg =>
    rw [exchange_of_not_ready hready] at h
    exact Except.error.inj h ▸ hrefusal
  rcases hsend : T.send cl.conn.net (q.frame (nextTid cl.ctx.tid) cl.ctx.cfg.unitId) with ⟨r, net⟩
  by_cases hr : r = .sent (q.frame (nextTid cl.ctx.tid) cl.ctx.cfg.unitId).length
  case neg =>
    rw [exchange_of_unsent hready hsend hr] at h
    exact Except.error.inj h ▸ by decide
  subst hr
  rw [exchange_of_sent hready hsend] at h
  rcases hframe : (recvFrame T ⟨cl.conn.errno, net⟩ MODBUS_TCP_MAX_ADU_LENGTH).1 with rc' | f
  · rw [hframe] at h
    exact Except.error.inj h ▸ hrecv rc'
  · rw [hframe] at h
    cases h

/-- Without a frame, a call fails with a negative code, the same for every buffer. -/
theorem call_of_not_received {T : Transport σ} {cl : Client σ} {q : Request}
    (h : q.received T cl = none) :
    ∃ rc < 0, ∀ resp, (q.call T cl resp).1 = ⟨rc, []⟩ := by
  unfold received at h
  rcases hex : (q.exchange T cl).1 with rc | f
  · exact ⟨rc, exchange_error_neg hex, fun resp => by rw [call_eq, hex]⟩
  · rw [hex] at h
    cases h

/-- A frame that answers a call is cut where its own length field says. -/
theorem isFrame_of_received {T : Transport σ} {cl : Client σ} {q : Request} {f : Bytes}
    (h : q.received T cl = some f) : IsFrame MODBUS_TCP_MAX_ADU_LENGTH f := by
  obtain ⟨-, -, net, c', -, hframe, -⟩ :=
    exchange_ok_cases (Prod.ext (received_eq_some_iff.mp h) (Eq.refl (q.exchange T cl).2))
  exact (recvFrame_reads hframe).2

end Request

end LoopCharger.Modbus

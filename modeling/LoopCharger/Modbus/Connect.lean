import LoopCharger.Modbus.Client

/-!
# Connecting and disconnecting

`mb_tcp_client_connect` and `mb_tcp_client_disconnect` of `lib/modbus/modbus_tcp_client.c`, on a
network in which connections are opened and closed, and the frames that a client hands to `send`.
The socket calls of `mb_tcp_connect` and the mutex of the context are left to the network: a
connection attempt has a descriptor or has none.

## Main definitions

* `Network`: a transport whose connections are opened and closed.
* `mbTcpClientConnect`, `mbTcpClientDisconnect`: the two operations.
* `Network.logged`: a network that keeps every frame handed to `send`.

## Main results

* `Request.log_exchange`: a call hands its frame to `send` once, if its arguments are valid and
  the client has a socket, and otherwise nothing.
-/

namespace LoopCharger.Modbus

open Lib

/-- A transport on which connections are opened and closed. -/
structure Network (σ : Type*) extends Transport σ where
  /-- `mb_tcp_connect`: the descriptor of the new connection, if the attempt succeeds. -/
  connect : String → UInt16 → Conn σ → Option ℕ × Conn σ
  /-- `close` of a descriptor. -/
  close : Conn σ → Conn σ

variable {σ : Type*} (N : Network σ)

/-- A context filled with zero bytes. -/
def MbTcpClientCtx.zero : MbTcpClientCtx := ⟨0, 0, ⟨"", 0, 0⟩⟩

/-- Open the connection of a client: `0` on success, `-1` on failure. A configuration without a
host or a port leaves the context as it was. -/
def mbTcpClientConnect (cl : Client σ) (cfg : MbTcpClientConfig) : ℤ × Client σ :=
  if cfg.remoteHost = "" ∨ cfg.port = 0 then (-1, cl)
  else
    match N.connect cfg.remoteHost cfg.port cl.conn with
    | (some fd, conn) => (0, ⟨⟨fd, 0, cfg⟩, conn⟩)
    | (none, conn) => (-1, ⟨⟨-1, 0, cfg⟩, conn⟩)

/-- Close the connection of a client, if it has one. -/
def mbTcpClientDisconnect (cl : Client σ) : Client σ :=
  if cl.ctx.sock ≥ 0 then ⟨{ cl.ctx with sock := -1 }, N.close cl.conn⟩ else cl

/-- A client that is connected has a socket and its configuration. -/
theorem mbTcpClientConnect_of_eq_zero {cl : Client σ} {cfg : MbTcpClientConfig}
    (h : (mbTcpClientConnect N cl cfg).1 = 0) :
    0 ≤ (mbTcpClientConnect N cl cfg).2.ctx.sock ∧
      (mbTcpClientConnect N cl cfg).2.ctx.cfg = cfg := by
  have hneg : (-1 : ℤ) ≠ 0 := by decide
  unfold mbTcpClientConnect at h ⊢
  split_ifs at h ⊢ with hcfg
  · exact absurd h hneg
  · rcases hconn : N.connect cfg.remoteHost cfg.port cl.conn with ⟨_ | fd, conn⟩
    · rw [hconn] at h
      exact absurd h hneg
    · exact ⟨Int.natCast_nonneg fd, rfl⟩

/-! ### The frames handed to `send` -/

/-- The transport that keeps every frame handed to `send`. -/
def Transport.logged (T : Transport σ) : Transport (σ × List Bytes) where
  recv s n :=
    let r := T.recv s.1 n
    (r.1, r.2, s.2)
  send s frame :=
    let r := T.send s.1 frame
    (r.1, r.2, s.2 ++ [frame])
  length_recv_le s n := T.length_recv_le s.1 n

/-- The network that keeps every frame handed to `send`, over all its connections. -/
def Network.logged : Network (σ × List Bytes) where
  toTransport := N.toTransport.logged
  connect host port c :=
    let r := N.connect host port ⟨c.errno, c.net.1⟩
    (r.1, ⟨r.2.errno, r.2.net, c.net.2⟩)
  close c :=
    let r := N.close ⟨c.errno, c.net.1⟩
    ⟨r.errno, r.net, c.net.2⟩

/-- The frames that a client handed to `send`, the oldest first. -/
def Client.log (cl : Client (σ × List Bytes)) : List Bytes := cl.conn.net.2

/-- Receiving sends nothing. -/
theorem Transport.Reads.log_eq {T : Transport σ} {s s' : σ × List Bytes} {bs : Bytes}
    (h : T.logged.Reads s bs s') : s'.2 = s.2 := by
  induction h with
  | refl => rfl
  | recv n _ ih => exact ih

@[simp] theorem log_mbTcpClientConnect (cl : Client (σ × List Bytes)) (cfg : MbTcpClientConfig) :
    (mbTcpClientConnect N.logged cl cfg).2.log = cl.log := by
  simp only [mbTcpClientConnect, Network.logged]
  split_ifs
  · rfl
  · rcases N.connect cfg.remoteHost cfg.port ⟨cl.conn.errno, cl.conn.net.1⟩ with ⟨_ | fd, c⟩ <;> rfl

@[simp] theorem log_mbTcpClientDisconnect (cl : Client (σ × List Bytes)) :
    (mbTcpClientDisconnect N.logged cl).log = cl.log := by
  unfold mbTcpClientDisconnect
  split_ifs <;> rfl

/-- A call with valid arguments on a socket takes the next transaction identifier. -/
theorem Request.ctx_exchange_eq (T : Transport σ) (cl : Client σ) (q : Request) :
    (q.exchange T cl).2.ctx =
      if q.valid = true ∧ 0 ≤ cl.ctx.sock then { cl.ctx with tid := nextTid cl.ctx.tid }
      else cl.ctx := by
  by_cases hready : q.valid = true ∧ 0 ≤ cl.ctx.sock
  case neg => rw [Request.exchange_of_not_ready hready, if_neg hready]
  rw [if_pos hready]
  rcases hsend : T.send cl.conn.net (q.frame (nextTid cl.ctx.tid) cl.ctx.cfg.unitId) with ⟨r, net⟩
  by_cases hr : r = .sent (q.frame (nextTid cl.ctx.tid) cl.ctx.cfg.unitId).length
  case neg => rw [Request.exchange_of_unsent hready hsend hr]
  subst hr
  rw [Request.exchange_of_sent hready hsend]

/-- What a call changes of the context is the transaction identifier. -/
theorem Request.ctx_exchange (T : Transport σ) (cl : Client σ) (q : Request) :
    (q.exchange T cl).2.ctx.sock = cl.ctx.sock ∧ (q.exchange T cl).2.ctx.cfg = cl.ctx.cfg := by
  rw [Request.ctx_exchange_eq]
  split_ifs <;> exact ⟨rfl, rfl⟩

/-- **What a call sends.** A call with valid arguments on a socket hands its frame to `send` once,
whatever becomes of it; without a socket it sends nothing. -/
theorem Request.log_exchange (T : Transport σ) (cl : Client (σ × List Bytes)) (q : Request) :
    (q.exchange T.logged cl).2.log =
      if q.valid = true ∧ 0 ≤ cl.ctx.sock then
        cl.log ++ [q.frame (nextTid cl.ctx.tid) cl.ctx.cfg.unitId]
      else cl.log := by
  by_cases hready : q.valid = true ∧ 0 ≤ cl.ctx.sock
  case neg => rw [Request.exchange_of_not_ready hready, if_neg hready]
  rw [if_pos hready]
  rcases hsend : T.logged.send cl.conn.net (q.frame (nextTid cl.ctx.tid) cl.ctx.cfg.unitId) with
    ⟨r, net⟩
  have hlog : net.2 = cl.log ++ [q.frame (nextTid cl.ctx.tid) cl.ctx.cfg.unitId] :=
    (congrArg (fun r => r.2.2) hsend).symm
  by_cases hr : r = .sent (q.frame (nextTid cl.ctx.tid) cl.ctx.cfg.unitId).length
  case neg =>
    rw [Request.exchange_of_unsent hready hsend hr]
    exact hlog
  subst hr
  rw [Request.exchange_of_sent hready hsend]
  obtain ⟨bs, hreads⟩ := exists_reads_recvFrame T.logged ⟨cl.conn.errno, net⟩
    MODBUS_TCP_MAX_ADU_LENGTH
  exact hreads.log_eq.trans hlog

theorem Request.ctx_call (T : Transport σ) (cl : Client σ) (q : Request) (resp : ResponseBuffer) :
    (q.call T cl resp).2.ctx.sock = cl.ctx.sock ∧ (q.call T cl resp).2.ctx.cfg = cl.ctx.cfg := by
  rw [Request.call_eq]
  exact Request.ctx_exchange T cl q

theorem Request.log_call (T : Transport σ) {cl : Client (σ × List Bytes)} {q : Request}
    (hq : q.valid = true) (hsock : 0 ≤ cl.ctx.sock) (resp : ResponseBuffer) :
    (q.call T.logged cl resp).2.log =
      cl.log ++ [q.frame (nextTid cl.ctx.tid) cl.ctx.cfg.unitId] := by
  rw [Request.call_eq]
  exact (Request.log_exchange T cl q).trans (if_pos ⟨hq, hsock⟩)

/-! ### Write requests -/

/-- A write request on the wire. -/
structure WriteRequest where
  unitId : UInt8
  addr : UInt16
  values : List UInt16
  deriving DecidableEq, Repr

/-- The frames with the function code of a write. -/
def isWriteFrame (frame : Bytes) : Bool :=
  frame.getD ADU_OFFSET_FC 0 = MODBUS_FUNC_WRITE_SINGLE_REGISTER ||
    frame.getD ADU_OFFSET_FC 0 = MODBUS_FUNC_WRITE_MULTIPLE_REGISTERS

/-- Read a frame as an FC06 or FC16 request. -/
def decodeWriteRequest (frame : Bytes) : Option WriteRequest :=
  let field := fun i => word (frame.getD i 0) (frame.getD (i + 1) 0)
  if field 2 ≠ 0 ∨ frame.length ≠ MODBUS_TCP_MBAP_HEADER_LEN + (mbapLength frame).toNat then none
  else if frame.getD ADU_OFFSET_FC 0 = MODBUS_FUNC_WRITE_SINGLE_REGISTER then
    if frame.length = 12 then some ⟨frame.getD 6 0, field 8, [field 10]⟩ else none
  else if frame.getD ADU_OFFSET_FC 0 = MODBUS_FUNC_WRITE_MULTIPLE_REGISTERS then
    let qty := (field 10).toNat
    if (frame.getD 12 0).toNat = 2 * qty ∧ frame.length = 13 + 2 * qty then
      some ⟨frame.getD 6 0, field 8, (List.range qty).map fun i => field (13 + 2 * i)⟩
    else none
  else none

@[simp] theorem decodeWriteRequest_buildFc06Request (tid : UInt16) (unitId : UInt8)
    (addr value : UInt16) :
    decodeWriteRequest (buildFc06Request tid unitId addr value) = some ⟨unitId, addr, [value]⟩ := by
  simp [decodeWriteRequest, buildFc06Request, buildStandardRequest, mbapLength, ADU_OFFSET_FC,
    MODBUS_TCP_MBAP_HEADER_LEN, MODBUS_TCP_MBAP_LEN_STANDARD_REQ]
  decide

@[simp] theorem isWriteFrame_buildFc03Request (tid : UInt16) (unitId : UInt8)
    (addr qty : UInt16) : isWriteFrame (buildFc03Request tid unitId addr qty) = false := rfl

/-- The write requests that a client handed to `send`, the oldest first. -/
def Client.written (cl : Client (σ × List Bytes)) : List Bytes := cl.log.filter isWriteFrame

/-- A read sends no write request. -/
theorem written_read (T : Transport σ) (cl : Client (σ × List Bytes)) (addr qty : UInt16)
    (resp : ResponseBuffer) :
    ((Request.read addr qty).call T.logged cl resp).2.written = cl.written := by
  rw [Client.written, Request.call_eq]
  dsimp only
  rw [Request.log_exchange]
  split_ifs
  · simp [Client.written, Request.frame]
  · rfl

/-- A connected client that writes a register sends one write request. -/
theorem written_writeSingle (T : Transport σ) {cl : Client (σ × List Bytes)}
    (hsock : 0 ≤ cl.ctx.sock) (addr value : UInt16) (resp : ResponseBuffer) :
    ((Request.writeSingle addr value).call T.logged cl resp).2.written =
      cl.written ++ [buildFc06Request (nextTid cl.ctx.tid) cl.ctx.cfg.unitId addr value] := by
  rw [Client.written, Request.log_call T rfl hsock, List.filter_append]
  rfl

end LoopCharger.Modbus

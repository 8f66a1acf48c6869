import LoopCharger.Modbus.Build
import LoopCharger.Modbus.Peer

/-!
# A device with registers

A device that carries out every request in time: it answers FC03 from its registers and stores what
FC06 and FC16 write to them. Its responses arrive in parts of any length. A new connection has
nothing under way, and the registers stay.

## Main definitions

* `RegisterFile.served`: what a device does with a request.
* `Device`, `deviceNetwork`: a device behind its connection.
* `Faithful`: the device has carried out all that the client has sent.

## Main results

* `served_frame`: a request of the client, carried out.
* `call_device`: a call on a connection with nothing under way returns what the device has, and
  leaves nothing under way.
* `Faithful.call`: what a call, with any arguments, keeps of the device.
-/

namespace LoopCharger.Modbus

open Lib

/-! ### Requests, carried out -/

/-- The registers after the values are stored from `addr` on. -/
def RegisterFile.write (R : RegisterFile) (addr : UInt16) (values : List UInt16) : RegisterFile :=
  fun a => values.getD (a - addr).toNat (R a)

theorem RegisterFile.write_singleton (R : RegisterFile) (addr value : UInt16) :
    R.write addr [value] = Function.update R addr value := by
  funext a
  by_cases ha : a = addr
  · subst ha
    simp [RegisterFile.write]
  · have hne : (a - addr).toNat ≠ 0 := by
      intro hzero
      have haddr := addr.toNat_lt
      have hlt := a.toNat_lt
      rw [UInt16.toNat_sub] at hzero
      exact ha (UInt16.toNat_inj.mp (by omega))
    obtain ⟨n, hn⟩ := Nat.exists_eq_succ_of_ne_zero hne
    simp [RegisterFile.write, hn, Function.update_of_ne ha]

/-- What a device does with a request: the registers after it, and the response. -/
def RegisterFile.served (R : RegisterFile) (req : Bytes) : RegisterFile × Bytes :=
  match decodeWriteRequest req with
  | some w => (R.write w.addr w.values, serverResponse req (.normal fun _ => 0))
  | none => (R, serverResponse req (.normal (R.read (word (req.getD 8 0) (req.getD 9 0)))))

namespace Request

/-- The registers after a request. -/
def carriedOut (R : RegisterFile) : Request → RegisterFile
  | read _ _ => R
  | writeSingle addr value => R.write addr [value]
  | writeMultiple addr qty data => R.write addr ((List.range qty.toNat).map data)

/-- The answer to a request. -/
def answer (R : RegisterFile) : Request → Answer
  | read addr _ => .normal (R.read addr)
  | _ => .normal fun _ => 0

end Request

/-- A read is no write. -/
theorem decodeWriteRequest_buildFc03Request (tid : UInt16) (unitId : UInt8) (addr qty : UInt16) :
    decodeWriteRequest (buildFc03Request tid unitId addr qty) = none := by
  have hfc : (buildFc03Request tid unitId addr qty).getD ADU_OFFSET_FC 0 =
      MODBUS_FUNC_READ_HOLDING_REGISTERS := rfl
  have hsingle : MODBUS_FUNC_READ_HOLDING_REGISTERS ≠ MODBUS_FUNC_WRITE_SINGLE_REGISTER := by decide
  have hmultiple : MODBUS_FUNC_READ_HOLDING_REGISTERS ≠ MODBUS_FUNC_WRITE_MULTIPLE_REGISTERS := by
    decide
  simp only [decodeWriteRequest, hfc, hsingle, hmultiple, if_false, ite_self]

/-- **A request of the client, carried out.** -/
theorem served_frame (R : RegisterFile) (q : Request) (hq : q.valid = true) (tid : UInt16)
    (unitId : UInt8) :
    R.served (q.frame tid unitId) =
      (q.carriedOut R, serverResponse (q.frame tid unitId) (q.answer R)) := by
  cases q with
  | read addr qty =>
    have hnone := decodeWriteRequest_buildFc03Request tid unitId addr qty
    have haddr : word ((buildFc03Request tid unitId addr qty).getD 8 0)
        ((buildFc03Request tid unitId addr qty).getD 9 0) = addr := word_highByte_lowByte addr
    simp only [RegisterFile.served, Request.frame, hnone, haddr]
    rfl
  | writeSingle addr value =>
    simp only [RegisterFile.served, Request.frame, decodeWriteRequest_buildFc06Request]
    rfl
  | writeMultiple addr qty data =>
    have hqty : qty.toNat ≤ 123 := (of_decide_eq_true hq).2
    have hdecode : decodeWriteRequest (buildFc16Request tid unitId addr qty data).1 =
        some ⟨unitId, addr, (List.range qty.toNat).map data⟩ :=
      decodeWriteRequest_buildFc16Request (by omega)
    simp only [RegisterFile.served, Request.frame, buildFc16Request_take tid unitId addr hqty,
      hdecode]
    rfl

/-! ### A device behind its connection -/

/-- A device, what it has sent and the client has not received, and the sizes of the parts that
arrive. -/
structure Device where
  regs : RegisterFile
  ready : Bytes
  sizes : List ℕ

/-- What a `recv` of up to `n` bytes gives: a part of what is ready. -/
def Device.recv (d : Device) (n : ℕ) : RecvResult × Device :=
  if d.ready = [] then (.error .eagain, d)
  else
    let k := min n (d.sizes.headD n + 1)
    (.received (d.ready.take k), { d with ready := d.ready.drop k, sizes := d.sizes.tail })

/-- The request that is sent is carried out. -/
def Device.request (d : Device) (req : Bytes) : Device :=
  let r := d.regs.served req
  { d with regs := r.1, ready := d.ready ++ r.2 }

/-- The network of one device. -/
def deviceNetwork : Network Device where
  recv := Device.recv
  send d req := (.sent req.length, d.request req)
  length_recv_le d n := by
    unfold Device.recv
    split_ifs
    · exact Nat.zero_le n
    · exact Nat.le_trans (List.length_take_le _ _) (Nat.min_le_left _ _)
  connect _ _ c := (some 3, ⟨c.errno, { c.net with ready := [] }⟩)
  close c := c

/-- What a device with the registers `R` has ready, beside the frames sent to it. -/
def Device.Ready (R : RegisterFile) (log : List Bytes) (s : Device × List Bytes) (bs : Bytes) :
    Prop :=
  s.1.ready = bs ∧ s.1.regs = R ∧ s.2 = log

theorem feeds_deviceNetwork (R : RegisterFile) (log : List Bytes) :
    Feeds deviceNetwork.logged.toTransport (Device.Ready R log) := by
  rintro ⟨d, log'⟩ bs n ⟨rfl, rfl, rfl⟩ hn hne
  have hk : 0 < min n (d.sizes.headD n + 1) := Nat.lt_min.mpr ⟨hn, Nat.succ_pos _⟩
  refine ⟨d.ready.take (min n (d.sizes.headD n + 1)), d.ready.drop (min n (d.sizes.headD n + 1)),
    ({ d with
      ready := d.ready.drop (min n (d.sizes.headD n + 1))
      sizes := d.sizes.tail }, log'), ?_, fun htake => ?_, ?_,
    (List.take_append_drop _ _).symm, rfl, rfl, rfl⟩
  · simp only [deviceNetwork, Network.logged, Transport.logged, Device.recv, if_neg hne]
  · rcases List.take_eq_nil_iff.mp htake with hzero | hnil
    · exact Nat.ne_of_gt hk hzero
    · exact hne hnil
  · exact Nat.le_trans (List.length_take_le _ _) (Nat.min_le_left _ _)

/-- **A call to a device** on a connection with nothing under way: it succeeds, a read returns the
registers, a write is carried out, and nothing is under way behind it. -/
theorem call_device {cl : Client (Device × List Bytes)} (hsock : 0 ≤ cl.ctx.sock)
    (hready : cl.conn.net.1.ready = []) (q : Request) (hq : q.valid = true)
    (resp : ResponseBuffer) :
    let R := cl.conn.net.1.regs
    let r := q.call deviceNetwork.logged.toTransport cl resp
    r.1 = ⟨MB_TCP_CLIENT_OK, q.registers (R.read q.args.1)⟩ ∧ r.2.conn.net.1.ready = [] ∧
      r.2.conn.net.1.regs = q.carriedOut R := by
  intro R r
  let req := q.frame (nextTid cl.ctx.tid) cl.ctx.cfg.unitId
  have hsend : deviceNetwork.logged.send cl.conn.net req =
      (.sent req.length, cl.conn.net.1.request req, cl.conn.net.2 ++ [req]) := rfl
  have hserved := served_frame R q hq (nextTid cl.ctx.tid) cl.ctx.cfg.unitId
  have hready' : Device.Ready (q.carriedOut R) (cl.conn.net.2 ++ [req])
      (cl.conn.net.1.request req, cl.conn.net.2 ++ [req])
      (serverResponse req (q.answer R) ++ []) := by
    refine ⟨?_, ?_, rfl⟩
    · simp only [Device.request, hready, List.nil_append, List.append_nil]
      exact congrArg Prod.snd hserved
    · exact congrArg Prod.fst hserved
  obtain ⟨net, hframe, hnet, hregs, -⟩ := recvFrame_of_feeds (feeds_deviceNetwork _ _)
    (c := ⟨cl.conn.errno, _⟩)
    (q.isFrame_serverResponse hq (nextTid cl.ctx.tid) cl.ctx.cfg.unitId (q.answer R)) hready'
  have hexchange := Request.exchange_of_sent ⟨hq, hsock⟩ hsend
  rw [hframe] at hexchange
  have hcheck := q.check_serverResponse hq (nextTid cl.ctx.tid) cl.ctx.cfg.unitId (q.answer R)
    resp.toList
  simp only [r, Request.call_eq, hexchange, Except.mapError]
  refine ⟨hcheck.trans ?_, hnet, hregs⟩
  cases q <;> rfl

/-- The registers after the requests `log`. -/
def RegisterFile.after (R : RegisterFile) (log : List Bytes) : RegisterFile :=
  log.foldl (fun R req => (R.served req).1) R

theorem RegisterFile.after_concat (R : RegisterFile) (log : List Bytes) (req : Bytes) :
    R.after (log ++ [req]) = ((R.after log).served req).1 := by
  simp [RegisterFile.after]

/-- The device has the registers `R` with all that the client has sent carried out. -/
def Faithful (R : RegisterFile) (cl : Client (Device × List Bytes)) : Prop :=
  cl.conn.net.1.regs = R.after cl.log

/-- A call keeps the device faithful, whatever its arguments, and leaves nothing under way. -/
theorem Faithful.call {R : RegisterFile} {cl : Client (Device × List Bytes)} (h : Faithful R cl)
    (hsock : 0 ≤ cl.ctx.sock) (hready : cl.conn.net.1.ready = []) (q : Request)
    (resp : ResponseBuffer) :
    Faithful R (q.call deviceNetwork.logged.toTransport cl resp).2 ∧
      (q.call deviceNetwork.logged.toTransport cl resp).2.conn.net.1.ready = [] := by
  by_cases hq : q.valid = true
  · obtain ⟨-, hready', hregs⟩ := call_device hsock hready q hq resp
    have hlog : (q.call deviceNetwork.logged.toTransport cl resp).2.log = _ :=
      Request.log_call deviceNetwork.toTransport hq hsock resp
    have hserved := congrArg Prod.fst
      (served_frame cl.conn.net.1.regs q hq (nextTid cl.ctx.tid) cl.ctx.cfg.unitId)
    have hfaithful : cl.conn.net.1.regs = R.after cl.log := h
    refine ⟨?_, hready'⟩
    rw [Faithful, hregs, hlog, RegisterFile.after_concat, ← hfaithful]
    exact hserved.symm
  · rw [Request.call_of_not_ready fun hboth => hq hboth.1]
    exact ⟨h, hready⟩

/-- A connection attempt leaves the device as it is; a new connection has nothing under way. -/
theorem Faithful.connect {R : RegisterFile} {cl : Client (Device × List Bytes)} (h : Faithful R cl)
    (cfg : MbTcpClientConfig) :
    Faithful R (mbTcpClientConnect deviceNetwork.logged cl cfg).2 ∧
      ((mbTcpClientConnect deviceNetwork.logged cl cfg).1 = 0 →
        (mbTcpClientConnect deviceNetwork.logged cl cfg).2.conn.net.1.ready = []) := by
  have hneg : (-1 : ℤ) ≠ 0 := by decide
  unfold mbTcpClientConnect
  split_ifs with hcfg
  · exact ⟨h, fun hzero => absurd hzero hneg⟩
  · exact ⟨h, fun _ => rfl⟩

theorem Faithful.disconnect {R : RegisterFile} {cl : Client (Device × List Bytes)}
    (h : Faithful R cl) : Faithful R (mbTcpClientDisconnect deviceNetwork.logged cl) := by
  unfold mbTcpClientDisconnect
  split_ifs
  · exact h
  · exact h

/-- What is not a write leaves the registers as they are. -/
theorem RegisterFile.after_filter (R : RegisterFile) (log : List Bytes) :
    R.after (log.filter isWriteFrame) = R.after log := by
  have hserved : ∀ (R : RegisterFile) req, isWriteFrame req = false → (R.served req).1 = R := by
    intro R req h
    have hnone : decodeWriteRequest req = none := by
      simp only [isWriteFrame, Bool.or_eq_false_iff, decide_eq_false_iff_not] at h
      simp only [decodeWriteRequest, h.1, h.2, if_false, ite_self]
    simp only [RegisterFile.served, hnone]
  induction log generalizing R with
  | nil => rfl
  | cons req log ih =>
    cases hwrite : isWriteFrame req with
    | false =>
      rw [List.filter_cons_of_neg (by rw [hwrite]; exact Bool.false_ne_true), ih]
      exact congrArg (RegisterFile.after · log) (hserved R req hwrite).symm
    | true =>
      rw [List.filter_cons_of_pos hwrite]
      exact ih (R.served req).1

end LoopCharger.Modbus

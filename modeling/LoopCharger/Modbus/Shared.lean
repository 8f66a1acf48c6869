import LoopCharger.Lib.Machine
import LoopCharger.Modbus.Peer

/-!
# Threads that share a context

Any number of threads that call `mb_tcp_client_read_holding_registers` on one context, with a peer
that serves a register file. A thread holds the mutex of the context from the next transaction
identifier to the end of its response, and evaluates the response without it. Between two steps of a
thread the others run, and bytes arrive at either end.

## Main definitions

* `CallPhase`, `SharedClient`: where a thread stands in its call, and all threads with the context.
* `sharedMachine`: the interleavings of their steps.
* `Orderly`: only the holder of the mutex has a request under way.

## Main results

* `trace_lock_receive_check`: the steps of a thread, in a row, are a call of the client.
* `Orderly.step`: every step keeps the threads orderly, and a call returns the registers it read.
* `shared_reads_return_registers`: so does every call of every run, and none is stuck.
-/

namespace LoopCharger.Modbus

open Lib

/-! ### Threads -/

/-- Where a thread stands in its call. -/
inductive CallPhase
  | idle
  /-- At the mutex of the context. -/
  | waiting (addr qty : UInt16)
  /-- With the mutex, and its request sent. -/
  | sent (addr qty tid : UInt16)
  /-- Without the mutex, and its response not evaluated yet. -/
  | checking (addr qty tid : UInt16) (outcome : Except ℤ (Bytes × ℕ))

/-- The arguments of the call of a thread. -/
def CallPhase.args : CallPhase → Option (UInt16 × UInt16)
  | idle => none
  | waiting addr qty | sent addr qty _ | checking addr qty _ _ => some (addr, qty)

/-- The threads `ι` with the context that they share. -/
structure SharedClient (ι : Type*) where
  ctx : MbTcpClientCtx
  net : PeerLink × List PeerEvent
  /-- The thread that holds the mutex. -/
  holder : Option ι
  phase : ι → CallPhase

inductive SharedAction (ι : Type*)
  /-- A thread calls the function. -/
  | call (i : ι) (addr qty : UInt16)
  /-- It takes the mutex, if it is free, and sends its request. -/
  | lock (i : ι)
  /-- It receives its response and releases the mutex. -/
  | receive (i : ι) (errno : Errno) (resp : ResponseBuffer)
  /-- It evaluates the response and returns. -/
  | check (i : ι)
  /-- Bytes arrive. -/
  | network (e : PeerEvent)
  /-- What is to happen while a thread receives. -/
  | expect (events : List PeerEvent)

/-- What a call of a thread returns. -/
structure Returned (ι : Type*) where
  thread : ι
  addr : UInt16
  qty : UInt16
  reply : Reply
  deriving DecidableEq

variable {ι : Type*} [DecidableEq ι] (R : RegisterFile)

/-- One step of a thread or of the network. -/
def sharedStep (s : SharedClient ι) : SharedAction ι → SharedClient ι × List (Returned ι)
  | .call i addr qty =>
    match s.phase i with
    | .idle =>
      if !(Request.read addr qty).valid then (s, [⟨i, addr, qty, MB_TCP_CLIENT_ERR_ARG, []⟩])
      else if s.ctx.sock < 0 then (s, [⟨i, addr, qty, MB_TCP_CLIENT_ERR_NOT_CONNECTED, []⟩])
      else ({ s with phase := Function.update s.phase i (.waiting addr qty) }, [])
    | _ => (s, [])
  | .lock i =>
    match s.phase i, s.holder with
    | .waiting addr qty, none =>
      let tid := nextTid s.ctx.tid
      let req := buildFc03Request tid s.ctx.cfg.unitId addr qty
      match (peerTransport R).send s.net req with
      | (.sent n, net) =>
        if n ≠ req.length then
          (⟨{ s.ctx with tid }, net, none, Function.update s.phase i
            (.checking addr qty tid (.error MB_TCP_CLIENT_ERR_TRANSPORT))⟩, [])
        else
          (⟨{ s.ctx with tid }, net, some i, Function.update s.phase i (.sent addr qty tid)⟩, [])
      | (.error _, net) =>
        (⟨{ s.ctx with tid }, net, none, Function.update s.phase i
          (.checking addr qty tid (.error MB_TCP_CLIENT_ERR_TRANSPORT))⟩, [])
    | _, _ => (s, [])
  | .receive i errno resp =>
    match s.phase i with
    | .sent addr qty tid =>
      let r := recvResponse (peerTransport R) ⟨errno, s.net⟩ resp.toList MODBUS_TCP_MAX_ADU_LENGTH
      let outcome :=
        if r.1.rc ≠ 0 then .error (recvErrToClientErr r.1.rc) else .ok (r.1.buf, r.1.totalLen)
      (⟨s.ctx, r.2.net, none, Function.update s.phase i (.checking addr qty tid outcome)⟩, [])
    | _ => (s, [])
  | .check i =>
    match s.phase i with
    | .checking addr qty tid outcome =>
      let reply := match outcome with
        | .error rc => ⟨rc, []⟩
        | .ok (resp, totalLen) => readResponse tid qty resp totalLen
      ({ s with phase := Function.update s.phase i .idle }, [⟨i, addr, qty, reply⟩])
    | _ => (s, [])
  | .network e => ({ s with net := (s.net.1.event R e, s.net.2) }, [])
  | .expect events => ({ s with net := (s.net.1, events) }, [])

/-- The interleavings of the threads; a call emits what it returns. -/
def sharedMachine : Machine (SharedClient ι) (SharedAction ι) (Returned ι) where
  step := sharedStep R

/-- A connected context, with any transaction identifier, and no call under way. -/
def SharedClient.start (sock : ℕ) (tid : UInt16) (cfg : MbTcpClientConfig) : SharedClient ι :=
  ⟨⟨sock, tid, cfg⟩, (.quiet, []), none, fun _ => .idle⟩

/-- The steps of a thread, in a row, are a call of the client. -/
theorem trace_lock_receive_check {s : SharedClient ι} {i : ι} {addr qty : UInt16}
    (hphase : s.phase i = .waiting addr qty) (hholder : s.holder = none) (hsock : 0 ≤ s.ctx.sock)
    (hq : (Request.read addr qty).valid = true) (errno : Errno) (resp : ResponseBuffer) :
    let steps := [.lock i, .receive i errno resp, .check i]
    let r := mbTcpClientReadHoldingRegisters (peerTransport R) ⟨s.ctx, errno, s.net⟩ addr qty resp
    (sharedMachine R).trace s steps = [⟨i, addr, qty, r.1⟩] ∧
      ((sharedMachine R).state s steps).ctx = r.2.ctx ∧
      ((sharedMachine R).state s steps).net = r.2.conn.net := by
  intro steps r
  have hargs : (decide (qty ≠ 0 ∧ qty.toNat ≤ MODBUS_MAX_READ_REGISTERS)) = true := hq
  have hneg : ¬ s.ctx.sock < 0 := Int.not_lt.mpr hsock
  simp only [steps, r, sharedMachine, Machine.trace_cons, Machine.state_cons, Machine.trace_nil,
    Machine.state_nil, sharedStep, hphase, hholder, send_peerTransport, Function.update_self,
    mbTcpClientReadHoldingRegisters, operation, transact, hargs, hneg, Bool.not_true,
    Bool.false_eq_true, if_false, ne_eq, not_true_eq_false, List.append_nil, List.nil_append]
  generalize recvResponse (peerTransport R) _ resp.toList MODBUS_TCP_MAX_ADU_LENGTH = response
  by_cases hrc : response.1.rc = 0
  · simp only [hrc, not_true_eq_false, if_false, and_self]
  · simp only [hrc, not_false_eq_true, if_true, and_self]

/-! ### What the threads keep -/

/-- The registers that a read is to return. -/
def RegisterFile.reply (addr qty : UInt16) : Reply :=
  ⟨MB_TCP_CLIENT_OK, (List.range qty.toNat).map (R.read addr)⟩

/-- Whether the arguments of a call are in range. -/
def validRead (addr qty : UInt16) : Prop := (Request.read addr qty).valid = true

/-- What holds of a thread, by where it stands: it has the mutex while its response is owed, and the
response that it has received is that of the peer. -/
inductive Stands (s : SharedClient ι) (i : ι) : CallPhase → Prop
  | idle (h : s.holder ≠ some i) : Stands s i .idle
  | waiting {addr qty : UInt16} (h : s.holder ≠ some i) (hq : validRead addr qty) :
      Stands s i (.waiting addr qty)
  | sent {addr qty tid : UInt16} (h : s.holder = some i) (hq : validRead addr qty)
      (howes : Owes R s.net.1 (registersResponse R tid s.ctx.cfg.unitId addr qty)) :
      Stands s i (.sent addr qty tid)
  | checking {addr qty tid : UInt16} {buf : Bytes} {totalLen : ℕ} (h : s.holder ≠ some i)
      (hresp : readResponse tid qty buf totalLen = R.reply addr qty) :
      Stands s i (.checking addr qty tid (.ok (buf, totalLen)))

/-- Every thread is where it should be, and nothing is under way while the mutex is free. -/
structure Orderly (s : SharedClient ι) : Prop where
  sock : 0 ≤ s.ctx.sock
  quiet : s.holder = none → s.net.1 = .quiet
  stands : ∀ i, Stands R s i (s.phase i)

variable {R} {s s' : SharedClient ι} {i : ι} {addr qty tid : UInt16} {unitId : UInt8}
  {phase : CallPhase}

omit [DecidableEq ι] in
/-- A thread without the mutex depends on nothing that the others share. -/
theorem Stands.of_holder_ne (h : Stands R s i phase) (hs : s.holder ≠ some i)
    (hs' : s'.holder ≠ some i) : Stands R s' i phase := by
  cases h with
  | idle => exact .idle hs'
  | waiting _ hq => exact .waiting hs' hq
  | sent h => exact absurd h hs
  | checking _ hresp => exact .checking hs' hresp

omit [DecidableEq ι] in
/-- A thread stays where it is as long as what is owed stays so. -/
theorem Stands.congr (h : Stands R s i phase) (hholder : s'.holder = s.holder)
    (hctx : s'.ctx = s.ctx) (hnet : ∀ bs, Owes R s.net.1 bs → Owes R s'.net.1 bs) :
    Stands R s' i phase := by
  cases h with
  | idle h => exact .idle (hholder ▸ h)
  | waiting h hq => exact .waiting (hholder ▸ h) hq
  | sent h hq howes => exact .sent (hholder ▸ h) hq (hctx ▸ hnet _ howes)
  | checking h hresp => exact .checking (hholder ▸ h) hresp

/-- A response that is owed is received, and evaluated to the registers read. -/
theorem recvResponse_of_owes (hq : validRead addr qty) {net : PeerLink × List PeerEvent}
    (h : Owes R net.1 (registersResponse R tid unitId addr qty)) (errno : Errno) (resp : Bytes) :
    ∃ buf totalLen net',
      recvResponse (peerTransport R) ⟨errno, net⟩ resp MODBUS_TCP_MAX_ADU_LENGTH =
        (⟨0, buf, totalLen⟩, ⟨errno, net'⟩) ∧
      readResponse tid qty buf totalLen = R.reply addr qty ∧ net'.1 = .quiet := by
  have hf := Request.isFrame_serverResponse (.read addr qty) hq tid unitId (.normal (R.read addr))
  obtain ⟨net', hframe, hquiet⟩ := recvFrame_peerTransport (c := ⟨errno, net⟩) hf h
  obtain ⟨hconn, hresp⟩ :=
    recvResponse_eq (peerTransport R) ⟨errno, net⟩ resp MODBUS_TCP_MAX_ADU_LENGTH
  rw [hframe] at hconn hresp
  exact ⟨_, _, net', Prod.ext hresp hconn,
    Request.check_serverResponse (.read addr qty) hq tid unitId (.normal (R.read addr)) resp,
    hquiet⟩

/-- A thread without the mutex moves on without it. -/
theorem Orderly.update (h : Orderly R s) (hphase : Stands R s i phase) :
    Orderly R { s with phase := Function.update s.phase i phase } := by
  have hall : ∀ j, Stands R s j (Function.update s.phase i phase j) :=
    (Function.forall_update_iff s.phase fun j => Stands R s j).mpr ⟨hphase, fun j _ => h.stands j⟩
  refine ⟨h.sock, h.quiet, fun j => ?_⟩
  exact (hall j).congr rfl rfl fun _ howes => howes

/-- An idle thread calls: with valid arguments it waits for the mutex. -/
theorem Orderly.call (h : Orderly R s) (hphase : s.phase i = .idle) (addr qty : UInt16) :
    Orderly R (sharedStep R s (.call i addr qty)).1 ∧
      ∀ r ∈ (sharedStep R s (.call i addr qty)).2,
        validRead r.addr r.qty → r.reply = R.reply r.addr r.qty := by
  have hholder : s.holder ≠ some i := by
    have hstands := h.stands i
    rw [hphase] at hstands
    cases hstands with
    | idle hholder => exact hholder
  by_cases hq : (Request.read addr qty).valid = true
  · have hneg : ¬ s.ctx.sock < 0 := Int.not_lt.mpr h.sock
    simp only [sharedStep, hphase, hq, hneg, Bool.not_true, Bool.false_eq_true, if_false]
    exact ⟨h.update (.waiting hholder hq), by simp⟩
  · simp only [sharedStep, hphase, hq, Bool.not_false, if_true]
    refine ⟨h, fun r hr hvalid => ?_⟩
    obtain rfl := List.mem_singleton.mp hr
    exact absurd hvalid hq

omit [DecidableEq ι] in
theorem Orderly.valid_of_waiting (h : Orderly R s) (hphase : s.phase i = .waiting addr qty) :
    validRead addr qty := by
  have hstands := h.stands i
  rw [hphase] at hstands
  cases hstands with
  | waiting _ hq => exact hq

/-- A thread at a free mutex takes it and sends its request. -/
theorem Orderly.lock (h : Orderly R s) (hphase : s.phase i = .waiting addr qty)
    (hholder : s.holder = none) :
    ∃ s', sharedStep R s (.lock i) = (s', []) ∧ Orderly R s' ∧
      s'.phase = Function.update s.phase i (.sent addr qty (nextTid s.ctx.tid)) := by
  have hq := h.valid_of_waiting hphase
  simp only [sharedStep, hphase, hholder, send_peerTransport, ne_eq, not_true_eq_false, if_false]
  refine ⟨_, rfl, ⟨h.sock, fun hnone => absurd hnone (Option.some_ne_none i), ?_⟩, rfl⟩
  refine (Function.forall_update_iff _ _).mpr ⟨.sent rfl hq ?_, fun j hji => ?_⟩
  · rw [h.quiet hholder]
    exact .request hq rfl (List.cons_ne_nil _ _)
  · exact (h.stands j).of_holder_ne (by simp [hholder]) (by simpa using Ne.symm hji)

/-- A thread that has sent its request receives the response to it. -/
theorem Orderly.receive (h : Orderly R s) (hphase : s.phase i = .sent addr qty tid) (errno : Errno)
    (resp : ResponseBuffer) :
    ∃ s' buf totalLen, sharedStep R s (.receive i errno resp) = (s', []) ∧ Orderly R s' ∧
      s'.holder = none ∧ readResponse tid qty buf totalLen = R.reply addr qty ∧
      s'.phase = Function.update s.phase i (.checking addr qty tid (.ok (buf, totalLen))) := by
  have hstands := h.stands i
  rw [hphase] at hstands
  cases hstands with
  | sent hholder hq howes =>
    obtain ⟨buf, totalLen, net', hrecv, hresp, hquiet⟩ :=
      recvResponse_of_owes hq howes errno resp.toList
    simp only [sharedStep, hphase, hrecv, ne_eq, not_true_eq_false, if_false]
    refine ⟨_, buf, totalLen, rfl, ⟨h.sock, fun _ => hquiet, ?_⟩, rfl, hresp, rfl⟩
    refine (Function.forall_update_iff _ _).mpr ⟨.checking (by simp) hresp, fun j hji => ?_⟩
    exact (h.stands j).of_holder_ne (by simpa [hholder] using Ne.symm hji) (by simp)

/-- A thread that has received a response returns the registers read. -/
theorem Orderly.check (h : Orderly R s) {outcome : Except ℤ (Bytes × ℕ)}
    (hphase : s.phase i = .checking addr qty tid outcome) :
    ∃ s', sharedStep R s (.check i) = (s', [⟨i, addr, qty, R.reply addr qty⟩]) ∧ Orderly R s' := by
  have hstands := h.stands i
  rw [hphase] at hstands
  cases hstands with
  | checking hholder hresp =>
    refine ⟨{ s with phase := Function.update s.phase i .idle }, ?_, h.update (.idle hholder)⟩
    simp only [sharedStep, hphase, hresp]

/-- **Every step keeps the threads orderly**, and a call with valid arguments that returns, returns
the registers that it was to read. -/
theorem Orderly.step (h : Orderly R s) (a : SharedAction ι) :
    Orderly R (sharedStep R s a).1 ∧
      ∀ r ∈ (sharedStep R s a).2, validRead r.addr r.qty → r.reply = R.reply r.addr r.qty := by
  have hstay : ∀ {p : SharedClient ι × List (Returned ι)}, p = (s, []) → Orderly R p.1 ∧
      ∀ r ∈ p.2, validRead r.addr r.qty → r.reply = R.reply r.addr r.qty := by
    rintro _ rfl
    exact ⟨h, by simp⟩
  cases a with
  | call i addr qty =>
    cases hphase : s.phase i with
    | idle => exact h.call hphase addr qty
    | waiting => exact hstay (by simp only [sharedStep, hphase])
    | sent => exact hstay (by simp only [sharedStep, hphase])
    | checking => exact hstay (by simp only [sharedStep, hphase])
  | lock i =>
    cases hphase : s.phase i with
    | waiting addr qty =>
      rcases hholder : s.holder with _ | j
      · obtain ⟨s', hs', horderly, -⟩ := h.lock hphase hholder
        rw [hs']
        exact ⟨horderly, by simp⟩
      · exact hstay (by simp only [sharedStep, hphase, hholder])
    | idle => exact hstay (by simp only [sharedStep, hphase])
    | sent => exact hstay (by simp only [sharedStep, hphase])
    | checking => exact hstay (by simp only [sharedStep, hphase])
  | receive i errno resp =>
    cases hphase : s.phase i with
    | sent addr qty tid =>
      obtain ⟨s', buf, totalLen, hs', horderly, -⟩ := h.receive hphase errno resp
      rw [hs']
      exact ⟨horderly, by simp⟩
    | idle => exact hstay (by simp only [sharedStep, hphase])
    | waiting => exact hstay (by simp only [sharedStep, hphase])
    | checking => exact hstay (by simp only [sharedStep, hphase])
  | check i =>
    cases hphase : s.phase i with
    | checking addr qty tid outcome =>
      obtain ⟨s', hs', horderly⟩ := h.check hphase
      rw [hs']
      refine ⟨horderly, fun r hr _ => ?_⟩
      obtain rfl := List.mem_singleton.mp hr
      rfl
    | idle => exact hstay (by simp only [sharedStep, hphase])
    | waiting => exact hstay (by simp only [sharedStep, hphase])
    | sent => exact hstay (by simp only [sharedStep, hphase])
  | network e =>
    refine ⟨⟨h.sock, fun hnone => ?_, fun i => ?_⟩, by simp [sharedStep]⟩
    · exact owes_nil_iff.mp ((owes_nil_iff.mpr (h.quiet hnone)).event e)
    · exact (h.stands i).congr rfl rfl fun bs howes => howes.event e
  | expect events =>
    refine ⟨⟨h.sock, h.quiet, fun i => ?_⟩, by simp [sharedStep]⟩
    exact (h.stands i).congr rfl rfl fun bs howes => howes

/-! A call returns: from its last phase backwards, it is evaluated, it receives, it sends, and it
waits for another. -/

theorem exists_trace_cons {s s' : SharedClient ι} {a : SharedAction ι} {r : Returned ι}
    (hstep : sharedStep R s a = (s', [])) (h : ∃ more, r ∈ (sharedMachine R).trace s' more) :
    ∃ more, r ∈ (sharedMachine R).trace s more := by
  obtain ⟨more, hmore⟩ := h
  refine ⟨a :: more, ?_⟩
  simpa only [sharedMachine, Machine.trace_cons, hstep, List.nil_append] using hmore

theorem Orderly.returns_of_checking (h : Orderly R s) {outcome : Except ℤ (Bytes × ℕ)}
    (hphase : s.phase i = .checking addr qty tid outcome) :
    ∃ more, ⟨i, addr, qty, R.reply addr qty⟩ ∈ (sharedMachine R).trace s more := by
  obtain ⟨s', hs', -⟩ := h.check hphase
  exact ⟨[.check i], by simp [sharedMachine, hs']⟩

theorem Orderly.returns_of_sent (h : Orderly R s) (hphase : s.phase i = .sent addr qty tid) :
    ∃ more, ⟨i, addr, qty, R.reply addr qty⟩ ∈ (sharedMachine R).trace s more := by
  obtain ⟨s', buf, totalLen, hs', h', -, -, hphase'⟩ :=
    h.receive hphase (.other 0) (Vector.replicate _ 0)
  exact exists_trace_cons hs' (h'.returns_of_checking (hphase' ▸ Function.update_self ..))

/-- A call with nothing under way returns the registers. -/
theorem reply_of_quiet {cl : Client (PeerLink × List PeerEvent)} (hsock : 0 ≤ cl.ctx.sock)
    (hquiet : cl.conn.net.1 = .quiet) (hq : validRead addr qty) (resp : ResponseBuffer) :
    (mbTcpClientReadHoldingRegisters (peerTransport R) cl addr qty resp).1 = R.reply addr qty := by
  let q : Request := .read addr qty
  let req := q.frame (nextTid cl.ctx.tid) cl.ctx.cfg.unitId
  have hsend : (peerTransport R).send cl.conn.net req =
      (.sent req.length, cl.conn.net.1.request req, cl.conn.net.2) := rfl
  have howes : Owes R (cl.conn.net.1.request req)
      (registersResponse R (nextTid cl.ctx.tid) cl.ctx.cfg.unitId addr qty) := by
    rw [hquiet]
    exact .request hq rfl (List.cons_ne_nil _ _)
  obtain ⟨net, hframe, -⟩ := recvFrame_peerTransport
    (c := ⟨cl.conn.errno, cl.conn.net.1.request req, cl.conn.net.2⟩)
    (q.isFrame_serverResponse hq (nextTid cl.ctx.tid) cl.ctx.cfg.unitId (.normal (R.read addr)))
    howes
  have hexchange := Request.exchange_of_sent ⟨hq, hsock⟩ hsend
  rw [hframe] at hexchange
  have hcall : mbTcpClientReadHoldingRegisters (peerTransport R) cl addr qty resp =
      q.call (peerTransport R) cl resp := rfl
  rw [hcall, Request.call_eq, hexchange]
  exact q.check_serverResponse hq (nextTid cl.ctx.tid) cl.ctx.cfg.unitId (.normal (R.read addr))
    resp.toList

theorem Orderly.returns_of_free (h : Orderly R s) (hphase : s.phase i = .waiting addr qty)
    (hholder : s.holder = none) :
    ∃ more, ⟨i, addr, qty, R.reply addr qty⟩ ∈ (sharedMachine R).trace s more := by
  have hq := h.valid_of_waiting hphase
  let errno : Errno := .other 0
  let resp : ResponseBuffer := Vector.replicate _ 0
  have hcall := (trace_lock_receive_check R hphase hholder h.sock hq errno resp).1
  have hreply : (mbTcpClientReadHoldingRegisters (peerTransport R) ⟨s.ctx, errno, s.net⟩ addr qty
      resp).1 = R.reply addr qty := reply_of_quiet h.sock (h.quiet hholder) hq resp
  refine ⟨[.lock i, .receive i errno resp, .check i], ?_⟩
  rw [hcall, hreply]
  exact List.mem_singleton_self _

omit [DecidableEq ι] in
/-- The thread that holds the mutex has sent its request. -/
theorem Orderly.sent_of_holder (h : Orderly R s) (hholder : s.holder = some i) :
    ∃ addr qty tid, s.phase i = .sent addr qty tid := by
  have hstands := h.stands i
  cases hphase : s.phase i with
  | sent addr qty tid => exact ⟨addr, qty, tid, rfl⟩
  | idle =>
    rw [hphase] at hstands
    cases hstands with
    | idle hne => exact absurd hholder hne
  | waiting =>
    rw [hphase] at hstands
    cases hstands with
    | waiting hne => exact absurd hholder hne
  | checking =>
    rw [hphase] at hstands
    cases hstands with
    | checking hne => exact absurd hholder hne

/-- From every orderly state, some steps of the threads let a call that is under way return. -/
theorem Orderly.returns (h : Orderly R s) (hargs : (s.phase i).args = some (addr, qty)) :
    ∃ more, ⟨i, addr, qty, R.reply addr qty⟩ ∈ (sharedMachine R).trace s more := by
  cases hphase : s.phase i with
  | idle =>
    rw [hphase] at hargs
    cases hargs
  | checking addr' qty' tid outcome =>
    rw [hphase] at hargs
    cases hargs
    exact h.returns_of_checking hphase
  | sent addr' qty' tid =>
    rw [hphase] at hargs
    cases hargs
    exact h.returns_of_sent hphase
  | waiting addr' qty' =>
    rw [hphase] at hargs
    cases hargs
    rcases hholder : s.holder with _ | j
    · exact h.returns_of_free hphase hholder
    · obtain ⟨addr', qty', tid, hsent⟩ := h.sent_of_holder hholder
      have hij : i ≠ j := by
        rintro rfl
        rw [hphase] at hsent
        cases hsent
      obtain ⟨s', buf, totalLen, hs', h', hholder', -, hupdate⟩ :=
        h.receive hsent (.other 0) (Vector.replicate _ 0)
      have hwaiting : s'.phase i = .waiting addr qty := by
        rw [hupdate, Function.update_of_ne hij, hphase]
      exact exists_trace_cons hs' (h'.returns_of_free hwaiting hholder')

omit [DecidableEq ι] in
theorem orderly_start (sock : ℕ) (tid : UInt16) (cfg : MbTcpClientConfig) :
    Orderly R (SharedClient.start sock tid cfg : SharedClient ι) :=
  ⟨Int.natCast_nonneg sock, fun _ => rfl, fun _ => .idle (Option.some_ne_none _).symm⟩

variable (R) in
/-- **Shared reads return their own registers.** Any threads read through one connected context, in
any order of their steps and of the bytes under way, from any transaction identifier on, while the
peer serves the register file `R`: every call for 1 to 125 registers that returns, returns
`MB_TCP_CLIENT_OK` and the registers `R (addr + i)`, and every call under way can return. Past the
last address the addresses start again at zero. -/
theorem shared_reads_return_registers (sock : ℕ) (tid : UInt16) (cfg : MbTcpClientConfig)
    (actions : List (SharedAction ι)) :
    let M := sharedMachine R
    let start := SharedClient.start sock tid cfg
    (∀ r ∈ M.trace start actions, 1 ≤ r.qty.toNat → r.qty.toNat ≤ 125 →
      r.reply = ⟨MB_TCP_CLIENT_OK, (List.range r.qty.toNat).map fun i => R (r.addr + .ofNat i)⟩) ∧
    ∀ i addr qty, ((M.state start actions).phase i).args = some (addr, qty) →
      ∃ more reply, ⟨i, addr, qty, reply⟩ ∈ M.trace (M.state start actions) more := by
  intro M start
  have hrun := M.trace_invariant (fun s rs => Orderly R s ∧
      ∀ r ∈ rs, validRead r.addr r.qty → r.reply = R.reply r.addr r.qty)
    ⟨orderly_start sock tid cfg, by simp⟩ ?_ actions
  · refine ⟨fun r hr hpos hle => hrun.2 r hr ?_, fun i addr qty hargs => ?_⟩
    · refine decide_eq_true ⟨fun hzero => ?_, hle⟩
      rw [hzero] at hpos
      exact absurd hpos (by decide)
    · obtain ⟨more, hmore⟩ := hrun.1.returns hargs
      exact ⟨more, _, hmore⟩
  · rintro s rs a ⟨h, hrs⟩
    obtain ⟨h', hnew⟩ := h.step a
    refine ⟨h', fun r hr => ?_⟩
    rcases List.mem_append.mp hr with hr | hr
    · exact hrs r hr
    · exact hnew r hr

/-- Two threads, the first of which has returned while the second waits for the mutex. -/
theorem shared_reads_return_registers_two :
    let M := sharedMachine fun a => a + 1
    let start : SharedClient Bool := SharedClient.start 3 65535 ⟨"192.168.1.10", 502, 1⟩
    let actions := [.call false 0x10 2, .call true 0x20 3, .lock false, .network (.up 5),
      .expect [.up 3, .up 9, .down 4, .down 1], .receive false (.other 0) (Vector.replicate _ 0),
      .check false]
    let r : Returned Bool := ⟨false, 0x10, 2, MB_TCP_CLIENT_OK, [0x11, 0x12]⟩
    r ∈ M.trace start actions ∧
      r.reply = ⟨MB_TCP_CLIENT_OK, (List.range r.qty.toNat).map fun i => r.addr + .ofNat i + 1⟩ ∧
      ∃ more reply, ⟨true, 0x20, 3, reply⟩ ∈ M.trace (M.state start actions) more := by
  intro M start actions r
  have hr : r ∈ M.trace start actions := by decide +kernel
  have hall := shared_reads_return_registers (fun a => a + 1) 3 65535 ⟨"192.168.1.10", 502, 1⟩
    actions
  exact ⟨hr, hall.1 r hr (by decide) (by decide), hall.2 true 0x20 3 rfl⟩

end LoopCharger.Modbus

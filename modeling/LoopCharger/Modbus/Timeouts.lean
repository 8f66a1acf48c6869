import LoopCharger.Modbus.Client

/-!
# Timeouts and closed connections

The client tells a timeout from a lost connection by `errno`. A `recv` that returns 0 does not set
it, and is tested by the value that an earlier call has left.

## Main definitions

* `Transport.noted`: a transport that keeps every result of `recv`.
* `recvResults`: the results of `recv` in a call.
* `FailuresReported`, `Classified`: what the codes of a call say of these results.

## Main results

* `callEnd`: the code of a call, by the results of `recv`.
* `classified_iff`: the calls whose codes are right, and those whose codes do not depend on an
  earlier `errno`.
-/

namespace LoopCharger.Modbus

open Lib

variable {σ : Type*}

/-! ### The results of `recv` -/

/-- The transport that keeps every result of `recv`. -/
def Transport.noted (T : Transport σ) : Transport (σ × List RecvResult) where
  recv s n :=
    let r := T.recv s.1 n
    (r.1, r.2, s.2 ++ [r.1])
  send s frame :=
    let r := T.send s.1 frame
    (r.1, r.2, s.2)
  length_recv_le s n := T.length_recv_le s.1 n

/-- A connection without what was kept. -/
def Conn.forget (c : Conn (σ × List RecvResult)) : Conn σ := ⟨c.errno, c.net.1⟩

/-- A client without what was kept. -/
def Client.forget (cl : Client (σ × List RecvResult)) : Client σ := ⟨cl.ctx, cl.conn.forget⟩

/-- A client before a call, of which nothing is kept yet. -/
def Client.fresh (cl : Client σ) : Client (σ × List RecvResult) :=
  ⟨cl.ctx, cl.conn.errno, cl.conn.net, []⟩

/-- The results of `recv` in a call. -/
def recvResults (T : Transport σ) (cl : Client σ) (q : Request) (resp : ResponseBuffer) :
    List RecvResult :=
  (q.call T.noted cl.fresh resp).2.conn.net.2

section Noted

variable (T : Transport σ)

theorem recvLoop_noted (fuel : ℕ) (c : Conn (σ × List RecvResult)) (len : ℕ) :
    recvLoop T fuel c.forget len =
      ((recvLoop T.noted fuel c len).1, (recvLoop T.noted fuel c len).2.forget) := by
  induction fuel generalizing c len with
  | zero => cases len <;> rfl
  | succ fuel ih =>
    cases len with
    | zero => rfl
    | succ len =>
      simp only [recvLoop, Transport.noted, Conn.forget]
      rcases T.recv c.net.1 (len + 1) with ⟨bs | e, net⟩
      · cases bs with
        | nil => rfl
        | cons b bs =>
          have hnext := ih ⟨c.errno, net, c.net.2 ++ [.received (b :: bs)]⟩
            (len + 1 - (b :: bs).length)
          simp only [Conn.forget, Transport.noted] at hnext
          simp only [hnext]
      · rfl

theorem recvFrame_noted (c : Conn (σ × List RecvResult)) (cap : ℕ) :
    recvFrame T c.forget cap =
      ((recvFrame T.noted c cap).1, (recvFrame T.noted c cap).2.forget) := by
  have hexact : ∀ c len, recvExact T (Conn.forget c) len =
      ((recvExact T.noted c len).1, (recvExact T.noted c len).2.forget) :=
    fun c len => recvLoop_noted T len c len
  simp only [recvFrame, hexact]
  split_ifs <;> rfl

theorem Request.exchange_noted (cl : Client (σ × List RecvResult)) (q : Request) :
    q.exchange T cl.forget =
      ((q.exchange T.noted cl).1, (q.exchange T.noted cl).2.forget) := by
  by_cases hready : q.valid = true ∧ 0 ≤ cl.ctx.sock
  case neg =>
    have hready' : ¬ (q.valid = true ∧ 0 ≤ cl.forget.ctx.sock) := hready
    rw [Request.exchange_of_not_ready hready, Request.exchange_of_not_ready hready']
  have hready' : q.valid = true ∧ 0 ≤ cl.forget.ctx.sock := hready
  rcases hsend : T.send cl.conn.net.1 (q.frame (nextTid cl.ctx.tid) cl.ctx.cfg.unitId) with ⟨r, net⟩
  have hsend' : T.noted.send cl.conn.net (q.frame (nextTid cl.ctx.tid) cl.ctx.cfg.unitId) =
      (r, net, cl.conn.net.2) := congrArg (fun r => (r.1, r.2, cl.conn.net.2)) hsend
  by_cases hr : r = .sent (q.frame (nextTid cl.ctx.tid) cl.ctx.cfg.unitId).length
  case neg =>
    rw [Request.exchange_of_unsent hready hsend' hr, Request.exchange_of_unsent hready' hsend hr]
    rfl
  subst hr
  have hframe := recvFrame_noted T ⟨cl.conn.errno, net, cl.conn.net.2⟩ MODBUS_TCP_MAX_ADU_LENGTH
  rw [Request.exchange_of_sent hready hsend', Request.exchange_of_sent hready' hsend]
  simp only [Conn.forget] at hframe
  simp only [Client.forget, Conn.forget, hframe]

/-- Keeping the results of `recv` does not change a call. -/
theorem Request.call_noted (cl : Client (σ × List RecvResult)) (q : Request)
    (resp : ResponseBuffer) :
    q.call T cl.forget resp =
      ((q.call T.noted cl resp).1, (q.call T.noted cl resp).2.forget) := by
  rw [Request.call_eq, Request.call_eq, Request.exchange_noted]
  rfl

theorem Request.call_fresh (cl : Client σ) (q : Request) (resp : ResponseBuffer) :
    (q.call T.noted cl.fresh resp).1 = (q.call T cl resp).1 :=
  (congrArg Prod.fst (Request.call_noted T cl.fresh q resp)).symm

end Noted

/-! ### The code of a call, by the results of `recv` -/

/-- A `recv` that lets the loop go on. -/
def RecvResult.GoesOn (r : RecvResult) : Prop := r.bytes ≠ []

theorem not_goesOn_closed : ¬ (RecvResult.received []).GoesOn := fun h => h rfl

theorem forall_goesOn_nil : ∀ r ∈ ([] : List RecvResult), r.GoesOn :=
  fun _ hr => absurd hr List.not_mem_nil

/-- What `recv_exact` and `recv_response` return for the results of `recv`, with the `errno` before
the first of them. -/
inductive RecvEnd (errno : Errno) : ℤ → List RecvResult → Prop
  | all {rc : ℤ} {rs : List RecvResult} (h : ∀ r ∈ rs, r.GoesOn) (hrc : rc ≠ -2) :
    RecvEnd errno rc rs
  | closed {rs : List RecvResult} (h : ∀ r ∈ rs, r.GoesOn) :
    RecvEnd errno (recvFailure errno) (rs ++ [.received []])
  | error {rs : List RecvResult} (h : ∀ r ∈ rs, r.GoesOn) (e : Errno) :
    RecvEnd errno (recvFailure e) (rs ++ [.error e])

theorem RecvEnd.append {errno : Errno} {rc : ℤ} {rs rs' : List RecvResult}
    (hrs : ∀ r ∈ rs, r.GoesOn) (h : RecvEnd errno rc rs') : RecvEnd errno rc (rs ++ rs') := by
  have hboth : ∀ rs' : List RecvResult, (∀ r ∈ rs', r.GoesOn) → ∀ r ∈ rs ++ rs', r.GoesOn :=
    fun rs' hrs' => List.forall_mem_append.mpr ⟨hrs, hrs'⟩
  cases h with
  | all h hrc => exact .all (hboth _ h) hrc
  | closed h =>
    rw [← List.append_assoc]
    exact .closed (hboth _ h)
  | error h e =>
    rw [← List.append_assoc]
    exact .error (hboth _ h) e

section Ends

variable (T : Transport σ)

/-- The results of `recv` in `recv_exact`: when it succeeds they all went on, and `errno` is as
before. -/
theorem recvExact_end (c : Conn (σ × List RecvResult)) (len : ℕ) :
    ∃ rs, (recvExact T.noted c len).2.net.2 = c.net.2 ++ rs ∧
      RecvEnd c.errno (recvExact T.noted c len).1.rc rs ∧
      ((recvExact T.noted c len).1.rc = 0 →
        (∀ r ∈ rs, r.GoesOn) ∧ (recvExact T.noted c len).2.errno = c.errno) := by
  refine recvExact_rec (T := T.noted) (P := fun c _ r => ∃ rs, r.2.net.2 = c.net.2 ++ rs ∧
    RecvEnd c.errno r.1.rc rs ∧ (r.1.rc = 0 → (∀ r ∈ rs, r.GoesOn) ∧ r.2.errno = c.errno))
    ?_ ?_ ?_ ?_ c len
  · intro c
    have hzero : (0 : ℤ) ≠ -2 := by decide
    exact ⟨[], (List.append_nil _).symm, .all forall_goesOn_nil hzero,
      fun _ => ⟨forall_goesOn_nil, rfl⟩⟩
  · rintro c len bs net r - hrecv hbs ⟨rs, hnet, hend, hok⟩
    obtain ⟨hbytes, rfl⟩ := Prod.mk.inj hrecv
    have hgoes : ∀ r ∈ [(T.recv c.net.1 len).1], r.GoesOn := by
      intro r hr
      rw [List.mem_singleton.mp hr, RecvResult.GoesOn, hbytes]
      exact hbs
    refine ⟨[(T.recv c.net.1 len).1] ++ rs, ?_, hend.append hgoes, fun hrc => ?_⟩
    · rw [hnet, List.append_assoc]
    · obtain ⟨hrs, herrno⟩ := hok hrc
      exact ⟨List.forall_mem_append.mpr ⟨hgoes, hrs⟩, herrno⟩
  · intro c len net _ hrecv
    obtain ⟨hbytes, rfl⟩ := Prod.mk.inj hrecv
    refine ⟨[] ++ [.received []], ?_, .closed forall_goesOn_nil,
      fun hrc => absurd hrc (recvFailure_ne_zero _)⟩
    exact congrArg (c.net.2 ++ [·]) hbytes
  · intro c len e net _ hrecv
    obtain ⟨hbytes, rfl⟩ := Prod.mk.inj hrecv
    refine ⟨[] ++ [.error e], ?_, .error forall_goesOn_nil e,
      fun hrc => absurd hrc (recvFailure_ne_zero _)⟩
    exact congrArg (c.net.2 ++ [·]) hbytes

/-- The return code of `recv_response`. -/
def frameRc (outcome : Except ℤ Bytes) : ℤ :=
  match outcome with
  | .ok _ => 0
  | .error rc => rc

theorem recvFrame_end (c : Conn (σ × List RecvResult)) (cap : ℕ) :
    ∃ rs, (recvFrame T.noted c cap).2.net.2 = c.net.2 ++ rs ∧
      RecvEnd c.errno (frameRc (recvFrame T.noted c cap).1) rs := by
  obtain ⟨rs, hnet, hend, hok⟩ := recvExact_end T c MODBUS_TCP_MBAP_HEADER_LEN
  simp only [recvFrame]
  generalize recvExact T.noted c MODBUS_TCP_MBAP_HEADER_LEN = head at hnet hend hok ⊢
  by_cases hrc : head.1.rc = 0
  case neg =>
    rw [if_pos hrc]
    exact ⟨rs, hnet, hend⟩
  obtain ⟨hrs, herrno⟩ := hok hrc
  rw [if_neg (not_not_intro hrc)]
  by_cases hbad : mbapLength head.1.bytes = 0 ∨
      (mbapLength head.1.bytes).toNat > cap - MODBUS_TCP_MBAP_HEADER_LEN
  · rw [if_pos hbad]
    have hneg : (-1 : ℤ) ≠ -2 := by decide
    exact ⟨rs, hnet, .all hrs hneg⟩
  · rw [if_neg hbad]
    obtain ⟨rs', hnet', hend', hok'⟩ := recvExact_end T head.2 (mbapLength head.1.bytes).toNat
    rw [herrno] at hend'
    refine ⟨rs ++ rs', ?_, ?_⟩
    · split_ifs <;> rw [hnet', hnet, List.append_assoc]
    · split_ifs with hrc'
      · exact hend'.append hrs
      · have hzero : (0 : ℤ) ≠ -2 := by decide
        exact .all (List.forall_mem_append.mpr ⟨hrs, (hok' (not_not.mp hrc')).1⟩) hzero

/-- What a call returns for the results of `recv`, with the `errno` before the call. -/
inductive CallEnd (errno : Errno) : ℤ → List RecvResult → Prop
  | all {rc : ℤ} {rs : List RecvResult} (h : ∀ r ∈ rs, r.GoesOn)
    (hrc : rc ≠ MB_TCP_CLIENT_ERR_TIMEOUT) : CallEnd errno rc rs
  | closed {rs : List RecvResult} (h : ∀ r ∈ rs, r.GoesOn) :
    CallEnd errno (recvErrToClientErr (recvFailure errno)) (rs ++ [.received []])
  | error {rs : List RecvResult} (h : ∀ r ∈ rs, r.GoesOn) (e : Errno) :
    CallEnd errno (recvErrToClientErr (recvFailure e)) (rs ++ [.error e])

theorem RecvEnd.callEnd {errno : Errno} {rc : ℤ} {rs : List RecvResult} (h : RecvEnd errno rc rs) :
    CallEnd errno (recvErrToClientErr rc) rs := by
  cases h with
  | all h hrc =>
    refine .all h ?_
    rw [recvErrToClientErr, if_neg hrc]
    decide
  | closed h => exact .closed h
  | error h e => exact .error h e

/-- The evaluation of a response reports no timeout. -/
theorem Request.check_ne_timeout (tid : UInt16) (req resp : Bytes) (totalLen : ℕ) (q : Request) :
    (q.check tid req resp totalLen).rc ≠ MB_TCP_CLIENT_ERR_TIMEOUT := by
  have hcode : ((resp.getD ADU_OFFSET_ADDR_HIGH 0).toNat : ℤ) ≠ MB_TCP_CLIENT_ERR_TIMEOUT :=
    fun h => absurd (h ▸ Int.natCast_nonneg _) (by decide)
  have hok : MB_TCP_CLIENT_OK ≠ MB_TCP_CLIENT_ERR_TIMEOUT := by decide
  have hframe : MB_TCP_CLIENT_ERR_FRAME ≠ MB_TCP_CLIENT_ERR_TIMEOUT := by decide
  have htid : MB_TCP_CLIENT_ERR_TID ≠ MB_TCP_CLIENT_ERR_TIMEOUT := by decide
  cases q with
  | read addr qty =>
    simp only [Request.check, readResponse]
    split_ifs <;> assumption
  | writeSingle | writeMultiple =>
    simp only [Request.check, validateWriteResponse]
    split_ifs <;> assumption

theorem RecvEnd.forall_goesOn {errno : Errno} {rs : List RecvResult} (h : RecvEnd errno 0 rs) :
    ∀ r ∈ rs, r.GoesOn := by
  generalize hrc : (0 : ℤ) = rc at h
  cases h with
  | all h _ => exact h
  | closed _ => exact absurd hrc.symm (recvFailure_ne_zero _)
  | error _ e => exact absurd hrc.symm (recvFailure_ne_zero e)

/-- **The code of a call**, by the results of `recv`. -/
theorem callEnd (cl : Client σ) (q : Request) (resp : ResponseBuffer) :
    CallEnd cl.conn.errno (q.call T cl resp).1.rc (recvResults T cl q resp) := by
  have hnone : ∀ {rc : ℤ}, rc ≠ MB_TCP_CLIENT_ERR_TIMEOUT → CallEnd cl.conn.errno rc [] :=
    .all forall_goesOn_nil
  have hrefusal : q.refusal ≠ MB_TCP_CLIENT_ERR_TIMEOUT := by
    unfold Request.refusal
    split <;> decide
  have htransport : MB_TCP_CLIENT_ERR_TRANSPORT ≠ MB_TCP_CLIENT_ERR_TIMEOUT := by decide
  rw [← Request.call_fresh T cl q resp, recvResults, Request.call_eq]
  by_cases hready : q.valid = true ∧ 0 ≤ cl.fresh.ctx.sock
  case neg =>
    rw [Request.exchange_of_not_ready hready]
    exact hnone hrefusal
  rcases hsend : T.send cl.conn.net (q.frame (nextTid cl.ctx.tid) cl.ctx.cfg.unitId) with ⟨r, net⟩
  have hsend' : T.noted.send cl.fresh.conn.net
      (q.frame (nextTid cl.fresh.ctx.tid) cl.fresh.ctx.cfg.unitId) = (r, net, []) :=
    congrArg (fun r => (r.1, r.2, [])) hsend
  by_cases hr : r = .sent (q.frame (nextTid cl.ctx.tid) cl.ctx.cfg.unitId).length
  case neg =>
    rw [Request.exchange_of_unsent hready hsend' hr]
    exact hnone htransport
  subst hr
  rw [Request.exchange_of_sent hready hsend']
  dsimp only [Client.fresh]
  obtain ⟨rs, hnet, hend⟩ := recvFrame_end T ⟨cl.conn.errno, net, []⟩ MODBUS_TCP_MAX_ADU_LENGTH
  rw [List.nil_append] at hnet
  rw [hnet]
  cases hframe : (recvFrame T.noted ⟨cl.conn.errno, net, []⟩ MODBUS_TCP_MAX_ADU_LENGTH).1 with
  | ok f =>
    rw [hframe] at hend
    exact .all hend.forall_goesOn (Request.check_ne_timeout _ _ _ _ q)
  | error rc =>
    rw [hframe] at hend
    exact hend.callEnd

end Ends

/-! ### The `errno` before a call -/

/-- A client in whose thread an earlier call left another `errno`. -/
def Client.withErrno (cl : Client σ) (e : Errno) : Client σ := ⟨cl.ctx, e, cl.conn.net⟩

/-- Two calls of `recv_exact` that differ in `errno` only: their codes differ only after a `recv`
that returned 0. -/
structure Agree (r r' : Received × Conn (σ × List RecvResult)) : Prop where
  bytes : r'.1.bytes = r.1.bytes
  net : r'.2.net = r.2.net
  rc : r'.1.rc = r.1.rc ∨ .received [] ∈ r.2.net.2

section Errno

variable (T : Transport σ)

theorem recvLoop_errno (fuel : ℕ) (errno errno' : Errno) (net : σ × List RecvResult) (len : ℕ) :
    Agree (recvLoop T.noted fuel ⟨errno, net⟩ len) (recvLoop T.noted fuel ⟨errno', net⟩ len) := by
  induction fuel generalizing net len with
  | zero => cases len <;> exact ⟨rfl, rfl, .inl rfl⟩
  | succ fuel ih =>
    cases len with
    | zero => exact ⟨rfl, rfl, .inl rfl⟩
    | succ len =>
      simp only [recvLoop, Transport.noted]
      rcases T.recv net.1 (len + 1) with ⟨bs | e, net'⟩
      · cases bs with
        | nil => exact ⟨rfl, rfl, .inr (List.mem_append_right _ List.mem_cons_self)⟩
        | cons b bs =>
          obtain ⟨hbytes, hnet, hrc⟩ :=
            ih (net', net.2 ++ [.received (b :: bs)]) (len + 1 - (b :: bs).length)
          exact ⟨congrArg (b :: bs ++ ·) hbytes, hnet, hrc⟩
      · exact ⟨rfl, rfl, .inl rfl⟩

theorem recvExact_errno {c c' : Conn (σ × List RecvResult)} (h : c'.net = c.net) (len : ℕ) :
    Agree (recvExact T.noted c len) (recvExact T.noted c' len) ∧
      ((recvExact T.noted c' len).1.rc = 0 ↔ (recvExact T.noted c len).1.rc = 0) := by
  obtain ⟨errno', net⟩ := c'
  obtain rfl : net = c.net := h
  have hagree : Agree (recvExact T.noted c len) (recvExact T.noted ⟨errno', c.net⟩ len) :=
    recvLoop_errno T len c.errno errno' c.net len
  have hlen := (recvExact_length T.noted c len).2
  have hlen' := (recvExact_length T.noted ⟨errno', c.net⟩ len).2
  rw [hagree.bytes] at hlen'
  exact ⟨hagree, hlen'.trans hlen.symm⟩

theorem recvFrame_errno {c c' : Conn (σ × List RecvResult)} (h : c'.net = c.net) (cap : ℕ) :
    (recvFrame T.noted c' cap).2.net = (recvFrame T.noted c cap).2.net ∧
      ((recvFrame T.noted c' cap).1 = (recvFrame T.noted c cap).1 ∨
        .received [] ∈ (recvFrame T.noted c cap).2.net.2) := by
  obtain ⟨⟨hbytes, hnet, hrc⟩, hzero⟩ := recvExact_errno T h MODBUS_TCP_MBAP_HEADER_LEN
  simp only [recvFrame]
  generalize recvExact T.noted c MODBUS_TCP_MBAP_HEADER_LEN = r at *
  generalize recvExact T.noted c' MODBUS_TCP_MBAP_HEADER_LEN = r' at *
  by_cases hok : r.1.rc = 0
  case neg =>
    rw [if_pos hok, if_pos (mt hzero.mp hok)]
    exact ⟨hnet, hrc.imp_left (congrArg Except.error)⟩
  rw [if_neg (not_not_intro hok), if_neg (not_not_intro (hzero.mpr hok)), hbytes]
  by_cases hbad : mbapLength r.1.bytes = 0 ∨
      (mbapLength r.1.bytes).toNat > cap - MODBUS_TCP_MBAP_HEADER_LEN
  · rw [if_pos hbad, if_pos hbad]
    exact ⟨hnet, .inl rfl⟩
  · rw [if_neg hbad, if_neg hbad]
    obtain ⟨⟨hbytes', hnet', hrc'⟩, hzero'⟩ :=
      recvExact_errno T hnet (mbapLength r.1.bytes).toNat
    by_cases hok' : (recvExact T.noted r.2 (mbapLength r.1.bytes).toNat).1.rc = 0
    · rw [if_neg (not_not_intro hok'), if_neg (not_not_intro (hzero'.mpr hok')), hbytes']
      exact ⟨hnet', .inl rfl⟩
    · rw [if_pos hok', if_pos (mt hzero'.mp hok')]
      exact ⟨hnet', hrc'.imp_left (congrArg Except.error)⟩

/-- **The `errno` before a call** does not change what the call receives, and shows in its code
only after a `recv` that returned 0. -/
theorem call_errno (cl : Client σ) (e : Errno) (q : Request) (resp : ResponseBuffer) :
    recvResults T (cl.withErrno e) q resp = recvResults T cl q resp ∧
      ((q.call T (cl.withErrno e) resp).1.rc = (q.call T cl resp).1.rc ∨
        .received [] ∈ recvResults T cl q resp) := by
  rw [← Request.call_fresh T cl q resp, ← Request.call_fresh T (cl.withErrno e) q resp, recvResults,
    recvResults, Request.call_eq, Request.call_eq]
  by_cases hready : q.valid = true ∧ 0 ≤ cl.fresh.ctx.sock
  case neg =>
    have hready' : ¬ (q.valid = true ∧ 0 ≤ (cl.withErrno e).fresh.ctx.sock) := hready
    rw [Request.exchange_of_not_ready hready, Request.exchange_of_not_ready hready']
    exact ⟨rfl, .inl rfl⟩
  have hready' : q.valid = true ∧ 0 ≤ (cl.withErrno e).fresh.ctx.sock := hready
  rcases hsend : T.noted.send cl.fresh.conn.net
    (q.frame (nextTid cl.fresh.ctx.tid) cl.fresh.ctx.cfg.unitId) with ⟨r, net⟩
  have hsend' : T.noted.send (cl.withErrno e).fresh.conn.net
      (q.frame (nextTid (cl.withErrno e).fresh.ctx.tid) (cl.withErrno e).fresh.ctx.cfg.unitId) =
    (r, net) := hsend
  by_cases hr : r = .sent (q.frame (nextTid cl.ctx.tid) cl.ctx.cfg.unitId).length
  case neg =>
    rw [Request.exchange_of_unsent hready hsend hr, Request.exchange_of_unsent hready' hsend' hr]
    exact ⟨rfl, .inl rfl⟩
  subst hr
  rw [Request.exchange_of_sent hready hsend, Request.exchange_of_sent hready' hsend']
  dsimp only [Client.fresh, Client.withErrno]
  have hconn : (⟨e, net⟩ : Conn (σ × List RecvResult)).net =
      (⟨cl.conn.errno, net⟩ : Conn (σ × List RecvResult)).net := rfl
  obtain ⟨hnet, hframe⟩ := recvFrame_errno T hconn MODBUS_TCP_MAX_ADU_LENGTH
  rw [hnet]
  refine ⟨rfl, hframe.imp_left fun hsame => ?_⟩
  rw [hsame]

end Errno

/-! ### The calls whose codes are right -/

/-- A call reports a timeout only if a `recv` of its own timed out, and a closed connection as a
lost one. -/
structure FailuresReported (T : Transport σ) (cl : Client σ) (q : Request) (resp : ResponseBuffer) :
    Prop where
  timeout : (q.call T cl resp).1.rc = MB_TCP_CLIENT_ERR_TIMEOUT →
    ∃ e, e.isTimeout = true ∧ .error e ∈ recvResults T cl q resp
  closed : .received [] ∈ recvResults T cl q resp →
    (q.call T cl resp).1.rc = MB_TCP_CLIENT_ERR_TRANSPORT

/-- The reports are right, and do not depend on the `errno` before the call. -/
structure Classified (T : Transport σ) (cl : Client σ) (q : Request) (resp : ResponseBuffer) :
    Prop extends FailuresReported T cl q resp where
  errno : ∀ e, (q.call T (cl.withErrno e) resp).1.rc = (q.call T cl resp).1.rc

section Reports

variable {T : Transport σ} {cl : Client σ} {q : Request} {resp : ResponseBuffer}

theorem recvErrToClientErr_recvFailure (e : Errno) :
    recvErrToClientErr (recvFailure e) =
      if e.isTimeout then MB_TCP_CLIENT_ERR_TIMEOUT else MB_TCP_CLIENT_ERR_TRANSPORT := by
  unfold recvFailure
  split <;> rfl

/-- A `recv` that returns 0 is the last one. -/
theorem CallEnd.rc_of_closed {errno : Errno} {rc : ℤ} {rs : List RecvResult}
    (h : CallEnd errno rc rs) (hclosed : .received [] ∈ rs) :
    rc = recvErrToClientErr (recvFailure errno) := by
  cases h with
  | all h _ => exact absurd (h _ hclosed) not_goesOn_closed
  | closed _ => rfl
  | error h e =>
    rcases List.mem_append.mp hclosed with hclosed | hclosed
    · exact absurd (h _ hclosed) not_goesOn_closed
    · cases List.mem_singleton.mp hclosed

/-- The code of a call in which `recv` returns 0. -/
theorem call_rc_of_closed (hclosed : .received [] ∈ recvResults T cl q resp) :
    (q.call T cl resp).1.rc =
      if cl.conn.errno.isTimeout then MB_TCP_CLIENT_ERR_TIMEOUT
      else MB_TCP_CLIENT_ERR_TRANSPORT := by
  rw [(callEnd T cl q resp).rc_of_closed hclosed, recvErrToClientErr_recvFailure]

/-- A call that reports a timeout: a `recv` of its own timed out, or one returned 0 and an earlier
call left `errno` so. -/
theorem CallEnd.of_timeout {errno : Errno} {rs : List RecvResult}
    (h : CallEnd errno MB_TCP_CLIENT_ERR_TIMEOUT rs) :
    (∃ e, e.isTimeout = true ∧ .error e ∈ rs) ∨ .received [] ∈ rs ∧ errno.isTimeout = true := by
  have htimeout : ∀ e : Errno, MB_TCP_CLIENT_ERR_TIMEOUT = recvErrToClientErr (recvFailure e) →
      e.isTimeout = true := by
    intro e he
    rw [recvErrToClientErr_recvFailure] at he
    by_contra hnot
    rw [if_neg hnot] at he
    exact absurd he (by decide)
  generalize hrc : MB_TCP_CLIENT_ERR_TIMEOUT = rc at h
  cases h with
  | all _ hne => exact absurd hrc.symm hne
  | closed _ => exact .inr ⟨List.mem_append_right _ List.mem_cons_self, htimeout errno hrc⟩
  | error _ e => exact .inl ⟨e, htimeout e hrc, List.mem_append_right _ List.mem_cons_self⟩

theorem failuresReported_iff :
    FailuresReported T cl q resp ↔
      ¬ (.received [] ∈ recvResults T cl q resp ∧ cl.conn.errno.isTimeout = true) := by
  constructor
  · rintro h ⟨hclosed, htimeout⟩
    have hrc := (call_rc_of_closed hclosed).symm.trans (h.closed hclosed)
    rw [if_pos htimeout] at hrc
    exact absurd hrc (by decide)
  · intro h
    refine ⟨fun hrc => ?_, fun hclosed => ?_⟩
    · have hend := callEnd T cl q resp
      rw [hrc] at hend
      exact hend.of_timeout.resolve_right h
    · rw [call_rc_of_closed hclosed, if_neg fun htimeout => h ⟨hclosed, htimeout⟩]

/-- After a `recv` that returns 0, the code tells what `errno` was before the call. -/
theorem not_forall_errno (hclosed : .received [] ∈ recvResults T cl q resp) :
    ¬ ∀ e, (q.call T (cl.withErrno e) resp).1.rc = (q.call T cl resp).1.rc := by
  intro h
  have hcode : ∀ e : Errno, (q.call T cl resp).1.rc =
      if e.isTimeout then MB_TCP_CLIENT_ERR_TIMEOUT else MB_TCP_CLIENT_ERR_TRANSPORT := by
    intro e
    rw [← (call_errno T cl e q resp).1] at hclosed
    exact (h e).symm.trans (call_rc_of_closed hclosed)
  have hrc := (hcode .eagain).symm.trans (hcode (.other 0))
  exact absurd hrc (by decide)

end Reports

/-- **The calls whose codes are right**, whatever `errno` was before: those in which no `recv`
returns 0. With the `errno` that there is, a closed connection is reported as a lost one if an
earlier call has not left the `errno` of a timeout. -/
theorem classified_iff (T : Transport σ) (cl : Client σ) (q : Request) (resp : ResponseBuffer) :
    (Classified T cl q resp ↔ .received [] ∉ recvResults T cl q resp) ∧
      (FailuresReported T cl q resp ↔
        ¬ (.received [] ∈ recvResults T cl q resp ∧ cl.conn.errno.isTimeout = true)) := by
  refine ⟨⟨fun h hclosed => not_forall_errno hclosed h.errno, fun h => ?_⟩, failuresReported_iff⟩
  exact ⟨failuresReported_iff.mpr fun hboth => h hboth.1,
    fun e => (call_errno T cl e q resp).2.resolve_right h⟩

/-- The socket calls that give the results of a list; `send` takes every frame. -/
def scriptTransport : Transport (List RecvResult) where
  recv
    | [], _ => (.received [], [])
    | .received bs :: rs, n => (.received (bs.take n), rs)
    | .error e :: rs, _ => (.error e, rs)
  send rs frame := (.sent frame.length, rs)
  length_recv_le rs n := by
    rcases rs with _ | ⟨_ | _, rs⟩
    · exact Nat.zero_le n
    · exact List.length_take_le n _
    · exact Nat.zero_le n

/-- A client whose first call has timed out, and whose peer then closes the connection. -/
def timedOutClient : Client (List RecvResult) :=
  ((Request.read 0 1).call scriptTransport
    ⟨⟨3, 0, ⟨"127.0.0.1", 502, 1⟩⟩, .other 0, [.error .eagain, .received []]⟩
    (Vector.replicate 260 0)).2

/-- The connection is closed after a call that timed out, and the next call reports a timeout. -/
theorem not_classified :
    ¬ ∀ (T : Transport (List RecvResult)) (cl : Client (List RecvResult)) (q : Request)
      (resp : ResponseBuffer), Classified T cl q resp := by
  intro h
  have hclosed := (h scriptTransport timedOutClient (.read 0 1) (Vector.replicate 260 0)).closed
    (by decide)
  exact absurd hclosed (by decide)

end LoopCharger.Modbus

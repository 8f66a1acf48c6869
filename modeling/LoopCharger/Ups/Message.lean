import LoopCharger.Modbus.Build
import LoopCharger.Modbus.Verdict
import LoopCharger.Ups.Unit

/-!
# The message callback

`ups_msg_callback` of `src/ups_module.c`, which writes registers of a unit at once and returns
whether the device has confirmed it. The caller's count is a `size_t`, and the operations of the
client take one of 16 bits. The unit is the one of the module configuration; neither the
configuration nor the values are `NULL`.

## Main definitions

* `upsMsgCallback`: the callback.
* `autoRequest`: the request that the mode `UPS_WRITE_MODE_AUTO` selects.
* `MsgSound`: a success is a write of all values that the device has confirmed, and what no request
  carries is refused.

## Main results

* `msg_sound_iff`: the calls that are sound.
-/

namespace LoopCharger.Ups

open Lib Modbus

/-! ### The callback -/

/-- Execute a write on a unit: what is returned, and the unit. -/
def upsMsgCallback {γ : Type*} (api : ModbusApi γ) (u : UpsUnit γ) (addr : UInt16)
    (values : ℕ → UInt16) (count : ℕ) : ℤ × UpsUnit γ :=
  if count = 0 then (-1, u)
  else
    let r := writeRegistersToDevice api u.tcpCtx addr values (.ofNat count) .auto
    (r.1, { u with tcpCtx := r.2 })

/-- The request for `count` registers. -/
def autoRequest (addr : UInt16) (values : ℕ → UInt16) (count : UInt16) : Request :=
  if count = 1 then .writeSingle addr (values 0) else .writeMultiple addr count values

theorem valid_autoRequest {addr : UInt16} {values : ℕ → UInt16} {count : UInt16} :
    (autoRequest addr values count).valid = true ↔
      count ≠ 0 ∧ count.toNat ≤ MODBUS_MAX_WRITE_REGISTERS := by
  unfold autoRequest
  split_ifs with hone
  · rw [hone]
    exact iff_of_true rfl (by decide)
  · exact decide_eq_true_iff

variable {σ : Type*} (T : Transport σ) (stack : ℕ → ResponseBuffer)
  (u : UpsUnit (Client σ × ℕ)) (addr : UInt16) (values : ℕ → UInt16) (count : ℕ)

/-- The callback is a call of the client with the request. -/
theorem upsMsgCallback_eq (hcount : count ≠ 0) :
    upsMsgCallback (clientApi T stack) u addr values count =
      let r := (autoRequest addr values (.ofNat count)).call T u.tcpCtx.1 (stack u.tcpCtx.2)
      (if r.1.rc ≠ MB_TCP_CLIENT_OK then -1 else 0,
        { u with tcpCtx := (r.2, u.tcpCtx.2 + 1) }) := by
  simp only [upsMsgCallback, if_neg hcount, writeRegistersToDevice, autoRequest]
  by_cases hone : UInt16.ofNat count = 1
  · simp only [if_pos hone]
    rfl
  · simp only [if_neg hone]
    rfl

/-! ### The response -/

/-- The device confirms the request `frame` with the response `f`, which has its transaction
identifier and its function code. -/
def Confirms (frame f : Bytes) : Prop := frameTid f = frameTid frame ∧ f[7]? = frame[7]?

/-- The response `f` to the request with the identifier `tid` is an exception with the code zero,
which is the return code of a success. -/
def ZeroException (tid : UInt16) (f : Bytes) : Prop :=
  9 ≤ f.length ∧ frameTid f = tid ∧ hasExceptionFlag (f.getD 7 0) = true ∧ f.getD 8 0 = 0

variable {T} {cl : Client σ} {q : Request}

/-- The write operations succeed with an exception with the code zero, or with a response of twelve
bytes that confirms the request. -/
theorem rc_call_autoRequest_iff {c : UInt16} (resp : ResponseBuffer) :
    ((autoRequest addr values c).call T cl resp).1.rc = MB_TCP_CLIENT_OK ↔
      ∃ f, (autoRequest addr values c).received T cl = some f ∧
        (ZeroException (nextTid cl.ctx.tid) f ∨
          12 ≤ f.length ∧ frameTid f = nextTid cl.ctx.tid ∧
            f.getD 7 0 = (autoRequest addr values c).fc) := by
  set q := autoRequest addr values c with hq
  rcases hrec : q.received T cl with _ | f
  · obtain ⟨rc, hneg, hcall⟩ := Request.call_of_not_received hrec
    refine iff_of_false (fun h => ?_) (by simp)
    rw [hcall resp] at h
    exact absurd h (Int.ne_of_lt hneg)
  · have hlen := (Request.isFrame_of_received hrec).lt_length
    have hcheck : q.check (nextTid cl.ctx.tid) (q.frame (nextTid cl.ctx.tid) cl.ctx.cfg.unitId)
        (storeAt resp.toList 0 f) f.length =
        ⟨validateWriteResponse (q.frame (nextTid cl.ctx.tid) cl.ctx.cfg.unitId)
          (storeAt resp.toList 0 f) f.length (nextTid cl.ctx.tid), []⟩ := by
      rw [hq, autoRequest]
      split_ifs <;> rfl
    have hflag := hasExceptionFlag_fc q
    have hseven := getD_storeAt_zero resp.toList f 7
    have height := getD_storeAt_zero resp.toList f 8
    rw [Request.call_of_received hrec, hcheck]
    simp only [validateWriteResponse_eq_zero_iff, frameTid_storeAt hlen, getD_frame,
      Option.some.injEq, exists_eq_left', ZeroException]
    grind

/-! ### The request on the wire -/

/-- The request for 1 to 123 registers is read back as the write of all of them, with the function
code that their number calls for. -/
theorem decodeWriteRequest_autoRequest {c : UInt16} (hne : c ≠ 0)
    (hle : c.toNat ≤ MODBUS_MAX_WRITE_REGISTERS) (tid : UInt16) (uid : UInt8) :
    decodeWriteRequest ((autoRequest addr values c).frame tid uid) =
        some ⟨uid, addr, (List.range c.toNat).map values⟩ ∧
      ((autoRequest addr values c).frame tid uid)[7]? = some (if c = 1 then
        MODBUS_FUNC_WRITE_SINGLE_REGISTER else MODBUS_FUNC_WRITE_MULTIPLE_REGISTERS) ∧
      frameTid ((autoRequest addr values c).frame tid uid) = tid := by
  have hle' : c.toNat ≤ 123 := hle
  unfold autoRequest
  split_ifs with hone
  · subst hone
    exact ⟨decodeWriteRequest_buildFc06Request tid uid addr (values 0), rfl,
      word_highByte_lowByte tid⟩
  · simp only [Request.frame, buildFc16Request_take tid uid addr hle values]
    exact ⟨decodeWriteRequest_buildFc16Request (by omega), rfl, word_highByte_lowByte tid⟩

/-! ### Sound calls -/

section Sound

variable (T : Transport σ) (stack : ℕ → ResponseBuffer)
  (u : UpsUnit (Client (σ × List Bytes) × ℕ)) (addr : UInt16) (values : ℕ → UInt16) (count : ℕ)

/-- The callback succeeds only when one request was sent, which is the write of all values, and the
device has confirmed it; and what no request carries is refused, and nothing is sent. -/
structure MsgSound : Prop where
  carried : (upsMsgCallback (clientApi T.logged stack) u addr values count).1 = 0 →
    ∃ frame f,
      (upsMsgCallback (clientApi T.logged stack) u addr values count).2.tcpCtx.1.log =
          u.tcpCtx.1.log ++ [frame] ∧
        decodeWriteRequest frame =
          some ⟨u.tcpCtx.1.ctx.cfg.unitId, addr, (List.range count).map values⟩ ∧
        frame[7]? = some (if count = 1 then MODBUS_FUNC_WRITE_SINGLE_REGISTER
          else MODBUS_FUNC_WRITE_MULTIPLE_REGISTERS) ∧
        (autoRequest addr values (.ofNat count)).received T.logged u.tcpCtx.1 = some f ∧
        Confirms frame f
  refused : count = 0 ∨ MODBUS_MAX_WRITE_REGISTERS < count →
    (upsMsgCallback (clientApi T.logged stack) u addr values count).1 = -1 ∧
      (upsMsgCallback (clientApi T.logged stack) u addr values count).2.tcpCtx.1.log =
        u.tcpCtx.1.log

variable {T stack u addr values count}

/-- The outcome of a call with a count that is not zero. -/
theorem upsMsgCallback_rc_iff (hne : count ≠ 0) :
    (upsMsgCallback (clientApi T.logged stack) u addr values count).1 = 0 ↔
      ((autoRequest addr values (.ofNat count)).call T.logged u.tcpCtx.1
        (stack u.tcpCtx.2)).1.rc = MB_TCP_CLIENT_OK := by
  rw [upsMsgCallback_eq T.logged stack u addr values count hne]
  dsimp only
  split_ifs with hrc
  · exact iff_of_false (by decide) hrc
  · exact iff_of_true rfl (not_not.mp hrc)

theorem upsMsgCallback_rc_cases :
    (upsMsgCallback (clientApi T.logged stack) u addr values count).1 = 0 ∨
      (upsMsgCallback (clientApi T.logged stack) u addr values count).1 = -1 := by
  by_cases hne : count = 0
  · exact .inr (by rw [upsMsgCallback, if_pos hne])
  · rw [upsMsgCallback_eq T.logged stack u addr values count hne]
    dsimp only
    split_ifs
    · exact .inr rfl
    · exact .inl rfl

theorem log_upsMsgCallback (hne : count ≠ 0) :
    (upsMsgCallback (clientApi T.logged stack) u addr values count).2.tcpCtx.1.log =
      if (autoRequest addr values (.ofNat count)).valid = true ∧ 0 ≤ u.tcpCtx.1.ctx.sock then
        u.tcpCtx.1.log ++ [(autoRequest addr values (.ofNat count)).frame
          (nextTid u.tcpCtx.1.ctx.tid) u.tcpCtx.1.ctx.cfg.unitId]
      else u.tcpCtx.1.log := by
  rw [upsMsgCallback_eq T.logged stack u addr values count hne]
  dsimp only
  rw [Request.call_eq]
  exact Request.log_exchange T u.tcpCtx.1 _

/-- A request that is answered has been sent. -/
theorem sent_of_received {f : Bytes}
    (h : (autoRequest addr values (.ofNat count)).received T.logged u.tcpCtx.1 = some f) :
    (autoRequest addr values (.ofNat count)).valid = true ∧ 0 ≤ u.tcpCtx.1.ctx.sock := by
  obtain ⟨hvalid, hsock, -⟩ := Request.exchange_ok_cases
    (Prod.ext (Request.received_eq_some_iff.mp h)
      (Eq.refl ((autoRequest addr values (.ofNat count)).exchange T.logged u.tcpCtx.1).2))
  exact ⟨hvalid, hsock⟩

/-- A count that one request carries: only an exception with the code zero is taken for a
confirmation. -/
theorem msgSound_iff_of_le (hle : count ≤ MODBUS_MAX_WRITE_REGISTERS) :
    MsgSound T stack u addr values count ↔
      ∀ f, (autoRequest addr values (.ofNat count)).received T.logged u.tcpCtx.1 = some f →
        ¬ ZeroException (nextTid u.tcpCtx.1.ctx.tid) f := by
  have hle' : count ≤ 123 := hle
  have hlow : (UInt16.ofNat count).toNat = count := by
    rw [UInt16.toNat_ofNat']
    omega
  by_cases hne : count = 0
  · subst hne
    have hneg : (-1 : ℤ) ≠ 0 := by decide
    refine iff_of_true ⟨fun h => absurd h hneg, fun _ => ⟨rfl, rfl⟩⟩ fun f hf => ?_
    exact absurd (valid_autoRequest.mp (sent_of_received hf).1).1 (by decide)
  constructor
  · intro h f hf hzero
    obtain ⟨frame, f', -, -, hfc, hf', -, hconfirms⟩ := h.carried
      ((upsMsgCallback_rc_iff hne).mpr ((rc_call_autoRequest_iff addr values _).mpr
        ⟨f, hf, .inl hzero⟩))
    obtain rfl : f = f' := Option.some.inj (hf.symm.trans hf')
    -- the response has the function code of a write
    have hflag := (getElem?_seven_eq_some_iff.mp (hconfirms.trans hfc)).2 ▸ hzero.2.2.1
    split_ifs at hflag <;> exact absurd hflag (by decide)
  · intro h
    refine ⟨fun hrc => ?_, fun hout => ?_⟩
    · obtain ⟨f, hf, hzero | ⟨hlen, htid, hfc⟩⟩ :=
        (rc_call_autoRequest_iff addr values _).mp ((upsMsgCallback_rc_iff hne).mp hrc)
      · exact absurd hzero (h f hf)
      · obtain ⟨hvalid, hsock⟩ := sent_of_received hf
        obtain ⟨hnonzero, hfits⟩ := valid_autoRequest.mp hvalid
        obtain ⟨hdecode, hseven, htidFrame⟩ := decodeWriteRequest_autoRequest addr values hnonzero
          hfits (nextTid u.tcpCtx.1.ctx.tid) u.tcpCtx.1.ctx.cfg.unitId
        have hone : UInt16.ofNat count = 1 ↔ count = 1 := by
          rw [← UInt16.toNat_inj, hlow, UInt16.toNat_one]
        rw [hlow] at hdecode
        simp only [hone] at hseven
        refine ⟨_, f, ?_, hdecode, hseven, hf, htid.trans htidFrame.symm, ?_⟩
        · rw [log_upsMsgCallback hne, if_pos ⟨hvalid, hsock⟩]
        · have hframe := (getElem?_seven_eq_some_iff.mp hseven).2
          rw [getD_frame, ← hfc] at hframe
          exact (getElem?_seven_eq_some_iff.mpr ⟨by omega, hframe⟩).trans hseven.symm
    · exact absurd hle (by omega)

/-- A count that no request carries: nothing is sent when its low 16 bits are not a count that one
carries either, or without a connection. -/
theorem msgSound_iff_of_lt (hlt : MODBUS_MAX_WRITE_REGISTERS < count) :
    MsgSound T stack u addr values count ↔
      count % 65536 = 0 ∨ MODBUS_MAX_WRITE_REGISTERS < count % 65536 ∨
        u.tcpCtx.1.ctx.sock < 0 := by
  have hne : count ≠ 0 := Nat.ne_of_gt (Nat.lt_of_le_of_lt (Nat.zero_le _) hlt)
  have hlow : (UInt16.ofNat count).toNat = count % 65536 := UInt16.toNat_ofNat'
  have hzero : UInt16.ofNat count ≠ 0 ↔ count % 65536 ≠ 0 := by
    rw [ne_eq, ← UInt16.toNat_inj, hlow, UInt16.toNat_zero]
  have hsent : (autoRequest addr values (.ofNat count)).valid = true ∧ 0 ≤ u.tcpCtx.1.ctx.sock ↔
      ¬ (count % 65536 = 0 ∨ MODBUS_MAX_WRITE_REGISTERS < count % 65536 ∨
        u.tcpCtx.1.ctx.sock < 0) := by
    rw [valid_autoRequest, hzero, hlow]
    omega
  constructor
  · intro h
    by_contra hnot
    have hlog := (h.refused (.inr hlt)).2
    rw [log_upsMsgCallback hne, if_pos (hsent.mpr hnot)] at hlog
    exact absurd hlog (by simp)
  · intro h
    have hfails : (upsMsgCallback (clientApi T.logged stack) u addr values count).1 ≠ 0 :=
      fun hrc => by
        obtain ⟨f, hf, -⟩ :=
          (rc_call_autoRequest_iff addr values _).mp ((upsMsgCallback_rc_iff hne).mp hrc)
        exact hsent.mp (sent_of_received hf) h
    refine ⟨fun hrc => absurd hrc hfails, fun _ => ⟨?_, ?_⟩⟩
    · exact upsMsgCallback_rc_cases.resolve_left hfails
    · rw [log_upsMsgCallback hne, if_neg fun hyes => hsent.mp hyes h]

end Sound

/-- **Sound calls.** Of the counts that one request carries, those whose response is not an
exception with the code zero; of the others, those whose low 16 bits are not a count that one
carries either, and those without a connection. -/
theorem msg_sound_iff (T : Transport σ) (stack : ℕ → ResponseBuffer)
    (u : UpsUnit (Client (σ × List Bytes) × ℕ)) (addr : UInt16) (values : ℕ → UInt16)
    (count : ℕ) :
    MsgSound T stack u addr values count ↔
      (count ≤ MODBUS_MAX_WRITE_REGISTERS ∧
          ∀ f, (autoRequest addr values (.ofNat count)).received T.logged u.tcpCtx.1 = some f →
            ¬ ZeroException (nextTid u.tcpCtx.1.ctx.tid) f) ∨
        (MODBUS_MAX_WRITE_REGISTERS < count ∧
          (count % 65536 = 0 ∨ MODBUS_MAX_WRITE_REGISTERS < count % 65536 ∨
            u.tcpCtx.1.ctx.sock < 0)) := by
  rcases Nat.lt_or_ge MODBUS_MAX_WRITE_REGISTERS count with hlt | hle
  · rw [msgSound_iff_of_lt hlt]
    exact ⟨fun h => .inr ⟨hlt, h⟩, fun h => (h.resolve_left fun h => Nat.not_lt.mpr h.1 hlt).2⟩
  · rw [msgSound_iff_of_le hle]
    exact ⟨fun h => .inl ⟨hle, h⟩, fun h => (h.resolve_right fun h => Nat.not_lt.mpr hle h.1).2⟩

/-- Of 65537 values the first one is written, and the device confirms that. -/
theorem not_msgSound :
    ¬ ∀ (T : Transport Bytes) (stack : ℕ → ResponseBuffer)
      (u : UpsUnit (Client (Bytes × List Bytes) × ℕ)) (addr : UInt16) (values : ℕ → UInt16)
      (count : ℕ), MsgSound T stack u addr values count := by
  intro h
  let cl : Client (Bytes × List Bytes) :=
    ⟨⟨3, 0, ⟨"ups", 502, 1⟩⟩, ⟨.other 0, ([0, 1, 0, 0, 0, 6, 1, 6, 0, 16, 0, 7], [])⟩⟩
  have hsound := h fixedStream (fun _ => Vector.replicate _ 0)
    ⟨⟨"ups", [], 50⟩, (cl, 0), 0, queueInit⟩ 16 (fun _ => 7) 65537
  have hout : MODBUS_MAX_WRITE_REGISTERS < 65537 := by decide
  exact absurd ((msgSound_iff_of_lt hout).mp hsound) (by decide)

end LoopCharger.Ups

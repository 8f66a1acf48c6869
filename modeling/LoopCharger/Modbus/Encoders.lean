import LoopCharger.Modbus.Build

/-!
# The two encoders of requests

`lib/modbus/modbus_tcp.c` builds requests for its callers, and `lib/modbus/modbus_tcp_client.c`
builds its own. Each function is given by the stores that it makes into its buffer, one after the
other. The pointers are not `NULL`, and the registers to be written are a function of the index.

## Main definitions

* `mbTcpBuildRequestBasis`, `mbTcpBuildFc06Request`: the functions of the codec, beside
  `mbTcpBuildFc16Request`.
* `buildFc03Stores`, `buildFc06Stores`, `buildFc16Stores`: the functions of the client.

## Main results

* `encoders_agree`: both store the same bytes, and leave the same identifier.
-/

namespace LoopCharger.Modbus

open Lib

/-! ### The codec -/

/-- Length of a request whose PDU has five bytes. -/
def MODBUS_TCP_MIN_READ_REQ_LENGTH : ℕ := 12

/-- Build a request with a function code, an address and a quantity. -/
def mbTcpBuildRequestBasis (tid : UInt16) (modbusUid : UInt8) (function addr : ℤ) (nb : UInt16)
    (reqCap : ℕ) : Built :=
  if reqCap < MODBUS_TCP_MIN_READ_REQ_LENGTH then ⟨-1, tid, []⟩
  else if function < 0 ∨ function > 255 ∨ addr < 0 ∨ addr > 65535 then ⟨-1, tid, []⟩
  else
    let tid := nextTid tid
    let mbapLen : UInt16 := 1 + 5
    ⟨0, tid,
      [(0, highByte tid), (1, lowByte tid), (2, 0), (3, 0), (4, highByte mbapLen),
        (5, lowByte mbapLen), (6, modbusUid), (7, .ofNat function.toNat),
        (8, .ofNat (addr.toNat >>> 8)), (9, .ofNat (addr.toNat &&& 0xFF)), (10, highByte nb),
        (11, lowByte nb)]⟩

/-- Build a FC06 (Write Single Register) ADU into `req`. -/
def mbTcpBuildFc06Request (tid : UInt16) (modbusUid : UInt8) (addr value : UInt16) (reqCap : ℕ) :
    Built :=
  if reqCap < MODBUS_TCP_MIN_READ_REQ_LENGTH then ⟨-1, tid, []⟩
  else
    let tid := nextTid tid
    ⟨0, tid,
      [(0, highByte tid), (1, lowByte tid), (2, 0), (3, 0), (4, 0),
        (5, MODBUS_TCP_MBAP_LEN_STANDARD_REQ), (6, modbusUid),
        (7, MODBUS_FUNC_WRITE_SINGLE_REGISTER), (8, highByte addr), (9, lowByte addr),
        (10, highByte value), (11, lowByte value)]⟩

/-! ### The client -/

def ADU_OFFSET_TID_HIGH : ℕ := 0
def ADU_OFFSET_TID_LOW : ℕ := 1
def ADU_OFFSET_PROTO_HIGH : ℕ := 2
def ADU_OFFSET_PROTO_LOW : ℕ := 3
def ADU_OFFSET_LEN_HIGH : ℕ := 4
def ADU_OFFSET_LEN_LOW : ℕ := 5
def ADU_OFFSET_UNIT_ID : ℕ := 6
def ADU_OFFSET_ADDR_LOW : ℕ := 9
def ADU_OFFSET_QTY_HIGH : ℕ := 10
def ADU_OFFSET_QTY_LOW : ℕ := 11
def ADU_OFFSET_FC16_BYTE_COUNT : ℕ := 12
def ADU_OFFSET_FC16_DATA_START : ℕ := 13

/-- The identifier of the next request, and the context with it. -/
def MbTcpClientCtx.nextTid (ctx : MbTcpClientCtx) : UInt16 × MbTcpClientCtx :=
  if ctx.tid < 65535 then (ctx.tid + 1, { ctx with tid := ctx.tid + 1 })
  else (1, { ctx with tid := 1 })

/-- The stores of a request of twelve bytes. -/
def buildStandardStores (fc : UInt8) (tid : UInt16) (unitId : UInt8) (addr arg : UInt16) :
    List (ℕ × UInt8) :=
  [(ADU_OFFSET_TID_HIGH, highByte tid), (ADU_OFFSET_TID_LOW, lowByte tid),
    (ADU_OFFSET_PROTO_HIGH, 0), (ADU_OFFSET_PROTO_LOW, 0), (ADU_OFFSET_LEN_HIGH, 0),
    (ADU_OFFSET_LEN_LOW, MODBUS_TCP_MBAP_LEN_STANDARD_REQ), (ADU_OFFSET_UNIT_ID, unitId),
    (ADU_OFFSET_FC, fc), (ADU_OFFSET_ADDR_HIGH, highByte addr),
    (ADU_OFFSET_ADDR_LOW, lowByte addr), (ADU_OFFSET_QTY_HIGH, highByte arg),
    (ADU_OFFSET_QTY_LOW, lowByte arg)]

/-- Write a FC03 (Read Holding Registers) request into `buf`. -/
def buildFc03Stores (tid : UInt16) (unitId : UInt8) (addr qty : UInt16) : List (ℕ × UInt8) :=
  buildStandardStores MODBUS_FUNC_READ_HOLDING_REGISTERS tid unitId addr qty

/-- Write a FC06 (Write Single Register) request into `buf`. -/
def buildFc06Stores (tid : UInt16) (unitId : UInt8) (addr value : UInt16) : List (ℕ × UInt8) :=
  buildStandardStores MODBUS_FUNC_WRITE_SINGLE_REGISTER tid unitId addr value

/-- Write a FC16 (Write Multiple Registers) request into `buf`: the stores, and the length
returned. -/
def buildFc16Stores (tid : UInt16) (unitId : UInt8) (addr qty : UInt16) (data : ℕ → UInt16) :
    List (ℕ × UInt8) × ℕ :=
  let byteCount := UInt8.ofNat (qty.toNat * 2)
  let mbapLen : UInt16 := 7 + byteCount.toUInt16
  ([(ADU_OFFSET_TID_HIGH, highByte tid), (ADU_OFFSET_TID_LOW, lowByte tid),
      (ADU_OFFSET_PROTO_HIGH, 0), (ADU_OFFSET_PROTO_LOW, 0),
      (ADU_OFFSET_LEN_HIGH, highByte mbapLen), (ADU_OFFSET_LEN_LOW, lowByte mbapLen),
      (ADU_OFFSET_UNIT_ID, unitId), (ADU_OFFSET_FC, MODBUS_FUNC_WRITE_MULTIPLE_REGISTERS),
      (ADU_OFFSET_ADDR_HIGH, highByte addr), (ADU_OFFSET_ADDR_LOW, lowByte addr),
      (ADU_OFFSET_QTY_HIGH, highByte qty), (ADU_OFFSET_QTY_LOW, lowByte qty),
      (ADU_OFFSET_FC16_BYTE_COUNT, byteCount)] ++
    (List.range qty.toNat).flatMap fun i =>
      let offset := ADU_OFFSET_FC16_DATA_START + i * 2
      [(offset, highByte (data i)), (offset + 1, lowByte (data i))],
    MODBUS_TCP_MBAP_HEADER_LEN + mbapLen.toNat)

/-! ### What is stored -/

theorem MbTcpClientCtx.nextTid_eq (ctx : MbTcpClientCtx) :
    ctx.nextTid = (Modbus.nextTid ctx.tid, { ctx with tid := Modbus.nextTid ctx.tid }) := by
  rw [MbTcpClientCtx.nextTid, Modbus.nextTid]
  split_ifs <;> rfl

variable {tid : UInt16} {uid : UInt8} {addr arg n : UInt16} {data : ℕ → UInt16} {reqCap : ℕ}

/-- The stores fill the buffer with the request of the client from its first byte on. -/
theorem buildStandardStores_eq (fc : UInt8) :
    buildStandardStores fc tid uid addr arg = block 0 (buildStandardRequest fc tid uid addr arg) :=
  rfl

theorem buildFc16Stores_eq :
    buildFc16Stores tid uid addr n data =
      (block 0 (buildFc16Request tid uid addr n data).1,
        (buildFc16Request tid uid addr n data).2) := by
  have hdata := registerStores_eq_block data n.toNat
  rw [buildFc16Stores, buildFc16Request]
  refine Prod.ext ?_ rfl
  exact congrArg (_ ++ ·) hdata

theorem ofNat_shiftRight_toNat (w : UInt16) : UInt8.ofNat (w.toNat >>> 8) = highByte w := by
  rw [← UInt8.toNat_inj, UInt8.toNat_ofNat', toNat_highByte, Nat.shiftRight_eq_div_pow]
  have := w.toNat_lt
  omega

theorem ofNat_and_toNat (w : UInt16) : UInt8.ofNat (w.toNat &&& 0xFF) = lowByte w := by
  rw [← UInt8.toNat_inj, UInt8.toNat_ofNat', toNat_lowByte, show 0xFF = 2 ^ 8 - 1 from rfl,
    Nat.and_two_pow_sub_one_eq_mod]
  omega

/-- The call with a function code and an address that are in range. -/
theorem mbTcpBuildRequestBasis_eq (fc : UInt8) :
    mbTcpBuildRequestBasis tid uid fc.toNat addr.toNat arg reqCap =
      if reqCap < MODBUS_TCP_MIN_READ_REQ_LENGTH then ⟨-1, tid, []⟩
      else ⟨0, nextTid tid, block 0 (buildStandardRequest fc (nextTid tid) uid addr arg)⟩ := by
  have hfc := fc.toNat_lt
  have haddr := addr.toNat_lt
  have hrange : ¬ ((fc.toNat : ℤ) < 0 ∨ (fc.toNat : ℤ) > 255 ∨ (addr.toNat : ℤ) < 0 ∨
      (addr.toNat : ℤ) > 65535) := by omega
  have hlen : highByte (1 + 5) = 0 ∧ lowByte (1 + 5) = MODBUS_TCP_MBAP_LEN_STANDARD_REQ := by decide
  rw [mbTcpBuildRequestBasis, if_neg hrange]
  simp only [Int.toNat_natCast, UInt8.ofNat_toNat, ofNat_shiftRight_toNat, ofNat_and_toNat, hlen]
  rfl

theorem mbTcpBuildRequestBasis_of_le (fc : UInt8) (hcap : 12 ≤ reqCap) :
    mbTcpBuildRequestBasis tid uid fc.toNat addr.toNat arg reqCap =
      ⟨0, nextTid tid, block 0 (buildStandardRequest fc (nextTid tid) uid addr arg)⟩ :=
  (mbTcpBuildRequestBasis_eq fc).trans (if_neg (Nat.not_lt.mpr hcap))

theorem mbTcpBuildFc06Request_eq :
    mbTcpBuildFc06Request tid uid addr arg reqCap =
      mbTcpBuildRequestBasis tid uid 6 addr.toNat arg reqCap :=
  (mbTcpBuildRequestBasis_eq MODBUS_FUNC_WRITE_SINGLE_REGISTER).symm

/-! ### Agreement -/

/-- **The encoders agree.** With enough room in its buffer, the codec stores the bytes that the
client stores, and the context has the identifier that the client's has. -/
theorem encoders_agree (ctx : MbTcpClientCtx) (addr qty value n : UInt16) (data : ℕ → UInt16)
    (hn : 0 < n.toNat ∧ n.toNat ≤ 123) {cap cap' : ℕ} (hcap : 12 ≤ cap)
    (hcap' : 13 + 2 * n.toNat ≤ cap') :
    let uid := ctx.cfg.unitId
    let (tid, ctx') := ctx.nextTid
    mbTcpBuildRequestBasis ctx.tid uid 3 addr.toNat qty cap =
        ⟨0, ctx'.tid, buildFc03Stores tid uid addr qty⟩ ∧
      mbTcpBuildFc06Request ctx.tid uid addr value cap =
        ⟨0, ctx'.tid, buildFc06Stores tid uid addr value⟩ ∧
      mbTcpBuildFc06Request ctx.tid uid addr value cap =
        mbTcpBuildRequestBasis ctx.tid uid 6 addr.toNat value cap ∧
      mbTcpBuildFc16Request ctx.tid uid addr n data cap' =
        ⟨(buildFc16Stores tid uid addr n data).2, ctx'.tid,
          (buildFc16Stores tid uid addr n data).1⟩ := by
  rw [ctx.nextTid_eq]
  dsimp only
  have hne : n ≠ 0 := by
    rintro rfl
    exact absurd hn.1 (by decide)
  have hcount : 2 * n.toNat % 256 = 2 * n.toNat := Nat.mod_eq_of_lt (by omega)
  refine ⟨?_, ?_, mbTcpBuildFc06Request_eq, ?_⟩
  · rw [buildFc03Stores, buildStandardStores_eq]
    exact mbTcpBuildRequestBasis_of_le MODBUS_FUNC_READ_HOLDING_REGISTERS hcap
  · rw [mbTcpBuildFc06Request_eq, buildFc06Stores, buildStandardStores_eq]
    exact mbTcpBuildRequestBasis_of_le MODBUS_FUNC_WRITE_SINGLE_REGISTER hcap
  · rw [mbTcpBuildFc16Request_of_le hne (by omega), buildFc16Stores_eq, buildFc16Request_snd]

/-- The identifier behind the last one is 1: a read, a write and a write of two registers. -/
theorem encoders_agree_wrap :
    mbTcpBuildRequestBasis 65535 1 3 30 2 12 = ⟨0, 1, buildFc03Stores 1 1 30 2⟩ ∧
      mbTcpBuildFc06Request 65535 1 30 9 12 = ⟨0, 1, buildFc06Stores 1 1 30 9⟩ ∧
      mbTcpBuildFc06Request 65535 1 30 9 12 = mbTcpBuildRequestBasis 65535 1 6 30 9 12 ∧
      mbTcpBuildFc16Request 65535 1 30 2 (fun i => .ofNat i) 17 =
        ⟨17, 1, (buildFc16Stores 1 1 30 2 fun i => .ofNat i).1⟩ :=
  encoders_agree ⟨3, 65535, ⟨"192.168.1.10", 502, 1⟩⟩ 30 2 9 2 (fun i => .ofNat i) (by decide)
    (Nat.le_refl 12) (by decide)

end LoopCharger.Modbus

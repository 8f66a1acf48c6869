import LoopCharger.Lib.Stores
import LoopCharger.Modbus.Connect

/-!
# The FC16 request of the codec

`mb_tcp_build_fc16_request` of `lib/modbus/modbus_tcp.c`, which fills a buffer of the caller with a
write of any number of registers. Whether the buffer is large enough is decided by the byte count of
the frame, which has eight bits, and the registers are stored by their number, which has sixteen.
The pointers are not `NULL`, and the values are a function of the index.

## Main definitions

* `mbTcpBuildFc16Request`: the function, with the stores that it makes into the buffer.
* `Fc16Frame`: what the bytes of a buffer say of the registers written.

## Main results

* `registerStores_eq_block`: the stores fill the buffer from its first byte on.
* `fc16_request_built_iff`: the calls that are refused, or carry all registers in the buffer.
-/

namespace LoopCharger.Modbus

open Lib

/-! ### The function -/

/-- What a builder does: its return code, the transaction identifier of the context behind the call,
and the stores into `req`. -/
structure Built where
  rc : ℤ
  tid : UInt16
  stores : List (ℕ × UInt8)

/-- Build a FC16 (Write Multiple Registers) ADU into `req`. -/
def mbTcpBuildFc16Request (tid : UInt16) (modbusUid : UInt8) (addr numRegisters : UInt16)
    (values : ℕ → UInt16) (reqCap : ℕ) : Built :=
  if numRegisters = 0 then ⟨-1, tid, []⟩
  else
    let byteCount := UInt8.ofNat (numRegisters.toNat * 2)
    let mbapLen : UInt16 := 7 + byteCount.toUInt16
    let totalLen := MODBUS_TCP_MBAP_HEADER_LEN + mbapLen.toNat
    if reqCap < totalLen then ⟨-1, tid, []⟩
    else
      let tid := nextTid tid
      ⟨totalLen, tid,
        [(0, highByte tid), (1, lowByte tid), (2, 0), (3, 0), (4, highByte mbapLen),
          (5, lowByte mbapLen), (6, modbusUid), (7, MODBUS_FUNC_WRITE_MULTIPLE_REGISTERS),
          (8, highByte addr), (9, lowByte addr), (10, highByte numRegisters),
          (11, lowByte numRegisters), (12, byteCount)] ++
        (List.range numRegisters.toNat).flatMap fun i =>
          let offset := 13 + i * 2
          [(offset, highByte (values i)), (offset + 1, lowByte (values i))]⟩

/-! ### The stores -/

/-- The loop over the registers stores their bytes one behind the other. -/
theorem registerStores_eq_block (values : ℕ → UInt16) (k : ℕ) :
    ((List.range k).flatMap fun i =>
        [(13 + i * 2, highByte (values i)), (13 + i * 2 + 1, lowByte (values i))]) =
      block 13 (wordBytes ((List.range k).map values)) := by
  induction k with
  | zero => rfl
  | succ k ih =>
    have hlen : (wordBytes ((List.range k).map values)).length = k * 2 := by
      rw [length_wordBytes, List.length_map, List.length_range, Nat.mul_comm]
    have hbytes : wordBytes ((List.range k).map values ++ [values k]) =
        wordBytes ((List.range k).map values) ++ [highByte (values k), lowByte (values k)] :=
      List.flatMap_append
    rw [List.range_succ, List.flatMap_append, ih, List.map_append, List.map_singleton, hbytes,
      block_append, hlen]
    rfl

variable {tid : UInt16} {uid : UInt8} {addr n : UInt16} {values : ℕ → UInt16} {reqCap : ℕ}

/-- A call that is not refused stores the frame of the client from the first byte of the buffer on,
and returns the length that the client takes for it. -/
theorem mbTcpBuildFc16Request_eq :
    mbTcpBuildFc16Request tid uid addr n values reqCap =
      if n = 0 ∨ reqCap < (buildFc16Request (nextTid tid) uid addr n values).2 then ⟨-1, tid, []⟩
      else
        ⟨(buildFc16Request (nextTid tid) uid addr n values).2, nextTid tid,
          block 0 (buildFc16Request (nextTid tid) uid addr n values).1⟩ := by
  simp only [mbTcpBuildFc16Request, registerStores_eq_block]
  by_cases hn : n = 0
  · rw [if_pos hn, if_pos (.inl hn)]
  · simp only [hn, false_or]
    rfl

theorem length_buildFc16Request :
    (buildFc16Request tid uid addr n values).1.length = 13 + 2 * n.toNat := by
  simp only [buildFc16Request, List.length_append, List.length_cons, List.length_nil,
    length_wordBytes, List.length_map, List.length_range, Nat.zero_add, Nat.reduceAdd]

/-- The length returned, by the number of registers. -/
theorem buildFc16Request_snd :
    (buildFc16Request tid uid addr n values).2 = 13 + 2 * n.toNat % 256 := by
  rw [buildFc16Request_length, UInt8.toNat_ofNat', Nat.mul_comm]

/-! ### The frame in the buffer -/

/-- What the MBAP length, the byte count and the data of a frame say of the `n` registers
written. -/
structure Fc16Frame (buf : ℕ → UInt8) (n : UInt16) (values : ℕ → UInt16) : Prop where
  /-- The unit, the function code, the address, the quantity and the byte count have seven
  bytes. -/
  mbap_length : (word (buf 4) (buf 5)).toNat = 7 + 2 * n.toNat
  byte_count : (buf 12).toNat = 2 * n.toNat
  data : ∀ i < n.toNat, word (buf (13 + 2 * i)) (buf (13 + 2 * i + 1)) = values i

/-- What the stores of a frame leave in the buffer is the frame. -/
theorem stored_buildFc16Request (req : ℕ → UInt8) {i : ℕ} (hi : i < 13 + 2 * n.toNat) :
    stored req (block 0 (buildFc16Request tid uid addr n values).1) i =
      (buildFc16Request tid uid addr n values).1.getD i 0 := by
  have hlen : i < (buildFc16Request tid uid addr n values).1.length := by
    rwa [length_buildFc16Request]
  have hstored := stored_block req 0 hlen
  rw [Nat.zero_add] at hstored
  rw [hstored, List.getD_eq_getElem?_getD, List.getElem?_eq_getElem hlen, Option.getD_some]

/-- The data of the frame. -/
theorem getD_buildFc16Request (i : ℕ) :
    (buildFc16Request tid uid addr n values).1.getD (13 + i) 0 =
      (wordBytes ((List.range n.toNat).map values)).getD i 0 := by
  have hle : 13 ≤ 13 + i := Nat.le_add_right 13 i
  rw [List.getD_eq_getElem?_getD, List.getD_eq_getElem?_getD, buildFc16Request,
    List.getElem?_append_right hle]
  exact congrArg (fun j => ((wordBytes _)[j]?).getD 0) (Nat.add_sub_cancel_left 13 i)

/-- The registers of the frame. -/
theorem word_getD_buildFc16Request {i : ℕ} (hi : i < n.toNat) :
    word ((buildFc16Request tid uid addr n values).1.getD (13 + 2 * i) 0)
      ((buildFc16Request tid uid addr n values).1.getD (13 + 2 * i + 1) 0) = values i := by
  have hword := word_getD_wordBytes ((List.range n.toNat).map values) (i := i) (by simpa using hi)
  rw [Nat.add_assoc 13, getD_buildFc16Request, getD_buildFc16Request, hword, List.getElem_map,
    List.getElem_range]

/-- The byte count holds twice the number of the registers. -/
theorem toNat_byteCount (hn : n.toNat ≤ 127) :
    (UInt8.ofNat (n.toNat * 2)).toNat = 2 * n.toNat := by
  rw [UInt8.toNat_ofNat']
  omega

theorem toNat_mbapLength_buildFc16Request (hn : n.toNat ≤ 127) :
    (mbapLength (buildFc16Request tid uid addr n values).1).toNat = 7 + 2 * n.toNat := by
  have hmbap : mbapLength (buildFc16Request tid uid addr n values).1 =
      7 + (UInt8.ofNat (n.toNat * 2)).toUInt16 := word_highByte_lowByte _
  rw [hmbap, UInt16.toNat_add, UInt8.toNat_toUInt16, toNat_byteCount hn]
  simp only [UInt16.reduceToNat]
  omega

/-- As long as the byte count holds twice the number of the registers, the frame carries them. -/
theorem fc16Frame_stored (hn : n.toNat ≤ 127) (req : ℕ → UInt8) :
    Fc16Frame (stored req (block 0 (buildFc16Request tid uid addr n values).1)) n values := by
  refine ⟨?_, ?_, fun i hi => ?_⟩
  · rw [stored_buildFc16Request req (by omega), stored_buildFc16Request req (by omega)]
    exact toNat_mbapLength_buildFc16Request hn
  · rw [stored_buildFc16Request req (by omega)]
    exact toNat_byteCount hn
  · rw [stored_buildFc16Request req (by omega), stored_buildFc16Request req (by omega)]
    exact word_getD_buildFc16Request hi

/-- And it is read back as a write of the registers. -/
theorem decodeWriteRequest_buildFc16Request (hn : n.toNat ≤ 127) :
    decodeWriteRequest (buildFc16Request tid uid addr n values).1 =
      some ⟨uid, addr, (List.range n.toNat).map values⟩ := by
  have hlen : (buildFc16Request tid uid addr n values).1.length =
      MODBUS_TCP_MBAP_HEADER_LEN +
        (mbapLength (buildFc16Request tid uid addr n values).1).toNat := by
    rw [length_buildFc16Request, toNat_mbapLength_buildFc16Request hn, MODBUS_TCP_MBAP_HEADER_LEN]
    omega
  have hlen' : (buildFc16Request tid uid addr n values).1.length = 13 + 2 * n.toNat :=
    length_buildFc16Request
  have hprotocol : word ((buildFc16Request tid uid addr n values).1.getD 2 0)
      ((buildFc16Request tid uid addr n values).1.getD 3 0) = 0 := by
    change word 0 0 = 0
    decide
  have hfc : (buildFc16Request tid uid addr n values).1.getD ADU_OFFSET_FC 0 =
      MODBUS_FUNC_WRITE_MULTIPLE_REGISTERS := rfl
  have haddr : word ((buildFc16Request tid uid addr n values).1.getD 8 0)
      ((buildFc16Request tid uid addr n values).1.getD 9 0) = addr := word_highByte_lowByte addr
  have hqty : word ((buildFc16Request tid uid addr n values).1.getD 10 0)
      ((buildFc16Request tid uid addr n values).1.getD 11 0) = n := word_highByte_lowByte n
  have hcount : ((buildFc16Request tid uid addr n values).1.getD 12 0).toNat = 2 * n.toNat :=
    toNat_byteCount hn
  have huid : (buildFc16Request tid uid addr n values).1.getD 6 0 = uid := rfl
  have hdata : (List.range n.toNat).map (fun i =>
      word ((buildFc16Request tid uid addr n values).1.getD (13 + 2 * i) 0)
        ((buildFc16Request tid uid addr n values).1.getD (13 + 2 * i + 1) 0)) =
      (List.range n.toNat).map values :=
    List.map_congr_left fun i hi => word_getD_buildFc16Request (List.mem_range.mp hi)
  generalize (buildFc16Request tid uid addr n values).1 = frame at *
  have hwrite : MODBUS_FUNC_WRITE_MULTIPLE_REGISTERS ≠ MODBUS_FUNC_WRITE_SINGLE_REGISTER := by
    decide
  simp only [decodeWriteRequest, hprotocol, ← hlen, ne_eq, not_true_eq_false, or_self, if_false,
    hfc, hwrite, if_true, hqty, hcount, hlen', and_self, huid, haddr, hdata]

/-! ### The calls that are refused, or carry all registers -/

theorem mbTcpBuildFc16Request_of_refused (h : n = 0 ∨ reqCap < 13 + 2 * n.toNat % 256) :
    mbTcpBuildFc16Request tid uid addr n values reqCap = ⟨-1, tid, []⟩ := by
  rw [mbTcpBuildFc16Request_eq, buildFc16Request_snd, if_pos h]

theorem mbTcpBuildFc16Request_of_le (hne : n ≠ 0) (hcap : 13 + 2 * n.toNat % 256 ≤ reqCap) :
    mbTcpBuildFc16Request tid uid addr n values reqCap =
      ⟨(13 + 2 * n.toNat % 256 : ℕ), nextTid tid,
        block 0 (buildFc16Request (nextTid tid) uid addr n values).1⟩ := by
  rw [mbTcpBuildFc16Request_eq, buildFc16Request_snd, if_neg]
  rw [not_or]
  exact ⟨hne, Nat.not_lt.mpr hcap⟩

theorem ne_zero_of_lt (hn : 127 < n.toNat) : n ≠ 0 := by
  rintro rfl
  exact absurd hn (by decide)

/-- A call whose buffer is filled: the stores lie in the `reqCap` bytes, the length returned is the
one of the frame, and the frame carries the registers. -/
structure Fc16Filled (r : Built) (reqCap : ℕ) (req : ℕ → UInt8) (n : UInt16)
    (values : ℕ → UInt16) : Prop where
  inside : ∀ s ∈ r.stores, s.1 < reqCap
  rc : r.rc = 13 + 2 * n.toNat
  frame : Fc16Frame (stored req r.stores) n values

/-- As long as the byte count holds twice the number of the registers, the capacity is checked with
the length of the frame. -/
theorem fc16Filled_of_le (hn : n.toNat ≤ 127) (hne : n ≠ 0) (hcap : 13 + 2 * n.toNat ≤ reqCap)
    (req : ℕ → UInt8) :
    Fc16Filled (mbTcpBuildFc16Request tid uid addr n values reqCap) reqCap req n values := by
  have hlen : 2 * n.toNat % 256 = 2 * n.toNat := Nat.mod_eq_of_lt (by omega)
  rw [mbTcpBuildFc16Request_of_le hne (by omega)]
  refine ⟨fun s hs => ?_, ?_, fc16Frame_stored hn req⟩
  · have := (mem_block_index hs).2
    rw [length_buildFc16Request] at this
    omega
  · rw [hlen]
    exact Int.natCast_add 13 (2 * n.toNat)

/-- **Calls that are refused, or carry all registers.** The byte count of the frame holds twice the
number of the registers, or the capacity is below the length that is taken from it. -/
theorem fc16_request_built_iff (tid : UInt16) (uid : UInt8) (addr n : UInt16)
    (values : ℕ → UInt16) (req : ℕ → UInt8) (reqCap : ℕ) :
    (((mbTcpBuildFc16Request tid uid addr n values reqCap).rc = -1 ∧
          (mbTcpBuildFc16Request tid uid addr n values reqCap).stores = []) ∨
        Fc16Filled (mbTcpBuildFc16Request tid uid addr n values reqCap) reqCap req n values) ↔
      n.toNat ≤ 127 ∨ reqCap < 13 + 2 * n.toNat % 256 := by
  constructor
  · intro h
    by_contra hnot
    rw [not_or, Nat.not_le, Nat.not_lt] at hnot
    -- the length returned is below the one of the frame
    rw [mbTcpBuildFc16Request_of_le (ne_zero_of_lt hnot.1) hnot.2] at h
    rcases h with ⟨hrefused, -⟩ | hfilled
    · dsimp only at hrefused
      omega
    · have := hfilled.rc
      dsimp only at this
      omega
  · intro h
    by_cases hrefused : n = 0 ∨ reqCap < 13 + 2 * n.toNat % 256
    · rw [mbTcpBuildFc16Request_of_refused hrefused]
      exact .inl ⟨rfl, rfl⟩
    · rw [not_or, Nat.not_lt] at hrefused
      have hn : n.toNat ≤ 127 := h.resolve_right (Nat.not_lt.mpr hrefused.2)
      exact .inr (fc16Filled_of_le hn hrefused.1 (by omega) req)

/-- A write of 128 registers, into a buffer with room for all of them, is returned as one of
none. -/
theorem not_fc16_request_built :
    ¬ ∀ (tid : UInt16) (uid : UInt8) (addr n : UInt16) (values : ℕ → UInt16) (req : ℕ → UInt8)
      (reqCap : ℕ),
      ((mbTcpBuildFc16Request tid uid addr n values reqCap).rc = -1 ∧
          (mbTcpBuildFc16Request tid uid addr n values reqCap).stores = []) ∨
        Fc16Filled (mbTcpBuildFc16Request tid uid addr n values reqCap) reqCap req n values := by
  intro h
  have hrc : (mbTcpBuildFc16Request 0 1 0 128 (fun _ => 7) 269).rc = 13 := by
    rw [mbTcpBuildFc16Request_of_le (by decide) (by decide)]
    rfl
  rcases h 0 1 0 128 (fun _ => 7) (fun _ => 0) 269 with ⟨hrefused, -⟩ | hfilled
  · exact absurd (hrefused.symm.trans hrc) (by decide)
  · exact absurd (hfilled.rc.symm.trans hrc) (by decide)

end LoopCharger.Modbus

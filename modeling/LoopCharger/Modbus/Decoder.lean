import LoopCharger.Lib.Reading
import LoopCharger.Modbus.Encoders
import LoopCharger.Modbus.Peer

/-!
# The decoder of requests

`mb_tcp_parse_request` of `lib/modbus/modbus_tcp.c`, with the bytes that it reads and what it stores
through its three pointers, which are not `NULL`.

## Main definitions

* `ParseOut`, `mbTcpParseRequestInto`: the values behind the pointers, and the function.
* `RequestsRoundTrip`: what is decoded of the frames of the builders.
* `ParsesExactly`: what is accepted and read, and what stays as it was.

## Main results

* `mbTcpParseRequestInto_spec`: the result of the function, and what it reads.
* `mbTcpParseRequest_exact`: both hold.
-/

namespace LoopCharger.Modbus

open Lib

/-! ### The function -/

/-- The values behind the pointers of the caller. -/
structure ParseOut where
  functionCode : UInt8
  address : UInt16
  quantity : UInt16
  deriving DecidableEq

def MODBUS_TCP_MBAP_PREFIX_LEN : ℕ := MODBUS_TCP_MBAP_HEADER_LEN

/-- Decode the request in a buffer of `length` bytes: the return code, and the values behind the
pointers after it. -/
def mbTcpParseRequestInto (length : ℕ) (out : ParseOut) : Reading UInt8 (ℤ × ParseOut) :=
  if length < MODBUS_TCP_MBAP_PREFIX_LEN then return (-1, out)
  else do
    let mbapLen := word (← .get 4) (← .get 5)
    if mbapLen < 6 then return (-1, out)
    else if mbapLen > .ofNat (MODBUS_TCP_MAX_ADU_LENGTH - MODBUS_TCP_MBAP_PREFIX_LEN) then
      return (-1, out)
    else if length < MODBUS_TCP_MBAP_PREFIX_LEN + mbapLen.toNat then return (-1, out)
    else
      let out := { out with functionCode := ← .get 7 }
      let out := { out with address := word (← .get 8) (← .get 9) }
      if out.functionCode = MODBUS_FUNC_WRITE_SINGLE_REGISTER then
        return (0, { out with quantity := 1 })
      else return (0, { out with quantity := word (← .get 10) (← .get 11) })

/-- The length field. -/
def mbapField (request : ℕ → UInt8) : ℕ := (word (request 4) (request 5)).toNat

/-- The requests that are accepted. -/
def Accepted (request : ℕ → UInt8) (length : ℕ) : Prop :=
  6 ≤ length ∧ 6 ≤ mbapField request ∧ mbapField request ≤ 254 ∧ 6 + mbapField request ≤ length

instance (request : ℕ → UInt8) (length : ℕ) : Decidable (Accepted request length) :=
  inferInstanceAs (Decidable (_ ∧ _))

theorem lt_six_iff (w : UInt16) : w < 6 ↔ w.toNat < 6 := UInt16.lt_iff_toNat_lt

/-- **The result of the function**, and what it reads. -/
theorem mbTcpParseRequestInto_spec (request : ℕ → UInt8) (length : ℕ) (out : ParseOut) :
    (mbTcpParseRequestInto length out).run request =
        (if Accepted request length then
          (0, ⟨request 7, word (request 8) (request 9),
            if request 7 = MODBUS_FUNC_WRITE_SINGLE_REGISTER then 1
            else word (request 10) (request 11)⟩)
        else (-1, out)) ∧
      (mbTcpParseRequestInto length out).reads request =
        if length < 6 then []
        else if Accepted request length then
          if request 7 = MODBUS_FUNC_WRITE_SINGLE_REGISTER then [4, 5, 7, 8, 9]
          else [4, 5, 7, 8, 9, 10, 11]
        else [4, 5] := by
  have hmax : ∀ w : UInt16, w > .ofNat (MODBUS_TCP_MAX_ADU_LENGTH - 6) ↔ 254 < w.toNat :=
    fun w => UInt16.lt_iff_toNat_lt
  have hprefix : MODBUS_TCP_MBAP_PREFIX_LEN = 6 := rfl
  simp only [mbTcpParseRequestInto, lt_six_iff, hmax, hprefix]
  by_cases hshort : length < 6
  · have hnot : ¬ Accepted request length := fun h => absurd h.1 (Nat.not_le.mpr hshort)
    simp only [hshort, hnot, if_true, if_false, Reading.run_pure, Reading.reads_pure, and_self]
  simp only [hshort, if_false, Reading.run_bind, Reading.reads_bind, Reading.run_get,
    Reading.reads_get]
  by_cases hlow : (word (request 4) (request 5)).toNat < 6
  · have hnot : ¬ Accepted request length := fun h => absurd h.2.1 (Nat.not_le.mpr hlow)
    simp [hlow, hnot]
  by_cases hhigh : 254 < (word (request 4) (request 5)).toNat
  · have hnot : ¬ Accepted request length := fun h => absurd h.2.2.1 (Nat.not_le.mpr hhigh)
    simp [hlow, hhigh, hnot]
  by_cases hpart : length < 6 + (word (request 4) (request 5)).toNat
  · have hnot : ¬ Accepted request length := fun h => absurd h.2.2.2 (Nat.not_le.mpr hpart)
    simp [hlow, hhigh, hpart, hnot]
  have hacc : Accepted request length :=
    ⟨Nat.not_lt.mp hshort, Nat.not_lt.mp hlow, Nat.not_lt.mp hhigh, Nat.not_lt.mp hpart⟩
  by_cases hfc : request 7 = MODBUS_FUNC_WRITE_SINGLE_REGISTER
  · simp [hlow, hhigh, hpart, hacc, hfc]
  · simp [hlow, hhigh, hpart, hacc, hfc]

/-- A buffer that begins with a frame is decoded as the frame is. -/
theorem run_of_beginsWith {request : ℕ → UInt8} {frame : Bytes} (h : BeginsWith request frame)
    (out : ParseOut) :
    (mbTcpParseRequestInto frame.length out).run request =
      match mbTcpParseRequest frame with
      | none => (-1, out)
      | some (functionCode, address, quantity) => (0, ⟨functionCode, address, quantity⟩) := by
  have hget : ∀ i < frame.length, frame.getD i 0 = request i := by
    intro i hi
    rw [h i hi, List.getD_eq_getElem?_getD, List.getElem?_eq_getElem hi, Option.getD_some]
  have hmax : MODBUS_TCP_MAX_ADU_LENGTH - MODBUS_TCP_MBAP_HEADER_LEN = 254 := rfl
  rw [(mbTcpParseRequestInto_spec request frame.length out).1, mbTcpParseRequest]
  by_cases hshort : frame.length < MODBUS_TCP_MBAP_HEADER_LEN
  · rw [if_pos hshort, if_neg fun hacc => absurd hacc.1 (Nat.not_le.mpr hshort)]
  have hlen : 6 ≤ frame.length := Nat.not_lt.mp hshort
  have hfield : mbapLength frame = word (request 4) (request 5) := by
    rw [mbapLength, hget 4 (by omega), hget 5 (by omega)]
  by_cases hacc : Accepted request frame.length
  · have hlow : ¬ (word (request 4) (request 5)).toNat < 6 := Nat.not_lt.mpr hacc.2.1
    have hhigh : ¬ (word (request 4) (request 5)).toNat > 254 := Nat.not_lt.mpr hacc.2.2.1
    have hpart : ¬ frame.length < MODBUS_TCP_MBAP_HEADER_LEN +
        (word (request 4) (request 5)).toNat :=
      Nat.not_lt.mpr hacc.2.2.2
    simp only [if_pos hacc, hshort, hfield, lt_six_iff, hmax, hlow, hhigh, if_false]
    have htwelve : 12 ≤ frame.length := by
      have hfit : 6 + (word (request 4) (request 5)).toNat ≤ frame.length := hacc.2.2.2
      omega
    rw [if_neg hpart]
    simp only [hget 7 (by omega), hget 8 (by omega), hget 9 (by omega), hget 10 (by omega),
      hget 11 (by omega)]
  · simp only [if_neg hacc, hshort, hfield, lt_six_iff, hmax, if_false]
    by_cases hlow : (word (request 4) (request 5)).toNat < 6
    · rw [if_pos hlow]
    by_cases hhigh : (word (request 4) (request 5)).toNat > 254
    · rw [if_neg hlow, if_pos hhigh]
    have hpart : frame.length < MODBUS_TCP_MBAP_HEADER_LEN +
        (word (request 4) (request 5)).toNat := by
      by_contra hnot
      exact hacc ⟨hlen, Nat.not_lt.mp hlow, Nat.not_lt.mp hhigh, Nat.not_lt.mp hnot⟩
    rw [if_neg hlow, if_neg hhigh, if_pos hpart]

/-! ### The frames of the builders -/

variable {tid : UInt16} {uid : UInt8} {addr arg n : UInt16} {values : ℕ → UInt16}

theorem mbTcpParseRequest_buildStandardRequest (fc : UInt8) :
    mbTcpParseRequest (buildStandardRequest fc tid uid addr arg) =
      some (fc, addr, if fc = MODBUS_FUNC_WRITE_SINGLE_REGISTER then 1 else arg) := by
  have hlen : (buildStandardRequest fc tid uid addr arg).length = 12 := rfl
  have hmbap : mbapLength (buildStandardRequest fc tid uid addr arg) = 6 :=
    show word 0 6 = 6 by decide
  have hfc : (buildStandardRequest fc tid uid addr arg).getD 7 0 = fc := rfl
  have haddr : word ((buildStandardRequest fc tid uid addr arg).getD 8 0)
      ((buildStandardRequest fc tid uid addr arg).getD 9 0) = addr := word_highByte_lowByte addr
  have harg : word ((buildStandardRequest fc tid uid addr arg).getD 10 0)
      ((buildStandardRequest fc tid uid addr arg).getD 11 0) = arg := word_highByte_lowByte arg
  simp only [mbTcpParseRequest, hlen, hmbap, hfc, haddr, harg]
  rfl

theorem mbTcpParseRequest_buildFc16Request (hn : n.toNat ≤ 123) :
    mbTcpParseRequest (buildFc16Request tid uid addr n values).1 =
      some (MODBUS_FUNC_WRITE_MULTIPLE_REGISTERS, addr, n) := by
  have hmbap : (mbapLength (buildFc16Request tid uid addr n values).1).toNat = 7 + 2 * n.toNat :=
    toNat_mbapLength_buildFc16Request (by omega)
  have hlen : (buildFc16Request tid uid addr n values).1.length = 13 + 2 * n.toNat :=
    length_buildFc16Request
  have hfc : (buildFc16Request tid uid addr n values).1.getD 7 0 =
      MODBUS_FUNC_WRITE_MULTIPLE_REGISTERS := rfl
  have haddr : word ((buildFc16Request tid uid addr n values).1.getD 8 0)
      ((buildFc16Request tid uid addr n values).1.getD 9 0) = addr := word_highByte_lowByte addr
  have hqty : word ((buildFc16Request tid uid addr n values).1.getD 10 0)
      ((buildFc16Request tid uid addr n values).1.getD 11 0) = n := word_highByte_lowByte n
  have hmax : MODBUS_TCP_MAX_ADU_LENGTH - 6 = 254 := rfl
  have hprefix : MODBUS_TCP_MBAP_HEADER_LEN = 6 := rfl
  have hwrite : MODBUS_FUNC_WRITE_MULTIPLE_REGISTERS ≠ MODBUS_FUNC_WRITE_SINGLE_REGISTER := by
    decide
  have hshort : ¬ 13 + 2 * n.toNat < 6 := by omega
  have hlow : ¬ 7 + 2 * n.toNat < 6 := by omega
  have hhigh : ¬ 7 + 2 * n.toNat > 254 := by omega
  have hpart : ¬ 13 + 2 * n.toNat < 6 + (7 + 2 * n.toNat) := by omega
  simp only [mbTcpParseRequest, hlen, lt_six_iff, hmax, hmbap, hprefix, hshort, hlow, hhigh, hpart,
    hfc, hwrite, haddr, hqty, if_false]

/-- What is decoded of the frames that the builders leave in a buffer `req`. -/
structure RequestsRoundTrip (tid : UInt16) (uid : UInt8) : Prop where
  basis (fc : UInt8) (addr nb : UInt16) (reqCap : ℕ) (req : ℕ → UInt8) (out : ParseOut) :
    12 ≤ reqCap →
      let b := mbTcpBuildRequestBasis tid uid fc.toNat addr.toNat nb reqCap
      b.rc = 0 ∧ (mbTcpParseRequestInto 12 out).run (stored req b.stores) =
        (0, ⟨fc, addr, if fc = 6 then 1 else nb⟩)
  fc06 (addr value : UInt16) (reqCap : ℕ) (req : ℕ → UInt8) (out : ParseOut) :
    12 ≤ reqCap →
      let b := mbTcpBuildFc06Request tid uid addr value reqCap
      b.rc = 0 ∧ (mbTcpParseRequestInto 12 out).run (stored req b.stores) = (0, ⟨6, addr, 1⟩)
  fc16 (addr n : UInt16) (values : ℕ → UInt16) (reqCap : ℕ) (req : ℕ → UInt8) (out : ParseOut) :
    0 < n.toNat → n.toNat ≤ 123 → 13 + 2 * n.toNat ≤ reqCap →
      let b := mbTcpBuildFc16Request tid uid addr n values reqCap
      0 < b.rc ∧ (mbTcpParseRequestInto b.rc.toNat out).run (stored req b.stores) =
        (0, ⟨16, addr, n⟩)

/-- A frame that was stored at the beginning of a buffer. -/
theorem run_stored_block (req : ℕ → UInt8) {frame : Bytes} {functionCode : UInt8}
    {address quantity : UInt16}
    (hframe : mbTcpParseRequest frame = some (functionCode, address, quantity)) (out : ParseOut) :
    (mbTcpParseRequestInto frame.length out).run (stored req (block 0 frame)) =
      (0, ⟨functionCode, address, quantity⟩) := by
  have hrun := run_of_beginsWith ((BeginsWith.nil req).stored_block frame) out
  rw [List.nil_append, hframe] at hrun
  exact hrun

theorem requestsRoundTrip (tid : UInt16) (uid : UInt8) : RequestsRoundTrip tid uid where
  basis fc addr nb reqCap req out hcap := by
    rw [mbTcpBuildRequestBasis_of_le fc hcap]
    exact ⟨rfl, run_stored_block req (mbTcpParseRequest_buildStandardRequest fc) out⟩
  fc06 addr value reqCap req out hcap := by
    rw [mbTcpBuildFc06Request_eq]
    rw [show (6 : ℤ) = (MODBUS_FUNC_WRITE_SINGLE_REGISTER.toNat : ℤ) from rfl,
      mbTcpBuildRequestBasis_of_le _ hcap]
    exact ⟨rfl, run_stored_block req (mbTcpParseRequest_buildStandardRequest _) out⟩
  fc16 addr n values reqCap req out hpos hn hcap := by
    have hne : n ≠ 0 := by
      rintro rfl
      exact absurd hpos (by decide)
    have hcount : 2 * n.toNat % 256 = 2 * n.toNat := Nat.mod_eq_of_lt (by omega)
    rw [mbTcpBuildFc16Request_of_le hne (by omega)]
    dsimp only
    have hlen : 13 + 2 * n.toNat = (buildFc16Request (nextTid tid) uid addr n values).1.length :=
      length_buildFc16Request.symm
    rw [hcount, Int.toNat_natCast, hlen]
    refine ⟨?_, run_stored_block req (mbTcpParseRequest_buildFc16Request hn) out⟩
    rw [length_buildFc16Request]
    omega

/-- What is accepted and read, and what stays as it was. -/
structure ParsesExactly (request : ℕ → UInt8) (length : ℕ) (out : ParseOut) : Prop where
  accepts : ((mbTcpParseRequestInto length out).run request).1 = 0 ↔ Accepted request length
  reads : ∀ i ∈ (mbTcpParseRequestInto length out).reads request, i < 6 + mbapField request
  unchanged : ((mbTcpParseRequestInto length out).run request).1 ≠ 0 →
    ((mbTcpParseRequestInto length out).run request).2 = out

theorem parsesExactly (request : ℕ → UInt8) (length : ℕ) (out : ParseOut) :
    ParsesExactly request length out := by
  obtain ⟨hrun, hreads⟩ := mbTcpParseRequestInto_spec request length out
  refine ⟨?_, ?_, ?_⟩
  · rw [hrun]
    split_ifs with hacc <;> simp [hacc]
  · rw [hreads]
    intro i hi
    split_ifs at hi with hshort hacc hfc
    · exact absurd hi List.not_mem_nil
    · have hfield := hacc.2.1
      simp only [List.mem_cons, List.not_mem_nil, or_false] at hi
      omega
    · have hfield := hacc.2.1
      simp only [List.mem_cons, List.not_mem_nil, or_false] at hi
      omega
    · simp only [List.mem_cons, List.not_mem_nil, or_false] at hi
      omega
  · rw [hrun]
    split_ifs with hacc <;> simp

/-- **The decoder.** -/
theorem mbTcpParseRequest_exact (tid : UInt16) (uid : UInt8) (request : ℕ → UInt8) (length : ℕ)
    (out : ParseOut) : RequestsRoundTrip tid uid ∧ ParsesExactly request length out :=
  ⟨requestsRoundTrip tid uid, parsesExactly request length out⟩

end LoopCharger.Modbus

import Mathlib.Data.Nat.Find
import LoopCharger.Modbus.Client

/-!
# How the stream is cut

The bytes of a peer arrive in parts, as the network likes. `recv_response` collects them over its
two loops and cuts the stream where the length fields in it say, wherever the parts end.

## Main definitions

* `ByteStream`: the bytes that a peer sends, finitely or infinitely many.
* `Chunked`: a transport over which the bytes of a stream arrive in non-empty parts.
* `ByteStream.cut`, `ByteStream.cuts`: where the length fields cut the stream.
* `recvResponses`: successive calls of `recv_response`.
* `CutAt`: what a call does at a place of the stream.

## Main results

* `recvExact_chunked`: `recv_exact` takes the next bytes of the stream.
* `outcomes_eq_cuts`: successive calls cut the stream as its length fields say.
* `stream_cut`: they do so for every two ways in which the bytes arrive.
-/

namespace LoopCharger.Modbus

open Lib

/-! ### Streams -/

/-- The bytes that a peer sends; `len` is their number, `none` when there is no end. -/
structure ByteStream where
  byte : ℕ → UInt8
  len : Option ℕ

namespace ByteStream

variable (s : ByteStream)

/-- The stream has `p` bytes. -/
def Has (p : ℕ) : Prop := ∀ n ∈ s.len, p ≤ n

instance (p : ℕ) : Decidable (s.Has p) := inferInstanceAs (Decidable (∀ n ∈ s.len, p ≤ n))

/-- The `k` bytes from the place `p` on. -/
def part (p k : ℕ) : Bytes := (List.range k).map fun i => s.byte (p + i)

/-- The end of the stream. -/
def ending : ℕ := s.len.getD 0

/-- The length field of a header at the place `p`. -/
def lengthField (p : ℕ) : ℕ := (s.byte (p + 4)).toNat * 256 + (s.byte (p + 5)).toNat

/-- The response at the place `p`, if there is one, and the place where the next one is looked
for. -/
def cut (p : ℕ) : Option Bytes × ℕ :=
  if s.Has (p + 6) then
    if s.lengthField p = 0 ∨ 254 < s.lengthField p then (none, p + 6)
    else if s.Has (p + 6 + s.lengthField p) then
      (some (s.part p (6 + s.lengthField p)), p + 6 + s.lengthField p)
    else (none, s.ending)
  else (none, s.ending)

/-- The first `n` cuts from the place `p` on. -/
def cuts : ℕ → ℕ → List (Option Bytes × ℕ)
  | _, 0 => []
  | p, n + 1 => s.cut p :: cuts (s.cut p).2 n

variable {s} {p q : ℕ}

theorem Has.mono (h : s.Has q) (hpq : p ≤ q) : s.Has p := fun n hn => Nat.le_trans hpq (h n hn)

/-- The last place of a stream is its end. -/
theorem eq_ending (h : s.Has p) (hlast : ¬ s.Has (p + 1)) : p = s.ending := by
  rcases hlen : s.len with _ | n
  · exact absurd (fun n hn => by rw [hlen] at hn; cases hn) hlast
  · have hle : p ≤ n := h n hlen
    have hlt : ¬ p + 1 ≤ n := fun hlt => hlast fun m hm => by
      rw [hlen] at hm
      exact Option.some.inj hm ▸ hlt
    rw [ending, hlen, Option.getD_some]
    omega

@[simp] theorem length_part (p k : ℕ) : (s.part p k).length = k := by
  rw [part, List.length_map, List.length_range]

@[simp] theorem part_zero (p : ℕ) : s.part p 0 = [] := rfl

theorem part_add (p k l : ℕ) : s.part p (k + l) = s.part p k ++ s.part (p + k) l := by
  simp only [part, List.range_add, List.map_append, List.map_map, Function.comp_def,
    Nat.add_assoc]

/-- The length field, read from the header. -/
theorem toNat_mbapLength_part (p : ℕ) : (mbapLength (s.part p 6)).toNat = s.lengthField p := by
  rw [mbapLength, toNat_word]
  rfl

end ByteStream

/-! ### Arrival in parts -/

variable {σ τ : Type*}

/-- A transport over which the bytes of a stream arrive, in non-empty parts of any length, and on
which nothing arrives behind the end of the stream; `pos` is the number of bytes received. -/
structure Chunked (T : Transport σ) (s : ByteStream) where
  pos : σ → ℕ
  has_pos : ∀ net, s.Has (pos net)
  recv : ∀ net n, 0 < n → s.Has (pos net + 1) → ∃ k, 0 < k ∧
    (T.recv net n).1 = .received (s.part (pos net) k) ∧ pos (T.recv net n).2 = pos net + k
  ended : ∀ net n, 0 < n → ¬ s.Has (pos net + 1) →
    (T.recv net n).1.bytes = [] ∧ pos (T.recv net n).2 = pos net

variable {T : Transport σ} {T' : Transport τ} {s : ByteStream}

/-- A `recv` that gives nothing stands at the end of the stream. -/
theorem Chunked.not_has_of_nil (h : Chunked T s) {net : σ} {n : ℕ} (hn : 0 < n)
    (hnil : (T.recv net n).1.bytes = []) :
    ¬ s.Has (h.pos net + n) ∧ h.pos (T.recv net n).2 = s.ending := by
  have hend : ¬ s.Has (h.pos net + 1) := by
    intro hhas
    obtain ⟨k, hk, hrecv, -⟩ := h.recv net n hn hhas
    rw [hrecv, RecvResult.bytes_received] at hnil
    have hlen := congrArg List.length hnil
    rw [ByteStream.length_part, List.length_nil] at hlen
    exact absurd hlen (Nat.ne_of_gt hk)
  exact ⟨fun hhas => hend (hhas.mono (Nat.add_le_add_left hn _)),
    (h.ended net n hn hend).2.trans (ByteStream.eq_ending (h.has_pos net) hend)⟩

/-- **`recv_exact` takes the next bytes of the stream**, if it has so many, and otherwise comes to
its end. -/
theorem recvExact_chunked (h : Chunked T s) (c : Conn σ) (len : ℕ) :
    (s.Has (h.pos c.net + len) → (recvExact T c len).1 = ⟨0, s.part (h.pos c.net) len⟩ ∧
        h.pos (recvExact T c len).2.net = h.pos c.net + len) ∧
      (¬ s.Has (h.pos c.net + len) → (recvExact T c len).1.rc ≠ 0 ∧
        h.pos (recvExact T c len).2.net = s.ending) := by
  refine recvExact_rec (T := T) (P := fun c len r =>
    (s.Has (h.pos c.net + len) → r.1 = ⟨0, s.part (h.pos c.net) len⟩ ∧
      h.pos r.2.net = h.pos c.net + len) ∧
    (¬ s.Has (h.pos c.net + len) → r.1.rc ≠ 0 ∧ h.pos r.2.net = s.ending)) ?_ ?_ ?_ ?_ c len
  · exact fun c => ⟨fun _ => ⟨rfl, rfl⟩, fun hnot => absurd (h.has_pos c.net) hnot⟩
  · rintro c len bs net r hlen hrecv hbs ⟨hall, hend⟩
    have hhas : s.Has (h.pos c.net + 1) := by
      by_contra hnot
      have hnil := (h.ended c.net len hlen hnot).1
      rw [hrecv, RecvResult.bytes_received] at hnil
      exact hbs hnil
    obtain ⟨k, -, hpart, hpos⟩ := h.recv c.net len hlen hhas
    have hle := T.length_recv_le c.net len
    rw [hrecv] at hpart hpos hle
    obtain rfl := RecvResult.received.inj hpart
    rw [RecvResult.bytes_received, ByteStream.length_part] at hle
    rw [hpos, ByteStream.length_part, Nat.add_assoc, Nat.add_sub_cancel' hle] at hall hend
    refine ⟨fun hlast => ?_, hend⟩
    obtain ⟨hr, hpos'⟩ := hall hlast
    refine ⟨?_, hpos'⟩
    rw [hr, ← ByteStream.part_add, Nat.add_sub_cancel' hle]
  · intro c len net hlen hrecv
    obtain ⟨hnot, hpos⟩ := h.not_has_of_nil hlen (congrArg (fun r => r.1.bytes) hrecv)
    rw [hrecv] at hpos
    exact ⟨fun hhas => absurd hhas hnot, fun _ => ⟨recvFailure_ne_zero _, hpos⟩⟩
  · intro c len e net hlen hrecv
    obtain ⟨hnot, hpos⟩ := h.not_has_of_nil hlen (congrArg (fun r => r.1.bytes) hrecv)
    rw [hrecv] at hpos
    exact ⟨fun hhas => absurd hhas hnot, fun _ => ⟨recvFailure_ne_zero _, hpos⟩⟩

/-- A response is received where the length fields cut it off. -/
theorem recvFrame_chunked (h : Chunked T s) (c : Conn σ) :
    ((recvFrame T c MODBUS_TCP_MAX_ADU_LENGTH).1.toOption,
      h.pos (recvFrame T c MODBUS_TCP_MAX_ADU_LENGTH).2.net) = s.cut (h.pos c.net) := by
  obtain ⟨hall, hend⟩ := recvExact_chunked h c 6
  have hsix : MODBUS_TCP_MBAP_HEADER_LEN = 6 := rfl
  have hroom : MODBUS_TCP_MAX_ADU_LENGTH - 6 = 254 := rfl
  simp only [recvFrame, hsix, hroom, ByteStream.cut]
  generalize recvExact T c 6 = head at hall hend ⊢
  by_cases hhas : s.Has (h.pos c.net + 6)
  case neg =>
    obtain ⟨hrc, hpos⟩ := hend hhas
    rw [if_pos hrc, if_neg hhas, hpos]
    rfl
  obtain ⟨hhead, hpos⟩ := hall hhas
  have hfield := ByteStream.toNat_mbapLength_part (s := s) (h.pos c.net)
  have hzero : mbapLength (s.part (h.pos c.net) 6) = 0 ↔ s.lengthField (h.pos c.net) = 0 := by
    rw [← hfield, ← UInt16.toNat_inj, UInt16.toNat_zero]
  rw [if_pos hhas]
  simp only [hhead, ne_eq, not_true_eq_false, if_false, hzero, hfield, gt_iff_lt]
  by_cases hbad : s.lengthField (h.pos c.net) = 0 ∨ 254 < s.lengthField (h.pos c.net)
  case pos =>
    rw [if_pos hbad, if_pos hbad, hpos]
    rfl
  rw [if_neg hbad, if_neg hbad]
  obtain ⟨hall', hend'⟩ := recvExact_chunked h head.2 (s.lengthField (h.pos c.net))
  rw [hpos] at hall' hend'
  by_cases hhas' : s.Has (h.pos c.net + 6 + s.lengthField (h.pos c.net))
  · obtain ⟨hbody, hpos'⟩ := hall' hhas'
    rw [if_pos hhas', ByteStream.part_add]
    simp only [hbody, not_true_eq_false, if_false, hpos']
    rfl
  · obtain ⟨hrc, hpos'⟩ := hend' hhas'
    rw [if_neg hhas', if_pos hrc, hpos']
    rfl

/-! ### The buffer -/

/-- Nothing is stored behind the end of the buffer, whatever the network does. -/
theorem length_buf_recvResponse (T : Transport σ) (c : Conn σ) {buf : Bytes} {cap : ℕ}
    (hcap : MODBUS_TCP_MBAP_HEADER_LEN ≤ cap) (hbuf : buf.length = cap) :
    (recvResponse T c buf cap).1.buf.length = cap := by
  have hhead := (recvExact_length T c MODBUS_TCP_MBAP_HEADER_LEN).1
  simp only [recvResponse]
  generalize recvExact T c MODBUS_TCP_MBAP_HEADER_LEN = head at hhead ⊢
  have hstore : (storeAt buf 0 head.1.bytes).length = cap :=
    (length_storeAt (by omega)).trans hbuf
  by_cases hrc : head.1.rc = 0
  case neg => rw [if_pos hrc, hstore]
  rw [if_neg (not_not_intro hrc)]
  split_ifs with hbad hrc'
  · exact hstore
  all_goals
    have hbody := (recvExact_length T head.2
      (mbapLength (storeAt buf 0 head.1.bytes)).toNat).1
    rw [not_or, Nat.not_lt] at hbad
    exact (length_storeAt (by omega)).trans hstore

/-! ### Successive calls -/

/-- A call of `recv_response`, with the connection before and after it. -/
structure RecvCall (σ : Type*) where
  before : Conn σ
  buf : ResponseBuffer
  response : Response
  after : Conn σ

/-- The call on a connection. -/
def recvCall (T : Transport σ) (c : Conn σ) (buf : ResponseBuffer) : RecvCall σ :=
  let r := recvResponse T c buf.toList MODBUS_TCP_MAX_ADU_LENGTH
  ⟨c, buf, r.1, r.2⟩

/-- Successive calls, one for each buffer. -/
def recvResponses (T : Transport σ) : Conn σ → List ResponseBuffer → List (RecvCall σ)
  | _, [] => []
  | c, buf :: bufs => recvCall T c buf :: recvResponses T (recvCall T c buf).after bufs

/-- The response that a call stores, if it succeeds. -/
def Response.stored (r : Response) : Option Bytes :=
  if r.rc = 0 then some (r.buf.take r.totalLen) else none

/-- The response that a call stores, and the number of bytes received up to its end. -/
def RecvCall.outcome (h : Chunked T s) (call : RecvCall σ) : Option Bytes × ℕ :=
  (call.response.stored, h.pos call.after.net)

/-- What `recv_response` stores is what `recvFrame` receives. -/
theorem stored_recvResponse (T : Transport σ) (c : Conn σ) (buf : Bytes) (cap : ℕ) :
    (recvResponse T c buf cap).1.stored = (recvFrame T c cap).1.toOption := by
  have heq := (recvResponse_eq T c buf cap).2
  cases hframe : (recvFrame T c cap).1 with
  | ok f =>
    rw [hframe] at heq
    dsimp only at heq
    rw [heq, Response.stored, if_pos rfl, storeAt_zero, List.take_left]
    rfl
  | error rc =>
    rw [hframe] at heq
    obtain ⟨hrc, hne⟩ := heq
    rw [Response.stored, hrc, if_neg hne]
    rfl

theorem outcome_recvCall (h : Chunked T s) (c : Conn σ) (buf : ResponseBuffer) :
    (recvCall T c buf).outcome h = s.cut (h.pos c.net) := by
  rw [← recvFrame_chunked h c, RecvCall.outcome, recvCall, stored_recvResponse,
    (recvResponse_eq T c buf.toList MODBUS_TCP_MAX_ADU_LENGTH).1]

/-- **Successive calls cut the stream as its length fields say.** -/
theorem outcomes_eq_cuts (h : Chunked T s) (c : Conn σ) (bufs : List ResponseBuffer) :
    (recvResponses T c bufs).map (RecvCall.outcome h) = s.cuts (h.pos c.net) bufs.length := by
  induction bufs generalizing c with
  | nil => rfl
  | cons buf bufs ih =>
    have hcut := outcome_recvCall h c buf
    rw [recvResponses, List.map_cons, ih, hcut, List.length_cons, ByteStream.cuts, ← hcut]
    rfl

/-- What a call with the buffer `buf` does at the place `p`, from which it comes to `p'`. -/
structure CutAt (s : ByteStream) (p : ℕ) (buf : Bytes) (r : Response) (p' : ℕ) : Prop where
  success : r.rc = 0 → 1 ≤ s.lengthField p ∧ s.lengthField p ≤ 254 ∧
    s.Has (p + 6 + s.lengthField p) ∧ p' = p + 6 + s.lengthField p ∧
    r.totalLen = 6 + s.lengthField p ∧
    r.buf = s.part p (6 + s.lengthField p) ++ buf.drop (6 + s.lengthField p)
  complete : s.Has (p + 6 + s.lengthField p) → 1 ≤ s.lengthField p → s.lengthField p ≤ 254 →
    r.rc = 0
  malformed : s.Has (p + 6) → s.lengthField p = 0 ∨ 254 < s.lengthField p →
    r.rc ≠ 0 ∧ p' = p + 6
  room : r.buf.length = MODBUS_TCP_MAX_ADU_LENGTH

/-- A response at a place is one that the length field cuts off there. -/
theorem ByteStream.cut_eq_some {p q : ℕ} {f : Bytes} (h : s.cut p = (some f, q)) :
    1 ≤ s.lengthField p ∧ s.lengthField p ≤ 254 ∧ s.Has (p + 6 + s.lengthField p) ∧
      q = p + 6 + s.lengthField p ∧ f = s.part p (6 + s.lengthField p) := by
  rw [ByteStream.cut] at h
  split_ifs at h with hhas hbad hall
  · cases h
  · obtain ⟨hf, rfl⟩ := Prod.mk.inj h
    exact ⟨by omega, by omega, hall, rfl, (Option.some.inj hf).symm⟩
  · cases h
  · cases h

theorem ByteStream.cut_of_has {p : ℕ} (h : s.Has (p + 6 + s.lengthField p))
    (hpos : 1 ≤ s.lengthField p) (hle : s.lengthField p ≤ 254) :
    s.cut p = (some (s.part p (6 + s.lengthField p)), p + 6 + s.lengthField p) := by
  have hok : ¬ (s.lengthField p = 0 ∨ 254 < s.lengthField p) := by omega
  rw [ByteStream.cut, if_pos (h.mono (Nat.le_add_right _ _)), if_neg hok, if_pos h]

theorem ByteStream.cut_of_malformed {p : ℕ} (h : s.Has (p + 6))
    (hbad : s.lengthField p = 0 ∨ 254 < s.lengthField p) : s.cut p = (none, p + 6) := by
  rw [ByteStream.cut, if_pos h, if_pos hbad]

theorem Response.stored_eq_none_iff {r : Response} : r.stored = none ↔ r.rc ≠ 0 := by
  rw [Response.stored]
  split_ifs with hrc <;> simp [hrc]

/-- **What a call does.** -/
theorem cutAt_recvCall (h : Chunked T s) (c : Conn σ) (buf : ResponseBuffer) :
    CutAt s (h.pos c.net) buf.toList (recvCall T c buf).response
      (h.pos (recvCall T c buf).after.net) := by
  have hcut := outcome_recvCall h c buf
  rw [RecvCall.outcome] at hcut
  refine ⟨fun hrc => ?_, fun hhas hpos hle => ?_, fun hhas hbad => ?_, ?_⟩
  · have hframe := (recvResponse_eq T c buf.toList MODBUS_TCP_MAX_ADU_LENGTH).2
    cases hf : (recvFrame T c MODBUS_TCP_MAX_ADU_LENGTH).1 with
    | error rc =>
      rw [hf] at hframe
      exact absurd (hframe.1.symm.trans hrc) hframe.2
    | ok f =>
      rw [hf] at hframe
      have hresponse : (recvCall T c buf).response = ⟨0, storeAt buf.toList 0 f, f.length⟩ :=
        hframe
      rw [hresponse, Response.stored, if_pos rfl, storeAt_zero, List.take_left] at hcut
      obtain ⟨hone, hle, hhas, hpos, rfl⟩ := ByteStream.cut_eq_some hcut.symm
      rw [hresponse, storeAt_zero, ByteStream.length_part]
      exact ⟨hone, hle, hhas, hpos, rfl, rfl⟩
  · rw [ByteStream.cut_of_has hhas hpos hle] at hcut
    by_contra hrc
    have hnone := Response.stored_eq_none_iff.mpr hrc
    exact Option.some_ne_none _ ((Prod.mk.inj hcut).1.symm.trans hnone)
  · rw [ByteStream.cut_of_malformed hhas hbad] at hcut
    obtain ⟨hnone, hpos⟩ := Prod.mk.inj hcut
    exact ⟨Response.stored_eq_none_iff.mp hnone, hpos⟩
  · exact length_buf_recvResponse T c (by decide) (by simp)

theorem exists_recvCall_of_mem {c : Conn σ} {bufs : List ResponseBuffer} {call : RecvCall σ}
    (h : call ∈ recvResponses T c bufs) : ∃ c buf, call = recvCall T c buf := by
  induction bufs generalizing c with
  | nil => cases h
  | cons buf bufs ih =>
    rcases List.mem_cons.mp h with rfl | h
    · exact ⟨c, buf, rfl⟩
    · exact ih h

/-! ### Sockets that cut the stream -/

/-- A socket on which the `j`-th `recv` gives at most `size j` bytes, but one at least. -/
def chunkTransport (s : ByteStream) (size : ℕ → ℕ) : Transport ({p // s.Has p} × ℕ) where
  recv net n :=
    let k := Nat.findGreatest (fun k => s.Has (net.1 + k)) (min n (max 1 (size net.2)))
    (.received (s.part net.1 k),
      ⟨net.1 + k, Nat.findGreatest_spec (P := fun k => s.Has (net.1 + k)) (Nat.zero_le _)
        net.1.2⟩, net.2 + 1)
  send net frame := (.sent frame.length, net)
  length_recv_le net n := by
    rw [RecvResult.bytes_received, ByteStream.length_part]
    exact Nat.le_trans (Nat.findGreatest_le _) (Nat.min_le_left _ _)

/-- Whatever the sizes are, the bytes arrive in non-empty parts. -/
def chunked (s : ByteStream) (size : ℕ → ℕ) : Chunked (chunkTransport s size) s where
  pos net := net.1
  has_pos net := net.1.2
  recv net n hn hhas :=
    ⟨_, Nat.le_findGreatest (P := fun k => s.Has (net.1 + k)) (by omega) hhas, rfl, rfl⟩
  ended net n hn hnot := by
    have hzero : Nat.findGreatest (fun k => s.Has (net.1 + k)) (min n (max 1 (size net.2))) = 0 :=
      Nat.findGreatest_eq_zero_iff.mpr fun k hk _ hhas =>
        hnot (hhas.mono (Nat.add_le_add_left hk _))
    simp only [chunkTransport, hzero, ByteStream.part_zero, RecvResult.bytes_received,
      Nat.add_zero, and_self]

/-- The socket before anything is received. -/
def unread (s : ByteStream) : Conn ({p // s.Has p} × ℕ) :=
  ⟨.other 0, ⟨0, fun n _ => Nat.zero_le n⟩, 0⟩

/-! ### The way the bytes arrive -/

/-- **The stream is cut in one way**, for every two ways in which its bytes arrive: at the length
fields, with no byte of the next response taken, and none stored outside the buffer. -/
theorem stream_cut (h : Chunked T s) (h' : Chunked T' s) {c : Conn σ} {c' : Conn τ}
    (hpos : h.pos c.net = h'.pos c'.net) {bufs bufs' : List ResponseBuffer}
    (hlen : bufs.length = bufs'.length) :
    (recvResponses T c bufs).map (RecvCall.outcome h) =
        (recvResponses T' c' bufs').map (RecvCall.outcome h') ∧
      ∀ call ∈ recvResponses T c bufs, CutAt s (h.pos call.before.net) call.buf.toList
        call.response (h.pos call.after.net) := by
  refine ⟨?_, fun call hcall => ?_⟩
  · rw [outcomes_eq_cuts, outcomes_eq_cuts, hpos, hlen]
  · obtain ⟨c, buf, rfl⟩ := exists_recvCall_of_mem hcall
    exact cutAt_recvCall h c buf

/-- Two responses and a bad header, byte by byte and all at once. -/
theorem stream_cut_bytewise :
    let bytes : Bytes :=
      [0, 1, 0, 0, 0, 3, 1, 0x83, 2, 0, 2, 0, 0, 0, 3, 1, 0x83, 2, 0, 3, 0, 0, 0, 0]
    let s : ByteStream := ⟨fun i => bytes.getD i 0, some bytes.length⟩
    let bufs : List ResponseBuffer := List.replicate 3 (Vector.replicate 260 0)
    (recvResponses (chunkTransport s fun _ => 1) (unread s) bufs).map
        (RecvCall.outcome (chunked s fun _ => 1)) =
      (recvResponses (chunkTransport s fun _ => 300) (unread s) bufs).map
        (RecvCall.outcome (chunked s fun _ => 300)) :=
  (stream_cut (chunked _ fun _ => 1) (chunked _ fun _ => 300) rfl rfl).1

end LoopCharger.Modbus

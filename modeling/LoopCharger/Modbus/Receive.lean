import Mathlib.Data.Nat.Basic
import Mathlib.Tactic.SplitIfs
import LoopCharger.Modbus.Defines
import LoopCharger.Modbus.Transport

/-!
# Receiving a response

`recv_exact` and `recv_response` of `lib/modbus/modbus_tcp_client.c`. The first collects a number
of bytes over any number of calls of `recv`; the second cuts one response from the stream by the
length field of its header and stores it in a buffer of its caller.

## Main definitions

* `recvExact`, `recvResponse`: the functions of the code.
* `recvFrame`: the response that `recvResponse` stores, without the buffer it stores it in.
* `IsFrame`: the byte strings that the length field in their own header delimits.
* `Feeds`: a transport that gives the bytes that are ready, in non-empty parts.

## Main results

* `recvExact_rec`: the induction rule for `recvExact`, one case for each outcome of a `recv`.
* `recvResponse_eq`: `recvResponse` stores what `recvFrame` receives at the front of the buffer.
* `recvFrame_reads`: what is received are the next bytes of the stream, and they are a frame.
* `IsFrame.eq_of_append_eq`: a stream starts with at most one frame.
* `recvFrame_of_feeds`: a frame that is ready is received.
-/

namespace LoopCharger.Modbus

open Lib

variable {σ : Type*}

/-! ### Exactly `len` bytes -/

/-- The return code of `recv_exact` and the bytes it stored. -/
structure Received where
  rc : ℤ
  bytes : Bytes
  deriving DecidableEq, Repr

/-- The return code of a failed `recv_exact`. -/
def recvFailure (errno : Errno) : ℤ := if errno.isTimeout then -2 else -1

theorem recvFailure_ne_zero (errno : Errno) : recvFailure errno ≠ 0 := by
  unfold recvFailure
  split <;> decide

/-- The loop of `recv_exact` with `len` bytes to go, in at most `fuel` calls of `recv`. A call
that returns no bytes is tested by `errno`, whether or not the call has set it. -/
def recvLoop (T : Transport σ) : ℕ → Conn σ → ℕ → Received × Conn σ
  | _, c, 0 => (⟨0, []⟩, c)
  | 0, c, _ + 1 => (⟨0, []⟩, c)
  | fuel + 1, c, len + 1 =>
    match T.recv c.net (len + 1) with
    | (.received [], net) => (⟨recvFailure c.errno, []⟩, ⟨c.errno, net⟩)
    | (.received (b :: bs), net) =>
      let r := recvLoop T fuel ⟨c.errno, net⟩ (len + 1 - (b :: bs).length)
      (⟨r.1.rc, b :: bs ++ r.1.bytes⟩, r.2)
    | (.error e, net) => (⟨recvFailure e, []⟩, ⟨e, net⟩)

/-- Receive exactly `len` bytes: `0` on success, `-1` on an error or a closed connection, `-2` on
a timeout. Every call that lets the loop go on stores a byte, so `len` calls are enough. -/
def recvExact (T : Transport σ) (c : Conn σ) (len : ℕ) : Received × Conn σ :=
  recvLoop T len c len

/-- The loop never runs out of calls. -/
theorem recvLoop_eq_recvExact (T : Transport σ) {fuel len : ℕ} (h : len ≤ fuel) (c : Conn σ) :
    recvLoop T fuel c len = recvExact T c len := by
  unfold recvExact
  induction len using Nat.strong_induction_on generalizing fuel c with
  | _ len ih =>
    cases len with
    | zero => cases fuel <;> rfl
    | succ len =>
      obtain ⟨fuel, rfl⟩ : ∃ k, fuel = k + 1 := ⟨fuel - 1, by omega⟩
      simp only [recvLoop]
      rcases T.recv c.net (len + 1) with ⟨_ | e, net⟩
      case error => rfl
      case received bs =>
        cases bs with
        | nil => rfl
        | cons b bs =>
          have hlt : len + 1 - (b :: bs).length < len + 1 := by simp only [List.length_cons]; omega
          have hle : len + 1 - (b :: bs).length ≤ len := Nat.le_of_lt_succ hlt
          simp only [ih _ hlt (Nat.le_trans hle (Nat.le_of_succ_le_succ h)), ih _ hlt hle]

/-- **Induction on the calls of `recv_exact`**: nothing is left to receive, some bytes came and
the loop goes on, the peer has closed the connection, or the call failed. -/
theorem recvExact_rec {T : Transport σ} {P : Conn σ → ℕ → Received × Conn σ → Prop}
    (done : ∀ c, P c 0 (⟨0, []⟩, c))
    (more : ∀ c len bs net r, 0 < len → T.recv c.net len = (.received bs, net) → bs ≠ [] →
      P ⟨c.errno, net⟩ (len - bs.length) r → P c len (⟨r.1.rc, bs ++ r.1.bytes⟩, r.2))
    (closed : ∀ c len net, 0 < len → T.recv c.net len = (.received [], net) →
      P c len (⟨recvFailure c.errno, []⟩, ⟨c.errno, net⟩))
    (error : ∀ c len e net, 0 < len → T.recv c.net len = (.error e, net) →
      P c len (⟨recvFailure e, []⟩, ⟨e, net⟩))
    (c : Conn σ) (len : ℕ) : P c len (recvExact T c len) := by
  induction len using Nat.strong_induction_on generalizing c with
  | _ len ih =>
    cases len with
    | zero => exact done c
    | succ len =>
      simp only [recvExact, recvLoop]
      rcases hrecv : T.recv c.net (len + 1) with ⟨_ | e, net⟩
      case error => exact error c _ e net len.succ_pos hrecv
      case received bs =>
        cases bs with
        | nil => exact closed c _ net len.succ_pos hrecv
        | cons b bs =>
          have hlt : len + 1 - (b :: bs).length < len + 1 := by simp only [List.length_cons]; omega
          simp only [recvLoop_eq_recvExact T (Nat.le_of_lt_succ hlt)]
          exact more c _ _ net _ len.succ_pos hrecv (List.cons_ne_nil b bs) (ih _ hlt _)

/-- The bytes stored are the ones taken from the network, whether or not the call succeeds. -/
theorem recvExact_reads (T : Transport σ) (c : Conn σ) (len : ℕ) :
    T.Reads c.net (recvExact T c len).1.bytes (recvExact T c len).2.net := by
  refine recvExact_rec (P := fun c _ r => T.Reads c.net r.1.bytes r.2.net) ?_ ?_ ?_ ?_ c len
  · exact fun c => .refl c.net
  · intro c len bs net r _ hrecv _ ih
    have hstep := Transport.Reads.single T c.net len
    rw [hrecv] at hstep
    exact hstep.trans ih
  · intro c len net _ hrecv
    have hstep := Transport.Reads.single T c.net len
    rwa [hrecv] at hstep
  · intro c len e net _ hrecv
    have hstep := Transport.Reads.single T c.net len
    rwa [hrecv] at hstep

/-- The call succeeds exactly when it stored all the bytes; it never stores more. -/
theorem recvExact_length (T : Transport σ) (c : Conn σ) (len : ℕ) :
    (recvExact T c len).1.bytes.length ≤ len ∧
      ((recvExact T c len).1.rc = 0 ↔ (recvExact T c len).1.bytes.length = len) := by
  refine recvExact_rec (T := T)
    (P := fun _ len r => r.1.bytes.length ≤ len ∧ (r.1.rc = 0 ↔ r.1.bytes.length = len))
    ?_ ?_ ?_ ?_ c len
  · exact fun c => ⟨Nat.le_refl 0, by simp⟩
  · rintro c len bs net r hlen hrecv - ⟨hle, hiff⟩
    have hbs : bs.length ≤ len := by
      simpa only [hrecv, RecvResult.bytes_received] using T.length_recv_le c.net len
    refine ⟨by simp only [List.length_append]; omega, hiff.trans ?_⟩
    simp only [List.length_append]
    omega
  · intro c len net hlen _
    exact ⟨Nat.zero_le len, by simp [recvFailure_ne_zero, Nat.ne_of_lt hlen]⟩
  · intro c len e net hlen _
    exact ⟨Nat.zero_le len, by simp [recvFailure_ne_zero, Nat.ne_of_lt hlen]⟩

/-! ### One response -/

/-- The return code of `recv_response`, the buffer after it, and the length of the response. -/
structure Response where
  rc : ℤ
  buf : Bytes
  totalLen : ℕ
  deriving DecidableEq, Repr

/-- The MBAP length field. -/
def mbapLength (buf : Bytes) : UInt16 := word (buf.getD 4 0) (buf.getD 5 0)

/-- Receive one response into the buffer `buf` of `bufCap` bytes: `0`, `-1` on an error or a length
field out of range, or `-2` on a timeout. -/
def recvResponse (T : Transport σ) (c : Conn σ) (buf : Bytes) (bufCap : ℕ) :
    Response × Conn σ :=
  let head := recvExact T c MODBUS_TCP_MBAP_HEADER_LEN
  let buf := storeAt buf 0 head.1.bytes
  if head.1.rc ≠ 0 then (⟨head.1.rc, buf, 0⟩, head.2)
  else
    let mbapRemaining := mbapLength buf
    if mbapRemaining = 0 ∨ mbapRemaining.toNat > bufCap - MODBUS_TCP_MBAP_HEADER_LEN then
      (⟨-1, buf, 0⟩, head.2)
    else
      let body := recvExact T head.2 mbapRemaining.toNat
      let buf := storeAt buf MODBUS_TCP_MBAP_HEADER_LEN body.1.bytes
      if body.1.rc ≠ 0 then (⟨body.1.rc, buf, 0⟩, body.2)
      else (⟨0, buf, MODBUS_TCP_MBAP_HEADER_LEN + mbapRemaining.toNat⟩, body.2)

/-- What `recvResponse` receives: the bytes of the response, or its return code. -/
def recvFrame (T : Transport σ) (c : Conn σ) (bufCap : ℕ) : Except ℤ Bytes × Conn σ :=
  let head := recvExact T c MODBUS_TCP_MBAP_HEADER_LEN
  if head.1.rc ≠ 0 then (.error head.1.rc, head.2)
  else
    let mbapRemaining := mbapLength head.1.bytes
    if mbapRemaining = 0 ∨ mbapRemaining.toNat > bufCap - MODBUS_TCP_MBAP_HEADER_LEN then
      (.error (-1), head.2)
    else
      let body := recvExact T head.2 mbapRemaining.toNat
      if body.1.rc ≠ 0 then (.error body.1.rc, body.2)
      else (.ok (head.1.bytes ++ body.1.bytes), body.2)

/-- A byte string that ends where the length field in its header says, and that a buffer of `cap`
bytes has room for. -/
structure IsFrame (cap : ℕ) (f : Bytes) : Prop where
  length_eq : f.length = MODBUS_TCP_MBAP_HEADER_LEN + (mbapLength f).toNat
  mbapLength_ne : mbapLength f ≠ 0
  mbapLength_le : (mbapLength f).toNat ≤ cap - MODBUS_TCP_MBAP_HEADER_LEN

theorem IsFrame.lt_length {cap : ℕ} {f : Bytes} (h : IsFrame cap f) : 6 < f.length := by
  have hne : (mbapLength f).toNat ≠ 0 := fun h0 => h.mbapLength_ne (UInt16.toNat_inj.mp h0)
  have hlen : f.length = 6 + (mbapLength f).toNat := h.length_eq
  omega

/-- The length field is in the first six bytes. -/
theorem mbapLength_append {f : Bytes} (h : 6 ≤ f.length) (rest : Bytes) :
    mbapLength (f ++ rest) = mbapLength f := by
  simp only [mbapLength, List.getD_eq_getElem?_getD,
    List.getElem?_append_left (show 4 < f.length by omega),
    List.getElem?_append_left (show 5 < f.length by omega)]

/-- A stream starts with at most one frame. -/
theorem IsFrame.eq_of_append_eq {cap : ℕ} {f g rest rest' : Bytes} (hf : IsFrame cap f)
    (hg : IsFrame cap g) (h : f ++ rest = g ++ rest') : f = g ∧ rest = rest' := by
  have hlen : mbapLength f = mbapLength g := by
    rw [← mbapLength_append (Nat.le_of_lt hf.lt_length) rest, h,
      mbapLength_append (Nat.le_of_lt hg.lt_length)]
  exact List.append_inj h (by rw [hf.length_eq, hg.length_eq, hlen])

/-- The header stored at the front of a buffer is read back from it. -/
theorem mbapLength_storeAt {head : Bytes} (h : head.length = MODBUS_TCP_MBAP_HEADER_LEN)
    (buf : Bytes) : mbapLength (storeAt buf 0 head) = mbapLength head := by
  rw [storeAt_zero, mbapLength_append (Nat.le_of_eq h.symm)]

/-- **`recvResponse` is `recvFrame` with a buffer.** It moves the connection in the same way, it
fails with the same code, and what it receives it stores at the front of the buffer. -/
theorem recvResponse_eq (T : Transport σ) (c : Conn σ) (buf : Bytes) (cap : ℕ) :
    (recvResponse T c buf cap).2 = (recvFrame T c cap).2 ∧
      match (recvFrame T c cap).1 with
      | .ok frame => (recvResponse T c buf cap).1 = ⟨0, storeAt buf 0 frame, frame.length⟩
      | .error rc => (recvResponse T c buf cap).1.rc = rc ∧ rc ≠ 0 := by
  have hhead := (recvExact_length T c MODBUS_TCP_MBAP_HEADER_LEN).2
  simp only [recvResponse, recvFrame]
  generalize recvExact T c MODBUS_TCP_MBAP_HEADER_LEN = r at hhead ⊢
  obtain ⟨⟨rc, head⟩, c₁⟩ := r
  dsimp only at hhead ⊢
  by_cases hrc : rc = 0
  case neg => simp only [ne_eq, hrc, not_false_eq_true, if_true, and_self]
  have hlen := hhead.mp hrc
  simp only [ne_eq, hrc, not_true_eq_false, if_false, mbapLength_storeAt hlen]
  by_cases hbad : mbapLength head = 0 ∨
      (mbapLength head).toNat > cap - MODBUS_TCP_MBAP_HEADER_LEN
  case pos => simp only [if_pos hbad]; decide
  simp only [if_neg hbad]
  have hbody := (recvExact_length T c₁ (mbapLength head).toNat).2
  generalize recvExact T c₁ (mbapLength head).toNat = r at hbody ⊢
  obtain ⟨⟨rc', body⟩, c₂⟩ := r
  dsimp only at hbody ⊢
  by_cases hrc' : rc' = 0
  case neg => simp only [hrc', not_false_eq_true, if_true, and_self]
  have hstore := storeAt_storeAt buf head body
  rw [hlen] at hstore
  simp only [hrc', not_true_eq_false, if_false, hstore, List.length_append, hlen, hbody.mp hrc',
    and_self]

/-- What is received are the next bytes of the network. -/
theorem recvFrame_reads {T : Transport σ} {c c' : Conn σ} {cap : ℕ} {frame : Bytes}
    (h : recvFrame T c cap = (.ok frame, c')) :
    T.Reads c.net frame c'.net ∧ IsFrame cap frame := by
  have hhead := (recvExact_length T c MODBUS_TCP_MBAP_HEADER_LEN).2
  have hreads := recvExact_reads T c MODBUS_TCP_MBAP_HEADER_LEN
  simp only [recvFrame] at h
  generalize recvExact T c MODBUS_TCP_MBAP_HEADER_LEN = r at hhead hreads h
  obtain ⟨⟨rc, head⟩, c₁⟩ := r
  dsimp only at hhead hreads h
  split_ifs at h with hrc hbad hrc' <;> simp only [Prod.mk.injEq, reduceCtorEq, false_and] at h
  obtain ⟨hframe, rfl⟩ := h
  obtain rfl := Except.ok.inj hframe
  have hlen := hhead.mp (not_not.mp hrc)
  have hmbap := mbapLength_append (Nat.le_of_eq hlen.symm)
  refine ⟨hreads.trans (recvExact_reads T c₁ _), ⟨?_, ?_, ?_⟩⟩
  · rw [hmbap, List.length_append, hlen,
      (recvExact_length T c₁ (mbapLength head).toNat).2.mp (not_not.mp hrc')]
  · rw [hmbap]
    exact fun hzero => hbad (.inl hzero)
  · rw [hmbap]
    exact Nat.le_of_not_gt fun hgt => hbad (.inr hgt)

/-- Whatever comes of it, the connection is moved by calls of `recv` only. -/
theorem exists_reads_recvFrame (T : Transport σ) (c : Conn σ) (cap : ℕ) :
    ∃ bs, T.Reads c.net bs (recvFrame T c cap).2.net := by
  have hhead := recvExact_reads T c MODBUS_TCP_MBAP_HEADER_LEN
  simp only [recvFrame]
  split_ifs
  · exact ⟨_, hhead⟩
  · exact ⟨_, hhead⟩
  · exact ⟨_, hhead.trans (recvExact_reads T _ _)⟩
  · exact ⟨_, hhead.trans (recvExact_reads T _ _)⟩

/-- A response is received when its header and as many bytes as the header says are. -/
theorem recvFrame_of_recvExact {T : Transport σ} {c c₁ c₂ : Conn σ} {cap : ℕ} {head body : Bytes}
    (hhead : recvExact T c MODBUS_TCP_MBAP_HEADER_LEN = (⟨0, head⟩, c₁))
    (hne : mbapLength head ≠ 0)
    (hle : (mbapLength head).toNat ≤ cap - MODBUS_TCP_MBAP_HEADER_LEN)
    (hbody : recvExact T c₁ (mbapLength head).toNat = (⟨0, body⟩, c₂)) :
    recvFrame T c cap = (.ok (head ++ body), c₂) := by
  have hok : ¬ (mbapLength head = 0 ∨
      (mbapLength head).toNat > cap - MODBUS_TCP_MBAP_HEADER_LEN) := by
    rintro (hzero | hgt)
    · exact hne hzero
    · exact absurd hle (Nat.not_le.mpr hgt)
  simp only [recvFrame, hhead, hok, hbody, ne_eq, not_true_eq_false, if_false]

/-! ### Bytes that are ready -/

section Feeds

variable {T : Transport σ} {P : σ → Bytes → Prop}

/-- In a state with `P s bs` the bytes `bs` are ready: a `recv` gives the first of them. -/
def Feeds (T : Transport σ) (P : σ → Bytes → Prop) : Prop :=
  ∀ s bs n, P s bs → 0 < n → bs ≠ [] → ∃ cs rest s', T.recv s n = (.received cs, s') ∧ cs ≠ [] ∧
    cs.length ≤ n ∧ bs = cs ++ rest ∧ P s' rest

/-- A `recv_exact` of bytes that are ready succeeds. -/
theorem recvExact_of_feeds (hT : Feeds T P) (c : Conn σ) (len : ℕ) (bs rest : Bytes)
    (hlen : bs.length = len) (h : P c.net (bs ++ rest)) :
    ∃ net, recvExact T c len = (⟨0, bs⟩, ⟨c.errno, net⟩) ∧ P net rest := by
  refine recvExact_rec (T := T) (P := fun c len r => ∀ bs : Bytes, bs.length = len →
    P c.net (bs ++ rest) → ∃ net, r = (⟨0, bs⟩, ⟨c.errno, net⟩) ∧ P net rest) ?_ ?_ ?_ ?_
    c len bs hlen h
  · intro c bs hlen h
    obtain rfl := List.length_eq_zero_iff.mp hlen
    exact ⟨c.net, rfl, h⟩
  · intro c len cs net r hpos hrecv hcs ih bs hlen h
    have hne : bs ++ rest ≠ [] := List.append_ne_nil_of_left_ne_nil
      (List.ne_nil_of_length_pos (hlen ▸ hpos)) rest
    obtain ⟨cs', rest', s, hrecv', -, hle, heq, hready⟩ := hT _ _ _ h hpos hne
    obtain ⟨rfl, rfl⟩ : cs' = cs ∧ s = net := by simpa using hrecv'.symm.trans hrecv
    obtain ⟨ds, rfl⟩ : ∃ ds, bs = cs' ++ ds := by
      obtain ⟨ds, hds⟩ := List.prefix_of_prefix_length_le (List.prefix_append cs' rest')
        (heq ▸ List.prefix_append bs rest) (hlen ▸ hle)
      exact ⟨ds, hds.symm⟩
    rw [List.append_assoc] at heq
    obtain rfl := List.append_cancel_left heq
    obtain ⟨net', hr, hready'⟩ := ih ds (by rw [← hlen, List.length_append]; omega) hready
    exact ⟨net', by rw [hr], hready'⟩
  · intro c len net hpos hrecv bs hlen h
    have hne : bs ++ rest ≠ [] := List.append_ne_nil_of_left_ne_nil
      (List.ne_nil_of_length_pos (hlen ▸ hpos)) rest
    obtain ⟨cs, rest', s, hrecv', hcs, -⟩ := hT _ _ _ h hpos hne
    cases hrecv'.symm.trans hrecv
    exact absurd rfl hcs
  · intro c len e net hpos hrecv bs hlen h
    have hne : bs ++ rest ≠ [] := List.append_ne_nil_of_left_ne_nil
      (List.ne_nil_of_length_pos (hlen ▸ hpos)) rest
    obtain ⟨cs, rest', s, hrecv', -⟩ := hT _ _ _ h hpos hne
    cases hrecv'.symm.trans hrecv

/-- **A frame that is ready is received**, and what is behind it stays. -/
theorem recvFrame_of_feeds (hT : Feeds T P) {c : Conn σ} {f rest : Bytes}
    (hf : IsFrame MODBUS_TCP_MAX_ADU_LENGTH f) (h : P c.net (f ++ rest)) :
    ∃ net, recvFrame T c MODBUS_TCP_MAX_ADU_LENGTH = (.ok f, ⟨c.errno, net⟩) ∧ P net rest := by
  have hsplit : f.take MODBUS_TCP_MBAP_HEADER_LEN ++ f.drop MODBUS_TCP_MBAP_HEADER_LEN = f :=
    List.take_append_drop _ f
  have hhead : (f.take MODBUS_TCP_MBAP_HEADER_LEN).length = MODBUS_TCP_MBAP_HEADER_LEN :=
    List.length_take_of_le (Nat.le_of_lt hf.lt_length)
  have hmbap : mbapLength (f.take MODBUS_TCP_MBAP_HEADER_LEN) = mbapLength f := by
    rw [← mbapLength_append (Nat.le_of_eq hhead.symm) (f.drop MODBUS_TCP_MBAP_HEADER_LEN), hsplit]
  rw [← hsplit, List.append_assoc] at h
  obtain ⟨net, hrecv, hready⟩ := recvExact_of_feeds hT c _ _ _ hhead h
  have hbody : (f.drop MODBUS_TCP_MBAP_HEADER_LEN).length =
      (mbapLength (f.take MODBUS_TCP_MBAP_HEADER_LEN)).toNat := by
    rw [List.length_drop, hmbap, hf.length_eq, Nat.add_sub_cancel_left]
  obtain ⟨net', hrecv', hready'⟩ := recvExact_of_feeds hT ⟨c.errno, net⟩ _ _ rest hbody hready
  have hframe := recvFrame_of_recvExact hrecv (hmbap ▸ hf.mbapLength_ne) (hmbap ▸ hf.mbapLength_le)
    hrecv'
  rw [hsplit] at hframe
  exact ⟨net', hframe, hready'⟩

end Feeds

end LoopCharger.Modbus

import LoopCharger.Modbus.Server

/-!
# A peer that serves a register file

The server side of `lib/modbus/modbus_tcp.c`: a peer decodes each request with
`mb_tcp_parse_request` and answers it from a register file with
`mb_tcp_build_read_registers_response`. Requests and responses are cut anywhere on their way, and
the peer leaves a request that has not arrived as a whole where it is.

## Main definitions

* `mbTcpParseRequest`, `mbTcpBuildReadRegistersResponse`: the functions of the code.
* `PeerLink`, `PeerEvent`: the bytes under way in both directions, and what may happen to them.
* `peerTransport`: the socket calls of the client, whose `recv` waits for bytes.
* `Owes`: the bytes that the client is still to receive.

## Main results

* `peerAnswer_buildFc03Request`: the peer answers a read with the registers read.
* `recvFrame_peerTransport`: a response that is owed is received.
-/

namespace LoopCharger.Modbus

open Lib

/-! ### The codec of the server -/

/-- Decode a request: the function code, the address and the quantity. -/
def mbTcpParseRequest (request : Bytes) : Option (UInt8 × UInt16 × UInt16) :=
  if request.length < MODBUS_TCP_MBAP_HEADER_LEN then none
  else
    let mbapLen := mbapLength request
    if mbapLen < 6 then none
    else if mbapLen.toNat > MODBUS_TCP_MAX_ADU_LENGTH - MODBUS_TCP_MBAP_HEADER_LEN then none
    else if request.length < MODBUS_TCP_MBAP_HEADER_LEN + mbapLen.toNat then none
    else
      let functionCode := request.getD 7 0
      let address := word (request.getD 8 0) (request.getD 9 0)
      let quantity :=
        if functionCode = MODBUS_FUNC_WRITE_SINGLE_REGISTER then 1
        else word (request.getD 10 0) (request.getD 11 0)
      some (functionCode, address, quantity)

/-- Encode the response to a read, for a buffer of `responseCap` bytes. -/
def mbTcpBuildReadRegistersResponse (tid : UInt16) (functionCode unitId : UInt8)
    (data : ℕ → UInt16) (quantity : UInt16) (responseCap : ℕ) : Option Bytes :=
  if quantity.toNat > 125 then none
  else
    let pduLen := 1 + 1 + quantity.toNat * 2
    let mbapLen := 1 + pduLen
    let total := MODBUS_TCP_MBAP_HEADER_LEN + mbapLen
    if responseCap < total then none
    else
      some ([highByte tid, lowByte tid, 0, 0, .ofNat (mbapLen / 256), .ofNat mbapLen, unitId,
        functionCode, .ofNat (quantity.toNat * 2)] ++
          wordBytes ((List.range quantity.toNat).map data))

/-- A register file, by address. -/
abbrev RegisterFile := UInt16 → UInt16

variable (R : RegisterFile)

/-- What the peer answers to the request at the front of `request`, once it is complete. -/
def peerAnswer (request : Bytes) : Option Bytes :=
  (mbTcpParseRequest request).bind fun (functionCode, address, quantity) =>
    mbTcpBuildReadRegistersResponse (frameTid request) functionCode (request.getD 6 0)
      (fun i => R (address + .ofNat i)) quantity MODBUS_TCP_MAX_ADU_LENGTH

/-- The registers from `addr` on. -/
def RegisterFile.read (addr : UInt16) (i : ℕ) : UInt16 := R (addr + .ofNat i)

/-- The response to a read of the register file. -/
def registersResponse (tid : UInt16) (unitId : UInt8) (addr qty : UInt16) : Bytes :=
  serverResponse (buildFc03Request tid unitId addr qty) (.normal (R.read addr))

variable {R} {tid addr qty : UInt16} {unitId : UInt8}

theorem mbapLength_buildFc03Request : mbapLength (buildFc03Request tid unitId addr qty) = 6 :=
  show word 0 6 = 6 by decide

/-- The peer decodes the request that the client builds. -/
theorem mbTcpParseRequest_buildFc03Request :
    mbTcpParseRequest (buildFc03Request tid unitId addr qty) =
      some (MODBUS_FUNC_READ_HOLDING_REGISTERS, addr, qty) := by
  have hlen : (buildFc03Request tid unitId addr qty).length = 12 := rfl
  have haddr : word ((buildFc03Request tid unitId addr qty).getD 8 0)
      ((buildFc03Request tid unitId addr qty).getD 9 0) = addr := word_highByte_lowByte addr
  have hqty : word ((buildFc03Request tid unitId addr qty).getD 10 0)
      ((buildFc03Request tid unitId addr qty).getD 11 0) = qty := word_highByte_lowByte qty
  have hfc : (buildFc03Request tid unitId addr qty).getD 7 0 =
      MODBUS_FUNC_READ_HOLDING_REGISTERS := rfl
  have hwrite : MODBUS_FUNC_READ_HOLDING_REGISTERS ≠ MODBUS_FUNC_WRITE_SINGLE_REGISTER := by decide
  simp only [mbTcpParseRequest, mbapLength_buildFc03Request, hlen, haddr, hqty, hfc, hwrite,
    if_false]
  rfl

/-- A part of a request is left until the rest of it arrives. -/
theorem peerAnswer_eq_none {inbox upstream : Bytes}
    (h : inbox ++ upstream = buildFc03Request tid unitId addr qty) (hup : upstream ≠ []) :
    peerAnswer R inbox = none := by
  have hlen : inbox.length + upstream.length = 12 := by
    rw [← List.length_append, h]
    rfl
  have hpos : 0 < upstream.length := List.length_pos_iff.mpr hup
  unfold peerAnswer mbTcpParseRequest
  by_cases hshort : inbox.length < MODBUS_TCP_MBAP_HEADER_LEN
  · rw [if_pos hshort]
    rfl
  have hmbap : mbapLength inbox = 6 := by
    rw [← mbapLength_append (Nat.le_of_not_lt hshort) upstream, h, mbapLength_buildFc03Request]
  have hpart : inbox.length < MODBUS_TCP_MBAP_HEADER_LEN + (6 : UInt16).toNat :=
    show inbox.length < 12 by omega
  simp only [hmbap, if_neg hshort, if_pos hpart]
  rfl

/-- The response that the peer builds is the one of an honest server. -/
theorem mbTcpBuildReadRegistersResponse_eq (h : (Request.read addr qty).valid = true)
    (v : ℕ → UInt16) :
    mbTcpBuildReadRegistersResponse tid MODBUS_FUNC_READ_HOLDING_REGISTERS unitId v qty
        MODBUS_TCP_MAX_ADU_LENGTH =
      some (serverResponse (buildFc03Request tid unitId addr qty) (.normal v)) := by
  have hqty : qty.toNat ≤ 125 := (of_decide_eq_true h).2
  have hcap : ¬ MODBUS_TCP_MAX_ADU_LENGTH <
      MODBUS_TCP_MBAP_HEADER_LEN + (1 + (1 + 1 + qty.toNat * 2)) := by
    unfold MODBUS_TCP_MAX_ADU_LENGTH MODBUS_TCP_MBAP_HEADER_LEN
    omega
  rw [mbTcpBuildReadRegistersResponse, if_neg (Nat.not_lt.mpr hqty)]
  simp only [if_neg hcap]
  -- The length field is below 256, so both of its encodings agree.
  have hpdu : ((Request.read addr qty).pdu (.normal v)).length = 2 + 2 * qty.toNat := by
    simp [Request.pdu, Request.registers]
    omega
  have hlen : 1 + (1 + 1 + qty.toNat * 2) =
      1 + ((Request.read addr qty).pdu (.normal v)).length := by omega
  rw [show buildFc03Request tid unitId addr qty = (Request.read addr qty).frame tid unitId from rfl,
    Request.serverResponse_frame _ h, hlen, adu]
  have hhigh : highByte (.ofNat (1 + ((Request.read addr qty).pdu (.normal v)).length)) =
      .ofNat ((1 + ((Request.read addr qty).pdu (.normal v)).length) / 256) := by
    rw [← UInt8.toNat_inj, toNat_highByte, UInt16.toNat_ofNat', UInt8.toNat_ofNat', hpdu]
    omega
  have hlow : lowByte (.ofNat (1 + ((Request.read addr qty).pdu (.normal v)).length)) =
      .ofNat (1 + ((Request.read addr qty).pdu (.normal v)).length) := by
    rw [← UInt8.toNat_inj, toNat_lowByte, UInt16.toNat_ofNat', UInt8.toNat_ofNat', hpdu]
    omega
  rw [hhigh, hlow, Nat.mul_comm]
  rfl

/-- **The peer answers a read with the registers read.** -/
theorem peerAnswer_buildFc03Request (h : (Request.read addr qty).valid = true) :
    peerAnswer R (buildFc03Request tid unitId addr qty) =
      some (registersResponse R tid unitId addr qty) := by
  have htid : frameTid (buildFc03Request tid unitId addr qty) = tid := word_highByte_lowByte tid
  rw [peerAnswer, mbTcpParseRequest_buildFc03Request, Option.bind_some, htid]
  exact mbTcpBuildReadRegistersResponse_eq h _

/-! ### The link -/

/-- The bytes under way between the client and the peer. -/
structure PeerLink where
  /-- Sent by the client. -/
  upstream : Bytes
  /-- At the peer, which has not decoded them. -/
  inbox : Bytes
  /-- Sent by the peer. -/
  downstream : Bytes
  /-- At the client, which has not received them. -/
  ready : Bytes

/-- Up to `n` bytes arrive, at the peer or at the client. -/
inductive PeerEvent
  | up (n : ℕ)
  | down (n : ℕ)

namespace PeerLink

variable (R)

/-- Nothing is under way. -/
def quiet : PeerLink := ⟨[], [], [], []⟩

/-- The client sends a request. -/
def request (l : PeerLink) (req : Bytes) : PeerLink := { l with upstream := l.upstream ++ req }

/-- The peer answers the request at the front of its inbox, if it is complete. -/
def serve (l : PeerLink) : PeerLink :=
  match peerAnswer R l.inbox with
  | none => l
  | some response =>
    { l with
      inbox := l.inbox.drop (MODBUS_TCP_MBAP_HEADER_LEN + (mbapLength l.inbox).toNat)
      downstream := l.downstream ++ response }

/-- The link after an event. -/
def event (l : PeerLink) : PeerEvent → PeerLink
  | .up n =>
    serve R { l with upstream := l.upstream.drop n, inbox := l.inbox ++ l.upstream.take n }
  | .down n => { l with downstream := l.downstream.drop n, ready := l.ready ++ l.downstream.take n }

/-- All that is under way arrives. -/
def flush (l : PeerLink) : PeerLink :=
  let l := l.event R (.up l.upstream.length)
  l.event R (.down l.downstream.length)

/-- A `recv` of up to `n` bytes that have arrived. -/
def take (l : PeerLink) (n : ℕ) : PeerLink := { l with ready := l.ready.drop n }

end PeerLink

variable (R)

/-- A `recv` waits until bytes arrive. The events given come first; after them all that is under way
arrives. It fails only when nothing is under way at all. -/
def recvPeer (n : ℕ) : PeerLink → List PeerEvent → RecvResult × (PeerLink × List PeerEvent)
  | l, events =>
    if l.ready ≠ [] then (.received (l.ready.take n), l.take n, events)
    else
      match events with
      | [] =>
        let l := l.flush R
        if l.ready ≠ [] then (.received (l.ready.take n), l.take n, [])
        else (.error .eagain, l, [])
      | e :: events => recvPeer n (l.event R e) events

/-- The socket calls of the client on a link, with the events to come. -/
def peerTransport : Transport (PeerLink × List PeerEvent) where
  recv s n := recvPeer R n s.1 s.2
  send s req := (.sent req.length, s.1.request req, s.2)
  length_recv_le s n := by
    obtain ⟨l, events⟩ := s
    induction events generalizing l with
    | nil =>
      simp only [recvPeer]
      split_ifs
      · exact List.length_take_le _ _
      · exact List.length_take_le _ _
      · exact Nat.zero_le n
    | cons e events ih =>
      unfold recvPeer
      split_ifs
      · exact List.length_take_le _ _
      · exact ih _

@[simp] theorem send_peerTransport (s : PeerLink × List PeerEvent) (req : Bytes) :
    (peerTransport R).send s req = (.sent req.length, s.1.request req, s.2) := rfl

/-! ### What the client is still to receive -/

/-- The bytes that the client is still to receive: the rest of a response, or the response to a
request that has not arrived at the peer as a whole. -/
inductive Owes : PeerLink → Bytes → Prop
  | response (downstream ready : Bytes) : Owes ⟨[], [], downstream, ready⟩ (ready ++ downstream)
  | request {upstream inbox : Bytes} {tid : UInt16} {unitId : UInt8} {addr qty : UInt16}
      (hq : (Request.read addr qty).valid = true)
      (h : inbox ++ upstream = buildFc03Request tid unitId addr qty) (hup : upstream ≠ []) :
      Owes ⟨upstream, inbox, [], []⟩ (registersResponse R tid unitId addr qty)

variable {R} {l : PeerLink} {bs : Bytes}

theorem registersResponse_ne_nil (h : (Request.read addr qty).valid = true) :
    registersResponse R tid unitId addr qty ≠ [] := by
  have hframe := Request.isFrame_serverResponse (.read addr qty) h tid unitId
    (.normal (R.read addr))
  exact List.ne_nil_of_length_pos (Nat.zero_lt_of_lt hframe.lt_length)

/-- Nothing is owed on a link on which nothing is under way, and on no other. -/
theorem owes_nil_iff : Owes R l [] ↔ l = .quiet := by
  constructor
  · intro h
    generalize hbs : [] = bs at h
    cases h with
    | response downstream ready =>
      obtain ⟨rfl, rfl⟩ := List.append_eq_nil_iff.mp hbs.symm
      rfl
    | request hq _ _ => exact absurd hbs.symm (registersResponse_ne_nil hq)
  · rintro rfl
    exact .response [] []

/-- The peer serves a request that has arrived, and leaves one that has not. -/
theorem Owes.serve {upstream inbox : Bytes} (hq : (Request.read addr qty).valid = true)
    (h : inbox ++ upstream = buildFc03Request tid unitId addr qty) :
    Owes R (PeerLink.serve R ⟨upstream, inbox, [], []⟩)
      (registersResponse R tid unitId addr qty) := by
  by_cases hup : upstream = []
  · obtain rfl := hup
    rw [List.append_nil] at h
    subst h
    have hrest : (buildFc03Request tid unitId addr qty).drop (MODBUS_TCP_MBAP_HEADER_LEN +
        (mbapLength (buildFc03Request tid unitId addr qty)).toNat) = [] := by
      rw [mbapLength_buildFc03Request]
      rfl
    simp only [PeerLink.serve, peerAnswer_buildFc03Request hq, hrest, List.nil_append]
    exact .response _ []
  · simp only [PeerLink.serve, peerAnswer_eq_none h hup]
    exact .request hq h hup

/-- What happens on the link changes nothing of what is owed. -/
theorem Owes.event (h : Owes R l bs) (e : PeerEvent) : Owes R (l.event R e) bs := by
  cases h with
  | response downstream ready =>
    cases e with
    | up n =>
      have hnone : peerAnswer R [] = none := rfl
      simp only [PeerLink.event, List.drop_nil, List.take_nil, List.append_nil, PeerLink.serve,
        hnone]
      exact .response downstream ready
    | down n =>
      have hdown := Owes.response (R := R) (downstream.drop n) (ready ++ downstream.take n)
      rwa [List.append_assoc, List.take_append_drop] at hdown
  | request hq hreq hup =>
    cases e with
    | up n => exact .serve hq (by rw [List.append_assoc, List.take_append_drop, hreq])
    | down n =>
      simp only [PeerLink.event, List.drop_nil, List.take_nil, List.append_nil]
      exact .request hq hreq hup

theorem Owes.flush (h : Owes R l bs) (hbs : bs ≠ []) :
    Owes R (l.flush R) bs ∧ (l.flush R).ready ≠ [] := by
  have hup := h.event (.up l.upstream.length)
  refine ⟨hup.event (.down _), ?_⟩
  -- Once the request is answered, what is owed is at the client or on the way to it.
  have hempty : (l.event R (.up l.upstream.length)).upstream = [] := by
    have hdrop : l.upstream.drop l.upstream.length = [] := List.drop_length
    simp only [PeerLink.event, PeerLink.serve, hdrop]
    split <;> rfl
  simp only [PeerLink.flush]
  generalize l.event R (.up l.upstream.length) = l' at hup hempty
  cases hup with
  | response downstream ready =>
    simp only [PeerLink.event, List.take_length]
    exact hbs
  | request _ _ hne => exact absurd hempty hne

/-- A `recv` finds the next bytes that are owed. -/
theorem recvPeer_of_owes {n : ℕ} (hn : 0 < n) (hbs : bs ≠ []) (h : Owes R l bs)
    (events : List PeerEvent) :
    ∃ cs rest s, recvPeer R n l events = (.received cs, s) ∧ cs ≠ [] ∧ cs.length ≤ n ∧
      bs = cs ++ rest ∧ Owes R s.1 rest := by
  have hready : ∀ {l : PeerLink}, Owes R l bs → l.ready ≠ [] → l.ready.take n ≠ [] ∧
      ∃ rest, bs = l.ready.take n ++ rest ∧ Owes R (l.take n) rest := by
    intro l h hne
    refine ⟨fun htake => ?_, ?_⟩
    · rcases List.take_eq_nil_iff.mp htake with hzero | hnil
      · exact Nat.ne_of_gt hn hzero
      · exact hne hnil
    · cases h with
      | response downstream ready =>
        refine ⟨ready.drop n ++ downstream, ?_, .response downstream (ready.drop n)⟩
        rw [← List.append_assoc, List.take_append_drop]
      | request => exact absurd rfl hne
  induction events generalizing l with
  | nil =>
    by_cases hne : l.ready ≠ []
    · obtain ⟨htake, rest, hrest, howes⟩ := hready h hne
      exact ⟨_, rest, _, if_pos hne, htake, List.length_take_le _ _, hrest, howes⟩
    · obtain ⟨hflush, hne'⟩ := h.flush hbs
      obtain ⟨htake, rest, hrest, howes⟩ := hready hflush hne'
      refine ⟨_, rest, ((l.flush R).take n, []), ?_, htake, List.length_take_le _ _, hrest, howes⟩
      simp only [recvPeer, if_neg hne, if_pos hne']
  | cons e events ih =>
    by_cases hne : l.ready ≠ []
    · obtain ⟨htake, rest, hrest, howes⟩ := hready h hne
      exact ⟨_, rest, _, if_pos hne, htake, List.length_take_le _ _, hrest, howes⟩
    · obtain ⟨cs, rest, s, hrecv, hcs⟩ := ih (h.event e)
      exact ⟨cs, rest, s, by simp only [recvPeer, if_neg hne, hrecv], hcs⟩

theorem feeds_peerTransport (R : RegisterFile) :
    Feeds (peerTransport R) fun s bs => Owes R s.1 bs :=
  fun s _ _ h hn hbs => recvPeer_of_owes hn hbs h s.2

/-- **A response that is owed is received**, however it is cut on its way. -/
theorem recvFrame_peerTransport {c : Conn (PeerLink × List PeerEvent)} {f : Bytes}
    (hf : IsFrame MODBUS_TCP_MAX_ADU_LENGTH f) (h : Owes R c.net.1 f) :
    ∃ net, recvFrame (peerTransport R) c MODBUS_TCP_MAX_ADU_LENGTH = (.ok f, ⟨c.errno, net⟩) ∧
      net.1 = .quiet := by
  rw [← List.append_nil f] at h
  obtain ⟨net, hframe, howes⟩ := recvFrame_of_feeds (feeds_peerTransport R) hf h
  exact ⟨net, hframe, owes_nil_iff.mp howes⟩

end LoopCharger.Modbus

import LoopCharger.Lib.Machine
import LoopCharger.Modbus.Link

/-!
# Sessions of a client with an honest server

The runs of client operations on one connection to an honest server, with any delays, any cutting
of the bytes and any timeouts. The client keeps its connection after a timeout, so a call may find
the responses to earlier requests, or a part of one, in front of its own.

## Main definitions

* `Session`, `Session.machine`: the client and its link between two calls, and the runs.
* `Session.Aligned`: the client is between two responses, and the next identifier is not in use.
* `Session.ReturnsOwnAnswer`, `Session.ConsumesOwnResponse`: what the callers of the operations
  rely on.

## Main results

* `received_of_boundary`: between two responses, a call receives the next one.
* `read_returns_own_answer`: an aligned read that succeeds returns the answer to its own request.
* `answered_in_time_iff`: a call that is answered in time takes its own response exactly when
  nothing was outstanding.
-/

namespace LoopCharger.Modbus

open Lib

/-- A client, the `errno` of its thread and its link, between two calls. -/
structure Session where
  ctx : MbTcpClientCtx
  errno : Errno
  link : Link

namespace Session

/-- One step of a session: a call, with the contents of its response buffer and what happens on
the network until it returns, or what happens between two calls. -/
inductive Step
  | call (q : Request) (resp : ResponseBuffer) (events : List NetEvent)
  | wait (events : List NetEvent)

/-- The client at the start of a call. -/
def client (s : Session) (events : List NetEvent) : Client (Link × List NetEvent) :=
  ⟨s.ctx, s.errno, s.link, events⟩

/-- The session after a call. -/
def ofClient (cl : Client (Link × List NetEvent)) : Session :=
  ⟨cl.ctx, cl.conn.errno, cl.conn.net.1⟩

/-- A call on a session: what it returns, and the session after it. -/
def call (s : Session) (q : Request) (resp : ResponseBuffer) (events : List NetEvent) :
    Reply × Session :=
  let r := q.call linkTransport (s.client events) resp
  (r.1, ofClient r.2)

/-- The runs of a session; a call emits what it returns. -/
def machine : Machine Session Step (Request × Reply) where
  step s
    | .call q resp events => ((s.call q resp events).2, [(q, (s.call q resp events).1)])
    | .wait events => ({ s with link := events.foldl Link.event s.link }, [])

/-- The session after `mb_tcp_client_connect`. -/
def start (sock : ℕ) (cfg : MbTcpClientConfig) (errno : Errno) : Session :=
  ⟨⟨sock, 0, cfg⟩, errno, .start⟩

/-- The request that a call puts on the wire. -/
def frame (s : Session) (q : Request) : Bytes := q.frame (nextTid s.ctx.tid) s.ctx.cfg.unitId

/-! ### The requests of a session -/

/-- The identifier of the `k`-th request of a connection. -/
def tidOf (k : ℕ) : UInt16 := .ofNat (k % 65535 + 1)

/-- The identifier in the context after `n` requests. -/
def lastTid : ℕ → UInt16
  | 0 => 0
  | n + 1 => tidOf n

theorem toNat_tidOf (k : ℕ) : (tidOf k).toNat = k % 65535 + 1 := by
  rw [tidOf, UInt16.toNat_ofNat']
  omega

theorem nextTid_lastTid (n : ℕ) : nextTid (lastTid n) = tidOf n := by
  cases n with
  | zero => rfl
  | succ n =>
    have htid := toNat_tidOf n
    rw [← UInt16.toNat_inj, toNat_tidOf]
    simp only [lastTid, nextTid, UInt16.lt_iff_toNat_lt, UInt16.reduceToNat]
    split
    · rw [UInt16.toNat_add, htid]
      simp only [UInt16.reduceToNat]
      omega
    · simp only [UInt16.reduceToNat]
      omega

/-- The requests of a session are the ones its identifiers count. -/
structure WellFormed (s : Session) : Prop where
  sock_nonneg : 0 ≤ s.ctx.sock
  tid_eq : s.ctx.tid = lastTid s.link.requests.length
  request : ∀ k req, s.link.requests[k]? = some req →
    ∃ q : Request, q.valid = true ∧ req = q.frame (tidOf k) s.ctx.cfg.unitId

/-- The next request has the identifier of its number. -/
theorem WellFormed.nextTid_eq {s : Session} (h : s.WellFormed) :
    nextTid s.ctx.tid = tidOf s.link.requests.length := by
  rw [h.tid_eq, nextTid_lastTid]

theorem wellFormed_start (sock : ℕ) (cfg : MbTcpClientConfig) (errno : Errno) :
    (start sock cfg errno).WellFormed :=
  ⟨Int.natCast_nonneg sock, rfl, fun _ _ h => by simp [start, Link.start, Link.requests] at h⟩

/-- A call of an operation with valid arguments sends its request and reads from the link. -/
theorem exchange_eq {s : Session} (hsock : 0 ≤ s.ctx.sock) {q : Request} (hq : q.valid = true)
    (events : List NetEvent) :
    let r := recvFrame linkTransport ⟨s.errno, s.link.request (s.frame q), events⟩
      MODBUS_TCP_MAX_ADU_LENGTH
    q.exchange linkTransport (s.client events) =
      (r.1.mapError recvErrToClientErr, ⟨{ s.ctx with tid := nextTid s.ctx.tid }, r.2⟩) := by
  have hready : q.valid = true ∧ 0 ≤ (s.client events).ctx.sock := ⟨hq, hsock⟩
  exact Request.exchange_of_sent hready rfl

/-- A call with invalid arguments does nothing. -/
theorem call_of_invalid (s : Session) {q : Request} (hq : q.valid = false) (resp : ResponseBuffer)
    (events : List NetEvent) : (s.call q resp events).2 = s := by
  have hready : ¬ (q.valid = true ∧ 0 ≤ (s.client events).ctx.sock) := by simp [hq]
  rw [call, Request.call_of_not_ready hready]
  rfl

/-- A call with valid arguments takes the next identifier, and its request is the last one. -/
theorem call_of_valid {s : Session} (hsock : 0 ≤ s.ctx.sock) {q : Request} (hq : q.valid = true)
    (resp : ResponseBuffer) (events : List NetEvent) :
    (s.call q resp events).2.ctx = { s.ctx with tid := nextTid s.ctx.tid } ∧
      ∃ bs, (s.link.request (s.frame q)).Advances bs (s.call q resp events).2.link := by
  obtain ⟨bs, hreads⟩ := exists_reads_recvFrame linkTransport
    ⟨s.errno, s.link.request (s.frame q), events⟩ MODBUS_TCP_MAX_ADU_LENGTH
  have hadv := reads_linkTransport hreads
  simp only [call, Request.call_eq, exchange_eq hsock hq]
  exact ⟨rfl, bs, hadv⟩

theorem requests_call {s : Session} (hsock : 0 ≤ s.ctx.sock) {q : Request}
    (hq : q.valid = true) (resp : ResponseBuffer) (events : List NetEvent) :
    (s.call q resp events).2.link.requests = s.link.requests ++ [s.frame q] := by
  obtain ⟨-, bs, hadv⟩ := call_of_valid hsock hq resp events
  rw [hadv.requests, Link.requests, Link.request, ← List.append_assoc, Link.requests]

theorem advances_foldl_event (l : Link) (events : List NetEvent) :
    l.Advances [] (events.foldl Link.event l) := by
  induction events generalizing l with
  | nil => exact .refl l
  | cons e events ih => exact (l.advances_event e).trans (ih _)

/-- Every step of a session keeps its requests in order. -/
theorem WellFormed.step {s : Session} (h : s.WellFormed) (a : Step) :
    (machine.step s a).1.WellFormed := by
  cases a with
  | wait events =>
    have hreq := (advances_foldl_event s.link events).requests
    refine ⟨h.sock_nonneg, ?_, ?_⟩
    · simp only [machine, hreq]
      exact h.tid_eq
    · simp only [machine, hreq]
      exact h.request
  | call q resp events =>
    rcases hq : q.valid with _ | _
    · simpa only [machine, s.call_of_invalid hq] using h
    obtain ⟨hctx, -⟩ := call_of_valid h.sock_nonneg hq resp events
    have hreq := requests_call h.sock_nonneg hq resp events
    simp only [machine]
    refine ⟨by rw [hctx]; exact h.sock_nonneg, ?_, fun k req hk => ?_⟩
    · rw [hctx, hreq, List.length_append, h.nextTid_eq]
      rfl
    · rw [hreq] at hk
      rw [hctx]
      rcases Nat.lt_or_ge k s.link.requests.length with hlt | hle
      · rw [List.getElem?_append_left hlt] at hk
        exact h.request k req hk
      · rw [List.getElem?_append_right hle] at hk
        obtain ⟨hzero, rfl⟩ : k - s.link.requests.length = 0 ∧ s.frame q = req := by
          simpa [List.getElem?_singleton] using hk
        refine ⟨q, hq, ?_⟩
        rw [frame, h.nextTid_eq, Nat.le_antisymm (Nat.le_of_sub_eq_zero hzero) hle]

/-- The requests of every run are in order. -/
theorem wellFormed_state (sock : ℕ) (cfg : MbTcpClientConfig) (errno : Errno)
    (steps : List Step) : (machine.state (start sock cfg errno) steps).WellFormed :=
  machine.invariant WellFormed (wellFormed_start sock cfg errno) (fun _ a h => h.step a) steps

/-- A response is the one to the request of its number. -/
theorem WellFormed.response {s : Session} (h : s.WellFormed) {k : ℕ} {f : Bytes}
    (hk : s.link.responses[k]? = some f) :
    ∃ (q : Request) (a : Answer), q.valid = true ∧
      s.link.answered[k]? = some (q.frame (tidOf k) s.ctx.cfg.unitId, a) ∧
      f = serverResponse (q.frame (tidOf k) s.ctx.cfg.unitId) a := by
  rw [Link.responses, responsesOf, List.getElem?_map] at hk
  obtain ⟨⟨req, a⟩, hget, rfl⟩ := Option.map_eq_some_iff.mp hk
  have hlt : k < (s.link.answered.map Prod.fst).length := by
    rw [List.length_map]
    exact (List.getElem?_eq_some_iff.mp hget).1
  have hreq : s.link.requests[k]? = some req := by
    rw [Link.requests, List.getElem?_append_left hlt, List.getElem?_map, hget, Option.map_some]
  obtain ⟨q, hq, rfl⟩ := h.request k req hreq
  exact ⟨q, a, hq, hget, rfl⟩

theorem WellFormed.isFrame_of_mem {s : Session} (h : s.WellFormed) {f : Bytes}
    (hf : f ∈ s.link.responses) : IsFrame MODBUS_TCP_MAX_ADU_LENGTH f := by
  obtain ⟨k, hk⟩ := List.getElem?_of_mem hf
  obtain ⟨q, a, hq, -, rfl⟩ := h.response hk
  exact q.isFrame_serverResponse hq _ _ a

/-! ### Between two responses -/

/-- The frame that a call receives are the next bytes of the stream. -/
theorem advances_of_received {s : Session} {q : Request} {events : List NetEvent} {f : Bytes}
    (hrec : q.received linkTransport (s.client events) = some f) (resp : ResponseBuffer) :
    (s.link.request (s.frame q)).Advances f (s.call q resp events).2.link ∧
      IsFrame MODBUS_TCP_MAX_ADU_LENGTH f := by
  obtain ⟨-, -, net, c', hsend, hframe, hcl⟩ :=
    Request.exchange_ok_cases (Prod.ext (Request.received_eq_some_iff.mp hrec) rfl)
  obtain ⟨hreads, hf⟩ := recvFrame_reads hframe
  have hl : (s.call q resp events).2.link = c'.net.1 := by
    simp only [call, Request.call_eq, hcl]
    rfl
  obtain rfl : (s.link.request (s.frame q), events) = net := congrArg Prod.snd hsend
  exact ⟨hl ▸ reads_linkTransport hreads, hf⟩

/-- The responses after some reads are the ones before, and more. -/
theorem responses_of_advances {l l' : Link} {bs : Bytes} (h : l.Advances bs l') :
    ∃ rest, l'.responses = l.responses ++ rest := by
  obtain ⟨rest, hrest⟩ := h.answered
  exact ⟨responsesOf rest, by simp only [Link.responses, ← hrest, responsesOf, List.map_append]⟩

/-- **Between two responses, a call receives the next one**, whichever request that answers. -/
theorem received_of_boundary {s : Session} (h : s.WellFormed) {q : Request}
    {events : List NetEvent} {f : Bytes}
    (hrec : q.received linkTransport (s.client events) = some f) {m : ℕ}
    (hm : m ≤ s.link.responses.length) (hbound : s.link.consumed = offset s.link.responses m)
    (resp : ResponseBuffer) :
    let l := (s.call q resp events).2.link
    l.responses[m]? = some f ∧ l.consumed = offset l.responses (m + 1) := by
  intro l
  obtain ⟨hadv, hf⟩ := advances_of_received hrec resp
  obtain ⟨rest, hresp⟩ : ∃ rest, l.responses = s.link.responses ++ rest :=
    responses_of_advances (l := s.link.request (s.frame q)) hadv
  have hoff : offset l.responses m = s.link.consumed := by
    rw [hresp, offset_append _ hm, hbound]
  have hwf : (s.call q resp events).2.WellFormed := h.step (.call q resp events)
  have hfree : PrefixFree (IsFrame MODBUS_TCP_MAX_ADU_LENGTH) :=
    fun f g r r' hf hg => hf.eq_of_append_eq hg
  have hstream : l.responses.flatten.drop (offset l.responses m) =
      f ++ l.stream.drop l.consumed := hoff ▸ hadv.stream
  have hnil : f ≠ [] := List.ne_nil_of_length_pos (Nat.zero_lt_of_lt hf.lt_length)
  have hget := hfree.frame_of_offset (fun g hg => hwf.isFrame_of_mem hg) hf hnil hstream
  exact ⟨hget, by rw [offset_succ hget, hoff]; exact hadv.consumed⟩

/-- What a call returns for the frame it receives. -/
theorem reply_of_received {s : Session} {q : Request} {events : List NetEvent} {f : Bytes}
    (hrec : q.received linkTransport (s.client events) = some f) (resp : ResponseBuffer) :
    (s.call q resp events).1 =
      q.check (nextTid s.ctx.tid) (s.frame q) (storeAt resp.toList 0 f) f.length :=
  Request.call_of_received hrec resp

/-- The response of the number of a call is the one to its request. -/
theorem WellFormed.own_response {s : Session} (h : s.WellFormed) {q : Request}
    (hq : q.valid = true) {resp : ResponseBuffer} {events : List NetEvent} {f : Bytes}
    (hget : (s.call q resp events).2.link.responses[s.link.requests.length]? = some f) :
    ∃ a, (s.call q resp events).2.link.answered[s.link.requests.length]? =
        some (s.frame q, a) ∧ f = serverResponse (s.frame q) a := by
  have hreq := requests_call h.sock_nonneg hq resp events
  rw [Link.responses, responsesOf, List.getElem?_map] at hget
  obtain ⟨⟨req, a⟩, hans, rfl⟩ := Option.map_eq_some_iff.mp hget
  have hown : (s.call q resp events).2.link.requests[s.link.requests.length]? = some req := by
    rw [Link.requests, List.getElem?_append_left, List.getElem?_map, hans, Option.map_some]
    rw [List.length_map]
    exact (List.getElem?_eq_some_iff.mp hans).1
  rw [hreq, List.getElem?_concat_length] at hown
  obtain rfl : s.frame q = req := Option.some.inj hown
  exact ⟨a, hans, rfl⟩

/-- The client is between two responses, and no unread response has the identifier of the next
request: of the unread responses, the one that is 65535 requests older would. -/
def Aligned (s : Session) : Prop :=
  ∃ m ≤ s.link.responses.length, s.link.consumed = offset s.link.responses m ∧
    ∀ k > 0, s.link.requests.length ≠ m + 65535 * k

/-- A read that succeeds returns the registers that the server put in the response to its own
request. -/
def ReturnsOwnAnswer (s : Session) (addr qty : UInt16) (resp : ResponseBuffer)
    (events : List NetEvent) : Prop :=
  let r := s.call (.read addr qty) resp events
  r.1.rc = MB_TCP_CLIENT_OK →
    ∃ v, r.2.link.answered[s.link.requests.length]? =
        some (s.frame (.read addr qty), .normal v) ∧
      r.1.out = (List.range qty.toNat).map v

/-- **An aligned read that succeeds returns the answer to its own request**, in every run. -/
theorem read_returns_own_answer (sock : ℕ) (cfg : MbTcpClientConfig) (errno : Errno)
    (steps : List Step) (addr qty : UInt16) (resp : ResponseBuffer) (events : List NetEvent)
    (haligned : (machine.state (start sock cfg errno) steps).Aligned) :
    (machine.state (start sock cfg errno) steps).ReturnsOwnAnswer addr qty resp events := by
  have h := wellFormed_state sock cfg errno steps
  generalize machine.state (start sock cfg errno) steps = s at h haligned ⊢
  intro hok
  obtain ⟨m, hm, hbound, hlag⟩ := haligned
  rcases hrec : (Request.read addr qty).received linkTransport (s.client events) with _ | f
  · obtain ⟨rc, hneg, hfail⟩ := Request.call_of_not_received hrec
    have hrc : (s.call (.read addr qty) resp events).1 = ⟨rc, []⟩ := hfail resp
    rw [hrc] at hok
    exact absurd hok (Int.ne_of_lt hneg)
  -- The frame received is the response of number `m`, and its identifier is the one of number `n`.
  have hvalid := (Request.exchange_ok_cases
    (Prod.ext (Request.received_eq_some_iff.mp hrec) rfl)).1
  have hlen := (Request.isFrame_of_received hrec).lt_length
  have hwf : (s.call (.read addr qty) resp events).2.WellFormed :=
    h.step (.call (.read addr qty) resp events)
  obtain ⟨hget, -⟩ := received_of_boundary h hrec hm hbound resp
  obtain ⟨q, a, hq, -, hf⟩ := hwf.response hget
  have hreply := reply_of_received hrec resp
  rw [hreply] at hok ⊢
  have htid : (tidOf m).toNat = (tidOf s.link.requests.length).toNat := by
    rw [← h.nextTid_eq, ← (readResponse_rc_eq_zero_iff.mp hok).1, frameTid_storeAt hlen, hf,
      q.frameTid_serverResponse hq]
  rw [toNat_tidOf, toNat_tidOf] at htid
  have hle : m ≤ s.link.requests.length := by
    have := (List.getElem?_eq_some_iff.mp hget).1
    have := congrArg List.length (requests_call h.sock_nonneg hvalid resp events)
    simp only [Link.responses, responsesOf, Link.requests, List.length_map,
      List.length_append, List.length_singleton] at *
    omega
  obtain rfl : m = s.link.requests.length := by
    by_contra hne
    exact hlag ((s.link.requests.length - m) / 65535) (by omega) (by omega)
  obtain ⟨b, hans, rfl⟩ := h.own_response hvalid hget
  have hcheck := Request.check_serverResponse (.read addr qty) hvalid (nextTid s.ctx.tid)
    s.ctx.cfg.unitId b resp.toList
  cases b with
  | exception code hne =>
    rw [frame, hcheck] at hok
    exact absurd (toNat_eq_zero_iff.mp hok) hne
  | normal v => exact ⟨v, hans, congrArg Reply.out hcheck⟩

/-- A read after one that was answered. -/
theorem read_returns_own_answer_second :
    let steps := [.call (.read 0x10 2) (Vector.replicate _ 0)
      [.answer (.normal fun _ => 5), .deliver 13]]
    (machine.state (start 3 ⟨"192.168.1.10", 502, 1⟩ (.other 0)) steps).ReturnsOwnAnswer 0x20 1
      (Vector.replicate _ 0) [.answer (.normal fun _ => 7), .deliver 11] := by
  intro steps
  have hlen : (machine.state (start 3 ⟨"192.168.1.10", 502, 1⟩ (.other 0))
      steps).link.requests.length = 1 := by decide
  exact read_returns_own_answer 3 _ _ steps 0x20 1 _ _
    ⟨1, by decide, by decide, fun k hk => by rw [hlen]; omega⟩

/-- A session in which a read of six registers gave up behind the ninth byte of its response. The
registers spell the response to another read. -/
def midFrame : Session :=
  machine.state (start 3 ⟨"192.168.1.10", 502, 1⟩ (.other 0))
    [.call (.read 0x10 6) (Vector.replicate _ 0)
      [.answer (.normal fun i => [0x0002, 0x0000, 0x0005, 0x0103, 0x02DE, 0xAD00].getD i 0),
        .deliver 9, .timeout]]

/-- The next read is answered with the register 7, but returns one from the middle of the old
response. -/
theorem not_returnsOwnAnswer_midFrame :
    ¬ midFrame.ReturnsOwnAnswer 0x20 1 (Vector.replicate _ 0)
      [.answer (.normal fun _ => 7), .deliver 23] := by
  intro h
  obtain ⟨v, hans, hout⟩ := h (by decide)
  have hfirst : (midFrame.call (.read 0x20 1) (Vector.replicate _ 0)
      [.answer (.normal fun _ => 7), .deliver 23]).2.link.answered[midFrame.link.requests.length]? =
      some (_, .normal fun _ => 7) := rfl
  have hv : v 0 = 7 := by
    have heq := congrArg Prod.snd (Option.some.inj (hans.symm.trans hfirst))
    injection heq with hfun
    rw [hfun]
  have hdead : (midFrame.call (.read 0x20 1) (Vector.replicate _ 0)
      [.answer (.normal fun _ => 7), .deliver 23]).1.out = [0xDEAD] := by decide
  rw [hdead] at hout
  have hword : (0xDEAD : UInt16) = v 0 := (List.cons.inj hout).1
  rw [hv] at hword
  exact absurd hword (by decide)

/-! ### Answers in time -/

/-- The own normal response of a call arrives before the call can time out: the server answers the
requests up to the one of the call, and the bytes reach the client up to the end of that response,
with no timeout before that. -/
def AnsweredInTime (s : Session) (q : Request) (events : List NetEvent) : Prop :=
  let l := (s.link.request (s.frame q)).settle events
  ∃ v, l.answered[s.link.requests.length]? = some (s.frame q, .normal v) ∧
    offset l.responses (s.link.requests.length + 1) ≤ l.arrived

/-- A call succeeds, and the bytes it takes from the stream are the ones of its own response. -/
def ConsumesOwnResponse (s : Session) (q : Request) (resp : ResponseBuffer)
    (events : List NetEvent) : Prop :=
  let r := s.call q resp events
  r.1.rc = MB_TCP_CLIENT_OK ∧
    s.link.consumed = offset r.2.link.responses s.link.requests.length ∧
    r.2.link.consumed = offset r.2.link.responses (s.link.requests.length + 1)

/-- Nothing is outstanding: every request is answered, and every response has been read. -/
def Idle (s : Session) : Prop :=
  s.link.inbox = [] ∧ s.link.consumed = s.link.stream.length

/-- A call that takes its own response starts where all responses have been read. -/
theorem idle_of_consumesOwnResponse {s : Session} (h : s.WellFormed) {q : Request}
    {resp : ResponseBuffer} {events : List NetEvent}
    (hown : s.ConsumesOwnResponse q resp events) : s.Idle := by
  obtain ⟨hok, hstart, hend⟩ := hown
  rcases hrec : q.received linkTransport (s.client events) with _ | f
  · obtain ⟨rc, hneg, hfail⟩ := Request.call_of_not_received hrec
    have hrc : (s.call q resp events).1 = ⟨rc, []⟩ := hfail resp
    rw [hrc] at hok
    exact absurd hok (Int.ne_of_lt hneg)
  obtain ⟨hadv, hf⟩ := advances_of_received hrec resp
  have hwf : (s.call q resp events).2.WellFormed := h.step (.call q resp events)
  obtain ⟨rest, hresp⟩ : ∃ rest,
      (s.call q resp events).2.link.responses = s.link.responses ++ rest :=
    responses_of_advances (l := s.link.request (s.frame q)) hadv
  have hcons : (s.call q resp events).2.link.consumed = s.link.consumed + f.length := hadv.consumed
  generalize (s.call q resp events).2 = s' at hstart hend hwf hresp hcons
  have hnil : ∀ g ∈ s'.link.responses, g ≠ [] := fun g hg =>
    List.ne_nil_of_length_pos (Nat.zero_lt_of_lt (hwf.isFrame_of_mem hg).lt_length)
  -- All responses before the own one have been read, so none of them comes up after the start.
  have hn : s.link.requests.length < s'.link.responses.length := by
    by_contra hge
    have hsame := offset_of_length_le (Nat.le_of_not_lt hge)
    have hsame' := offset_of_length_le (m := s.link.requests.length + 1)
      (Nat.le_succ_of_le (Nat.le_of_not_lt hge))
    have := hf.lt_length
    omega
  have hall : offset s'.link.responses s.link.responses.length = s.link.stream.length := by
    rw [hresp, offset_append _ (Nat.le_refl _), offset_length, Link.stream]
  have hle := s.link.consumed_le_length
  have hcount : s.link.requests.length = s.link.responses.length + s.link.inbox.length := by
    simp only [Link.requests, Link.responses, responsesOf, List.length_append, List.length_map]
  have hinbox : s.link.inbox.length = 0 := by
    by_contra hpos
    have hlt := offset_lt_offset hnil (show s.link.responses.length < s.link.requests.length by
      omega) (Nat.le_of_lt hn)
    omega
  refine ⟨List.length_eq_zero_iff.mp hinbox, ?_⟩
  rw [hstart, hcount, hinbox, Nat.add_zero, hall]

/-- A call that is answered in time while nothing is outstanding receives its own response. -/
theorem consumesOwnResponse_of_idle {s : Session} (h : s.WellFormed) {q : Request}
    (hq : q.valid = true) (resp : ResponseBuffer) {events : List NetEvent}
    (htime : s.AnsweredInTime q events) (hidle : s.Idle) :
    s.ConsumesOwnResponse q resp events := by
  obtain ⟨hinbox, hread⟩ := hidle
  obtain ⟨v, hans, harr⟩ := htime
  obtain ⟨rest, hresp⟩ := responses_of_advances
    ((s.link.request (s.frame q)).advances_settle events)
  have hcount : s.link.requests.length = s.link.responses.length := by
    simp only [Link.requests, Link.responses, responsesOf, hinbox, List.append_nil,
      List.length_map]
  have hbound : s.link.consumed = offset s.link.responses s.link.responses.length := by
    rw [hread, offset_length, Link.stream]
  -- The own response is the next frame of the stream.
  have hget : ((s.link.request (s.frame q)).settle events).responses[s.link.requests.length]? =
      some (serverResponse (s.frame q) (.normal v)) := by
    rw [Link.responses, responsesOf, List.getElem?_map, hans, Option.map_some]
  have hplace : offset ((s.link.request (s.frame q)).settle events).responses
      s.link.requests.length = s.link.consumed := by
    rw [hresp, hcount, hbound]
    exact offset_append _ (Nat.le_refl _)
  have hstream := drop_offset_of_getElem? hget
  rw [hplace] at hstream
  have hf := q.isFrame_serverResponse hq (nextTid s.ctx.tid) s.ctx.cfg.unitId (.normal v)
  obtain ⟨c', hframe⟩ := recvFrame_linkTransport
    (c := ⟨s.errno, s.link.request (s.frame q), events⟩) hf hstream
    (by rw [offset_succ hget, hplace] at harr; exact harr)
  have hrec : q.received linkTransport (s.client events) =
      some (serverResponse (s.frame q) (.normal v)) := by
    rw [Request.received_eq_some_iff, exchange_eq h.sock_nonneg hq, hframe]
    rfl
  obtain ⟨hown, hend⟩ := received_of_boundary h hrec (Nat.le_refl _) hbound resp
  obtain ⟨hadv, -⟩ := advances_of_received hrec resp
  obtain ⟨rest', hresp'⟩ := responses_of_advances (l := s.link.request (s.frame q)) hadv
  refine ⟨?_, ?_, by rw [hcount]; exact hend⟩
  · rw [reply_of_received hrec resp]
    exact congrArg Reply.rc (q.check_serverResponse hq _ _ (.normal v) _)
  · rw [hresp', hcount]
    exact hbound.trans (offset_append _ (Nat.le_refl _)).symm

/-- **A call that is answered in time takes its own response exactly when nothing was
outstanding**, in every run. -/
theorem answered_in_time_iff (sock : ℕ) (cfg : MbTcpClientConfig) (errno : Errno)
    (steps : List Step) {q : Request} (hq : q.valid = true) (resp : ResponseBuffer)
    {events : List NetEvent}
    (htime : (machine.state (start sock cfg errno) steps).AnsweredInTime q events) :
    (machine.state (start sock cfg errno) steps).ConsumesOwnResponse q resp events ↔
      (machine.state (start sock cfg errno) steps).Idle :=
  have h := wellFormed_state sock cfg errno steps
  ⟨idle_of_consumesOwnResponse h, consumesOwnResponse_of_idle h hq resp htime⟩

/-- A session with a read and a write that were answered. -/
theorem answered_in_time_iff_later :
    let steps : List Step := [.call (.read 0x10 2) (Vector.replicate _ 0)
        [.answer (.normal fun _ => 5), .deliver 13],
      .wait [], .call (.writeSingle 0x12 1) (Vector.replicate _ 0)
        [.answer (.normal fun _ => 0), .deliver 12]]
    let s := machine.state (start 3 ⟨"192.168.1.10", 502, 1⟩ (.other 0)) steps
    s.Idle ∧ s.ConsumesOwnResponse (.read 0x20 1) (Vector.replicate _ 0)
      [.answer (.normal fun _ => 7), .deliver 11] := by
  intro steps s
  have hidle : s.Idle := by
    unfold Idle
    decide +kernel
  have htime : s.AnsweredInTime (.read 0x20 1) [.answer (.normal fun _ => 7), .deliver 11] :=
    ⟨fun _ => 7, rfl, by decide +kernel⟩
  exact ⟨hidle, (answered_in_time_iff 3 _ _ steps (by decide) _ htime).mpr hidle⟩

/-- A session in which a read timed out, and its response arrived later. -/
def late : Session :=
  machine.state (start 3 ⟨"192.168.1.10", 502, 1⟩ (.other 0))
    [.call (.read 0x10 1) (Vector.replicate _ 0) [.timeout],
      .wait [.answer (.normal fun _ => 5), .deliver 11]]

/-- The next read is answered in time, but takes the old response and fails. -/
theorem not_consumesOwnResponse_late :
    late.AnsweredInTime (.read 0x20 1) [.answer (.normal fun _ => 7), .deliver 11] ∧
      ¬ late.ConsumesOwnResponse (.read 0x20 1) (Vector.replicate _ 0)
        [.answer (.normal fun _ => 7), .deliver 11] := by
  refine ⟨⟨fun _ => 7, rfl, by decide⟩, fun h => ?_⟩
  exact absurd h.1 (by decide)

end Session

end LoopCharger.Modbus

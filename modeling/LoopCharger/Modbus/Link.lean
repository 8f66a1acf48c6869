import LoopCharger.Lib.Framing
import LoopCharger.Modbus.Server

/-!
# An honest server at the other end

A server that answers every request with one correct response, in the order of the requests, over
a TCP connection that delays the bytes of the responses and cuts them anywhere. Requests reach the
server at once; what varies is when it answers, when the bytes of its answers arrive, and when a
`recv` of the client times out.

## Main definitions

* `Link`: the requests answered and not yet answered, and the places up to which the stream of
  responses has arrived and has been read.
* `NetEvent`, `linkTransport`: what happens on the network, and the socket calls of the client.
* `Link.Advances`: what calls of `recv` do to a link.

## Main results

* `reads_linkTransport`: the client reads the stream of responses, byte after byte.
* `recvExact_linkTransport`: a `recv_exact` whose bytes arrive before the next timeout succeeds.
-/

namespace LoopCharger.Modbus

open Lib

/-! ### The link -/

/-- The responses to a list of answered requests. -/
def responsesOf (answered : List (Bytes × Answer)) : List Bytes :=
  answered.map fun r => serverResponse r.1 r.2

/-- The connection between client and server. -/
structure Link where
  /-- The requests answered so far, in order. -/
  answered : List (Bytes × Answer)
  /-- The requests not answered yet. -/
  inbox : List Bytes
  /-- The number of bytes of the responses that reached the socket of the client. -/
  arrived : ℕ
  /-- The number of bytes that the client has read. -/
  consumed : ℕ
  consumed_le : consumed ≤ arrived
  arrived_le : arrived ≤ (responsesOf answered).flatten.length

/-- What happens on the network. -/
inductive NetEvent
  | answer (a : Answer)
  | deliver (n : ℕ)
  | timeout

namespace Link

/-- A link after `connect`. -/
def start : Link := ⟨[], [], 0, 0, Nat.le_refl 0, Nat.zero_le _⟩

def responses (l : Link) : List Bytes := responsesOf l.answered

/-- The stream of responses. -/
def stream (l : Link) : Bytes := l.responses.flatten

/-- All requests so far, in order. -/
def requests (l : Link) : List Bytes := l.answered.map Prod.fst ++ l.inbox

/-- A request reaches the server. -/
def request (l : Link) (req : Bytes) : Link := { l with inbox := l.inbox ++ [req] }

/-- The server answers the oldest request that has no answer. -/
def answer (l : Link) (a : Answer) : Link :=
  match l.inbox with
  | [] => l
  | req :: inbox =>
    { l with
      answered := l.answered ++ [(req, a)]
      inbox
      arrived_le := by
        have := l.arrived_le
        simp only [responsesOf, List.map_append, List.flatten_append, List.length_append] at this ⊢
        omega }

/-- Up to `n` more bytes reach the client. -/
def deliver (l : Link) (n : ℕ) : Link :=
  { l with
    arrived := min (l.arrived + n) l.stream.length
    consumed_le := by
      have := l.consumed_le
      have hle : l.arrived ≤ l.stream.length := l.arrived_le
      omega
    arrived_le := Nat.min_le_right _ _ }

/-- The link after an event; a timeout leaves it as it is. -/
def event (l : Link) : NetEvent → Link
  | .answer a => l.answer a
  | .deliver n => l.deliver n
  | .timeout => l

/-- The number of bytes that a `recv` of up to `n` bytes finds. -/
def ready (l : Link) (n : ℕ) : ℕ := min n (l.arrived - l.consumed)

/-- The link after a `recv` of up to `n` bytes. -/
def take (l : Link) (n : ℕ) : Link :=
  { l with
    consumed := l.consumed + l.ready n
    consumed_le := by
      have := l.consumed_le
      unfold ready
      omega }

/-- The bytes that a `recv` of up to `n` bytes stores. -/
def next (l : Link) (n : ℕ) : Bytes := (l.stream.drop l.consumed).take (l.ready n)

@[simp] theorem length_next (l : Link) (n : ℕ) : (l.next n).length = l.ready n := by
  have hle : l.arrived ≤ l.stream.length := l.arrived_le
  simp only [next, ready, List.length_take, List.length_drop]
  omega

theorem ready_le (l : Link) (n : ℕ) : l.ready n ≤ n := Nat.min_le_left _ _

theorem consumed_le_length (l : Link) : l.consumed ≤ l.stream.length :=
  Nat.le_trans l.consumed_le l.arrived_le

end Link

/-- A `recv` waits until bytes arrive or it times out; when nothing happens any more, it times out
as well. The answer is the outcome, the link and the events that are left. -/
def recvEvents (n : ℕ) : Link → List NetEvent → RecvResult × (Link × List NetEvent)
  | l, events =>
    if l.consumed < l.arrived then (.received (l.next n), l.take n, events)
    else
      match events with
      | [] => (.error .eagain, l, [])
      | .timeout :: events => (.error .eagain, l, events)
      | e :: events => recvEvents n (l.event e) events

theorem recvEvents_of_ready {n : ℕ} {l : Link} (h : l.consumed < l.arrived)
    (events : List NetEvent) :
    recvEvents n l events = (.received (l.next n), l.take n, events) := by
  unfold recvEvents
  exact if_pos h

/-- The socket calls of the client on a link, with the events to come. -/
def linkTransport : Transport (Link × List NetEvent) where
  recv s n := recvEvents n s.1 s.2
  send s req := (.sent req.length, s.1.request req, s.2)
  length_recv_le s n := by
    obtain ⟨l, events⟩ := s
    induction events generalizing l with
    | nil =>
      unfold recvEvents
      split <;> simp [Link.ready_le]
    | cons e events ih =>
      unfold recvEvents
      split
      · simp [Link.ready_le]
      · cases e with
        | timeout => simp
        | answer a => exact ih (l.answer a)
        | deliver k => exact ih (l.deliver k)

/-! ### What a `recv` does to the link -/

namespace Link

/-- Calls of `recv` that store the bytes `bs` lead from `l` to `l'`: no request comes up, answers
come up behind the ones given, and the bytes stored are the next ones of the stream. -/
structure Advances (l : Link) (bs : Bytes) (l' : Link) : Prop where
  requests : l'.requests = l.requests
  answered : l.answered <+: l'.answered
  consumed : l'.consumed = l.consumed + bs.length
  stream : l'.stream.drop l.consumed = bs ++ l'.stream.drop l'.consumed

/-- More answers come up behind the ones given. -/
theorem stream_prefix {l l' : Link} (h : l.answered <+: l'.answered) : l.stream <+: l'.stream := by
  obtain ⟨rest, hrest⟩ := h
  refine ⟨(responsesOf rest).flatten, ?_⟩
  simp only [stream, responses, ← hrest, responsesOf, List.map_append, List.flatten_append]

theorem Advances.refl (l : Link) : l.Advances [] l :=
  ⟨rfl, List.prefix_rfl, rfl, rfl⟩

theorem Advances.trans {l l' l'' : Link} {bs cs : Bytes} (h : l.Advances bs l')
    (h' : l'.Advances cs l'') : l.Advances (bs ++ cs) l'' := by
  refine ⟨h'.requests.trans h.requests, h.answered.trans h'.answered, ?_, ?_⟩
  · rw [h'.consumed, h.consumed, List.length_append, Nat.add_assoc]
  · obtain ⟨rest, hrest⟩ := stream_prefix h'.answered
    have hle : l'.consumed ≤ l'.stream.length := l'.consumed_le_length
    have hle' : l.consumed ≤ l'.stream.length := by rw [h.consumed] at hle; omega
    rw [← hrest, List.drop_append_of_le_length hle', h.stream, List.append_assoc,
      ← List.drop_append_of_le_length hle, hrest, h'.stream, List.append_assoc]

theorem advances_answer (l : Link) (a : Answer) : l.Advances [] (l.answer a) := by
  unfold answer
  split
  · exact .refl l
  · rename_i req inbox hinbox
    refine ⟨?_, List.prefix_append _ _, rfl, rfl⟩
    simp [requests, hinbox]

/-- What happens on the network stores nothing. -/
theorem advances_event (l : Link) (e : NetEvent) : l.Advances [] (l.event e) := by
  cases e with
  | answer a => exact l.advances_answer a
  | deliver n => exact ⟨rfl, List.prefix_rfl, rfl, rfl⟩
  | timeout => exact .refl l

theorem advances_take (l : Link) (n : ℕ) : l.Advances (l.next n) (l.take n) := by
  refine ⟨rfl, List.prefix_rfl, by rw [length_next]; rfl, ?_⟩
  change l.stream.drop l.consumed = l.next n ++ l.stream.drop (l.consumed + l.ready n)
  rw [next, ← List.drop_drop, List.take_append_drop]

end Link

theorem advances_recvEvents (n : ℕ) (l : Link) (events : List NetEvent) :
    l.Advances (recvEvents n l events).1.bytes (recvEvents n l events).2.1 := by
  induction events generalizing l with
  | nil =>
    unfold recvEvents
    split
    · exact l.advances_take n
    · exact .refl l
  | cons e events ih =>
    unfold recvEvents
    split
    · exact l.advances_take n
    · cases e with
      | timeout => exact .refl l
      | answer a => simpa using (l.advances_event (.answer a)).trans (ih _)
      | deliver k => simpa using (l.advances_event (.deliver k)).trans (ih _)

/-- **The client reads the stream of responses**, byte after byte, whatever the server and the
network do between two calls. -/
theorem reads_linkTransport {s s' : Link × List NetEvent} {bs : Bytes}
    (h : linkTransport.Reads s bs s') : s.1.Advances bs s'.1 := by
  induction h with
  | refl => exact .refl _
  | recv n _ ih => exact ih.trans (advances_recvEvents n _ _)

/-! ### Bytes that arrive in time -/

namespace Link

/-- The link after the events up to the next timeout. -/
def settle (l : Link) : List NetEvent → Link
  | [] | .timeout :: _ => l
  | e :: events => settle (l.event e) events

/-- The links agree but for the bytes that the client has read. -/
def SameServer (l l' : Link) : Prop :=
  l.answered = l'.answered ∧ l.inbox = l'.inbox ∧ l.arrived = l'.arrived

theorem SameServer.event {l l' : Link} (h : l.SameServer l') (e : NetEvent) :
    (l.event e).SameServer (l'.event e) := by
  obtain ⟨hans, hin, harr⟩ := h
  cases e with
  | timeout => exact ⟨hans, hin, harr⟩
  | deliver n =>
    exact ⟨hans, hin, by simp only [Link.event, deliver, stream, responses, hans, harr]⟩
  | answer a =>
    simp only [Link.event, answer, SameServer]
    rw [← hin]
    cases l.inbox with
    | nil => exact ⟨hans, by assumption, harr⟩
    | cons req inbox => exact ⟨by simp only [hans], rfl, harr⟩

theorem SameServer.settle {l l' : Link} (h : l.SameServer l') (events : List NetEvent) :
    (l.settle events).SameServer (l'.settle events) := by
  induction events generalizing l l' with
  | nil => exact h
  | cons e events ih =>
    cases e with
    | timeout => exact h
    | answer a => exact ih (h.event (.answer a))
    | deliver n => exact ih (h.event (.deliver n))

theorem SameServer.trans {l l' l'' : Link} (h : l.SameServer l') (h' : l'.SameServer l'') :
    l.SameServer l'' :=
  ⟨h.1.trans h'.1, h.2.1.trans h'.2.1, h.2.2.trans h'.2.2⟩

theorem advances_settle (l : Link) (events : List NetEvent) : l.Advances [] (l.settle events) := by
  induction events generalizing l with
  | nil => exact .refl l
  | cons e events ih =>
    cases e with
    | timeout => exact .refl l
    | answer a => exact (l.advances_event (.answer a)).trans (ih _)
    | deliver n => exact (l.advances_event (.deliver n)).trans (ih _)

end Link

/-- A `recv` finds bytes when some arrive before the next timeout, and changes nothing of what
arrives before it. -/
theorem recvEvents_of_settle {n : ℕ} (hn : 0 < n) {l : Link} {events : List NetEvent}
    (h : l.consumed < (l.settle events).arrived) :
    ∃ bs s, recvEvents n l events = (.received bs, s) ∧ bs ≠ [] ∧
      (s.1.settle s.2).SameServer (l.settle events) := by
  have hnext : ∀ l : Link, l.consumed < l.arrived → l.next n ≠ [] := fun l hready => by
    refine List.ne_nil_of_length_pos ?_
    rw [Link.length_next, Link.ready]
    omega
  induction events generalizing l with
  | nil =>
    exact ⟨_, _, recvEvents_of_ready h [], hnext l h, rfl, rfl, rfl⟩
  | cons e events ih =>
    by_cases hready : l.consumed < l.arrived
    · have hsame : (l.take n).SameServer l := ⟨rfl, rfl, rfl⟩
      exact ⟨_, _, recvEvents_of_ready hready _, hnext l hready, hsame.settle _⟩
    · cases e with
      | timeout => exact absurd h hready
      | answer a =>
        have hconsumed := (l.advances_event (.answer a)).consumed
        obtain ⟨bs, s, hrecv, hbs, hsame⟩ := ih (l := l.event (.answer a)) (by
          rw [hconsumed]; exact h)
        exact ⟨bs, s, by simp only [recvEvents, if_neg hready, hrecv], hbs, hsame⟩
      | deliver k =>
        obtain ⟨bs, s, hrecv, hbs, hsame⟩ := ih (l := l.event (.deliver k)) h
        exact ⟨bs, s, by simp only [recvEvents, if_neg hready, hrecv], hbs, hsame⟩

/-- **Bytes that arrive in time are received.** A `recv_exact` succeeds when its bytes arrive
before the next timeout. -/
theorem recvExact_linkTransport (c : Conn (Link × List NetEvent)) (len : ℕ)
    (h : c.net.1.consumed + len ≤ (c.net.1.settle c.net.2).arrived) :
    let r := recvExact linkTransport c len
    r.1.rc = 0 ∧ (r.2.net.1.settle r.2.net.2).SameServer (c.net.1.settle c.net.2) := by
  refine recvExact_rec (T := linkTransport) (P := fun c len r =>
    c.net.1.consumed + len ≤ (c.net.1.settle c.net.2).arrived → r.1.rc = 0 ∧
      (r.2.net.1.settle r.2.net.2).SameServer (c.net.1.settle c.net.2)) ?_ ?_ ?_ ?_ c len h
  · intro c _
    exact ⟨rfl, rfl, rfl, rfl⟩
  · intro c len bs net r hlen hrecv hbs ih h
    obtain ⟨bs', s, hrecv', -, hsame⟩ := recvEvents_of_settle hlen
      (show c.net.1.consumed < (c.net.1.settle c.net.2).arrived by omega)
    have hadv := advances_recvEvents len c.net.1 c.net.2
    obtain ⟨rfl, rfl⟩ : bs' = bs ∧ s = net := by simpa using hrecv'.symm.trans hrecv
    have hlen' : bs'.length ≤ len := by
      simpa only [hrecv, RecvResult.bytes_received] using linkTransport.length_recv_le c.net len
    rw [hrecv'] at hadv
    have hconsumed : s.1.consumed = c.net.1.consumed + bs'.length := hadv.consumed
    obtain ⟨hrc, hsame'⟩ := ih (by
      change s.1.consumed + (len - bs'.length) ≤ (s.1.settle s.2).arrived
      rw [hconsumed, hsame.2.2]
      omega)
    exact ⟨hrc, hsame'.trans hsame⟩
  · intro c len net hlen hrecv h
    obtain ⟨bs, s, hrecv', hbs, -⟩ := recvEvents_of_settle hlen
      (show c.net.1.consumed < (c.net.1.settle c.net.2).arrived by omega)
    cases hrecv'.symm.trans hrecv
    exact absurd rfl hbs
  · intro c len e net hlen hrecv h
    obtain ⟨bs, s, hrecv', -, -⟩ := recvEvents_of_settle hlen
      (show c.net.1.consumed < (c.net.1.settle c.net.2).arrived by omega)
    cases hrecv'.symm.trans hrecv

/-- The bytes that a client reads are the ones that the stream will have there. -/
theorem stream_settle_of_advances {l l' : Link} {bs : Bytes} (h : l.Advances bs l')
    {events : List NetEvent} {L : Link} (hsame : (l'.settle events).SameServer L) :
    ∃ rest, L.stream.drop l.consumed = bs ++ rest := by
  obtain ⟨more, hmore⟩ := Link.stream_prefix (l'.advances_settle events).answered
  have hstream : (l'.settle events).stream = L.stream := by
    simp only [Link.stream, Link.responses, hsame.1]
  have hle : l.consumed ≤ l'.stream.length := by
    have := l'.consumed_le_length
    have := h.consumed
    omega
  refine ⟨l'.stream.drop l'.consumed ++ more, ?_⟩
  rw [← hstream, ← hmore, List.drop_append_of_le_length hle, h.stream, List.append_assoc]

/-- **A response that arrives in time is received.** When the unread stream starts with a frame
that arrives before the next timeout, `recv_response` receives that frame. -/
theorem recvFrame_linkTransport {c : Conn (Link × List NetEvent)} {f rest : Bytes}
    (hf : IsFrame MODBUS_TCP_MAX_ADU_LENGTH f)
    (hstream : (c.net.1.settle c.net.2).stream.drop c.net.1.consumed = f ++ rest)
    (harrived : c.net.1.consumed + f.length ≤ (c.net.1.settle c.net.2).arrived) :
    ∃ c', recvFrame linkTransport c MODBUS_TCP_MAX_ADU_LENGTH = (.ok f, c') := by
  have hlen : f.length = 6 + (mbapLength f).toNat := hf.length_eq
  -- The header.
  obtain ⟨hrc, hsame⟩ := recvExact_linkTransport c MODBUS_TCP_MBAP_HEADER_LEN
    (by have : MODBUS_TCP_MBAP_HEADER_LEN = 6 := rfl; omega)
  have hhead := (recvExact_length linkTransport c MODBUS_TCP_MBAP_HEADER_LEN).2.mp hrc
  have hadv := reads_linkTransport (recvExact_reads linkTransport c MODBUS_TCP_MBAP_HEADER_LEN)
  generalize hr : recvExact linkTransport c MODBUS_TCP_MBAP_HEADER_LEN = r at hrc hsame hhead hadv
  obtain ⟨⟨_, head⟩, c₁⟩ := r
  obtain rfl := hrc
  dsimp only at hsame hhead hadv
  obtain ⟨rest₁, hrest₁⟩ := stream_settle_of_advances hadv hsame
  have hmbap : mbapLength head = mbapLength f := by
    rw [← mbapLength_append (Nat.le_of_eq hhead.symm) rest₁, ← hrest₁, hstream,
      mbapLength_append (Nat.le_of_lt hf.lt_length)]
  -- The bytes that the header announces.
  obtain ⟨hrc', hsame'⟩ := recvExact_linkTransport c₁ (mbapLength head).toNat (by
    rw [hsame.2.2, hadv.consumed, hmbap, hhead]
    have : MODBUS_TCP_MBAP_HEADER_LEN = 6 := rfl
    omega)
  generalize hr' : recvExact linkTransport c₁ (mbapLength head).toNat = r at hrc' hsame'
  obtain ⟨⟨_, body⟩, c₂⟩ := r
  obtain rfl := hrc'
  have hframe := recvFrame_of_recvExact hr (hmbap ▸ hf.mbapLength_ne) (hmbap ▸ hf.mbapLength_le) hr'
  obtain ⟨hreads, hg⟩ := recvFrame_reads hframe
  obtain ⟨rest₂, hrest₂⟩ :=
    stream_settle_of_advances (reads_linkTransport hreads) (hsame'.trans hsame)
  obtain ⟨rfl, -⟩ := hf.eq_of_append_eq hg (hstream.symm.trans hrest₂)
  exact ⟨c₂, hframe⟩

end LoopCharger.Modbus

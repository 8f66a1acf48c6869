import LoopCharger.Lib.Machine
import LoopCharger.Lib.Lines
import LoopCharger.Cmos.Dispatch

/-!
# The subscriber's connections

The table of publisher connections of `cmos_sub.c`: `ctx_add_pub` opens a connection in a free
entry, `cmos_sub_spin_ctx` reads what arrives on one, cuts it into lines and handles each, and
`ctx_close_conn` frees the entry. Sockets are numbered in the order in which they are opened, so
that an entry that is used again holds another socket.

## Main definitions

* `PubConn`, `SubCtx`: an entry of the table, and the subscriber.
* `PubConn.receive`: what is done with the bytes of one `recv`.
* `subMachine`: the subscriber as a machine.
* `streamOf`, `linesOf`, `callbacksOf`: what a history says of one socket.

## Main results

* `PubConn.receive_eq`: the bytes of one `recv` are read as one chunk.
* `lines_of_stream`: the lines that are handled depend on the bytes of their own connection only,
  and no write leaves its array.
-/

namespace LoopCharger.Cmos

open Lib

/-! ### The table -/

/-- An entry of the table. -/
structure PubConn where
  sock : Option ℕ
  nodeName : CStr 64
  rxbuf : Bytes
  rxlen : ℕ
  active : Bool
  subSlot : Option ℕ
  deriving DecidableEq

/-- An entry that was never used. -/
def PubConn.unused : PubConn where
  sock := none
  nodeName := CStr.copy 63 []
  rxbuf := List.replicate 2048 0
  rxlen := 0
  active := false
  subSlot := none

/-- The entry after `ctx_close_conn`. -/
def PubConn.close (c : PubConn) : PubConn where
  sock := none
  nodeName := CStr.copy 63 []
  rxbuf := storeAt c.rxbuf 0 [0]
  rxlen := 0
  active := false
  subSlot := none

/-- The entry after `ctx_add_pub`. -/
def PubConn.open (c : PubConn) (sock subSlot : ℕ) (node : Bytes) : PubConn where
  sock := some sock
  nodeName := CStr.copy 63 node
  rxbuf := storeAt c.rxbuf 0 [0]
  rxlen := 0
  active := true
  subSlot := some subSlot

/-- The subscriber. The last field is no part of the program: it counts the sockets opened. -/
structure SubCtx (κ : Type) where
  subSlots : List (SubSlot κ)
  pubConns : List PubConn
  pubCount : ℤ
  opened : ℕ

variable {κ : Type}

/-- A subscriber with all its subscriptions, before anything is connected. -/
def SubCtx.init (subSlots : List (SubSlot κ)) : SubCtx κ :=
  ⟨subSlots, List.replicate 512 .unused, 0, 0⟩

/-- What is seen of the subscriber. -/
inductive SubEvent (κ : Type)
  | opened (sock subSlot : ℕ)
  /-- `recv` is asked for `room` bytes when `rxlen` are stored, and delivers `got`. -/
  | recv (sock rxlen room : ℕ) (got : Bytes)
  /-- The array `line` is given to `ctx_handle_line`. -/
  | line (sock : ℕ) (line : Bytes)
  | callback (sock : ℕ) (cb : κ) (topic data : Bytes)
  | closed (sock : ℕ)
  deriving DecidableEq

/-! ### Opening and closing -/

def ctxCloseConn (ctx : SubCtx κ) (idx : ℕ) : SubCtx κ × List (SubEvent κ) :=
  match ctx.pubConns[idx]? with
  | none => (ctx, [])
  | some c =>
    ({ ctx with
        pubConns := ctx.pubConns.set idx c.close
        pubCount := if c.active then ctx.pubCount - 1 else ctx.pubCount },
      c.sock.toList.map .closed)

def ctxFindConn (ctx : SubCtx κ) (node : Bytes) (slot : ℕ) : Option ℕ :=
  ctx.pubConns.findIdx? fun c => c.active && c.subSlot == some slot && c.nodeName.val == node

/-- `ctx_add_pub`, where `connected` is whether `connect_tcp` succeeds. -/
def ctxAddPub (ctx : SubCtx κ) (subSlot : ℕ) (node : Bytes) (connected : Bool) :
    SubCtx κ × ℤ × List (SubEvent κ) :=
  if (ctxFindConn ctx node subSlot).isSome then (ctx, 0, [])
  else
    match ctx.pubConns.findIdx? fun c => !c.active with
    | none => (ctx, -1, [])
    | some slot =>
      if ¬ connected then (ctx, -1, [])
      else
        ({ ctx with
            pubConns := ctx.pubConns.modify slot fun c => c.open ctx.opened subSlot node
            pubCount := ctx.pubCount + 1
            opened := ctx.opened + 1 }, 0, [.opened ctx.opened subSlot])

/-! ### Receiving -/

/-- The loop over `k`, with `n` passes left: the arrays `line` that are handled, and `start` at the
end. -/
def scanLines (rxbuf : Bytes) (start k : ℕ) : ℕ → List Bytes × ℕ
  | 0 => ([], start)
  | n + 1 =>
    if rxbuf.getD k 0 ≠ newline then scanLines rxbuf start (k + 1) n
    else
      let r := scanLines rxbuf (k + 1) (k + 1) n
      (lineBuffer ((rxbuf.drop start).take (k - start + 1)) :: r.1, r.2)

/-- The bytes behind the last line are moved to the front. -/
def PubConn.compact (c : PubConn) (start : ℕ) : PubConn :=
  if start > 0 then
    { c with
      rxbuf := storeAt c.rxbuf 0 ((c.rxbuf.drop start).take (c.rxlen - start))
      rxlen := c.rxlen - start }
  else c

/-- A part of a line that fills the buffer is given up. -/
def PubConn.discard (c : PubConn) : PubConn :=
  if c.rxlen ≥ 2047 then { c with rxbuf := storeAt c.rxbuf 0 [0], rxlen := 0 } else c

/-- The entry after the bytes `got` of a `recv`, and the arrays `line` that are handled. -/
def PubConn.receive (c : PubConn) (got : Bytes) : PubConn × List Bytes :=
  let rxlen := c.rxlen + got.length
  let rxbuf := storeAt (storeAt c.rxbuf c.rxlen got) rxlen [0]
  let r := scanLines rxbuf 0 0 rxlen
  (({ c with rxbuf := rxbuf, rxlen := rxlen }.compact r.2).discard, r.1)

/-- What is seen of a line that is handled. -/
def handleLine (subSlots : List (SubSlot κ)) (subSlot : Option ℕ) (sock : ℕ) (line : Bytes) :
    List (SubEvent κ) :=
  .line sock line ::
    (ctxHandleLine subSlots subSlot line).toList.map fun r => .callback sock r.1 r.2.1 r.2.2

/-- The body of the loop over the epoll events, for the index `i`. What the socket delivers is cut
to the room that is asked for; nothing at all is an error or the end of the stream. -/
def spinEvent (ctx : SubCtx κ) (i : ℕ) (delivered : Bytes) : SubCtx κ × List (SubEvent κ) :=
  match ctx.pubConns[i]? with
  | none => (ctx, [])
  | some c =>
    match c.sock with
    | none => (ctx, [])
    | some sock =>
      if ¬ c.active then (ctx, [])
      else
        let room := 2047 - c.rxlen
        let got := delivered.take room
        if got = [] then
          let r := ctxCloseConn ctx i
          (r.1, .recv sock c.rxlen room [] :: r.2)
        else
          let r := c.receive got
          ({ ctx with pubConns := ctx.pubConns.set i r.1 },
            .recv sock c.rxlen room got ::
              r.2.flatMap (handleLine ctx.subSlots c.subSlot sock))

/-- What happens to the subscriber. -/
inductive SubAction
  /-- A publisher of the topic of a slot is named by the master. -/
  | addPub (subSlot : ℕ) (node : Bytes) (connected : Bool)
  /-- An entry of the table is ready. -/
  | ready (i : ℕ) (delivered : Bytes)

/-- The subscriber as a machine. -/
def subMachine : Machine (SubCtx κ) SubAction (SubEvent κ) where
  step ctx
    | .addPub subSlot node connected =>
      let r := ctxAddPub ctx subSlot node connected
      (r.1, r.2.2)
    | .ready i delivered => spinEvent ctx i delivered

/-! ### The buffer of a connection -/

/-- The loop over `k` finds the lines of the bytes that are stored. -/
theorem scanLines_eq (rxbuf : Bytes) {start k : ℕ} (n : ℕ) (hk : start ≤ k)
    (hlen : k + n ≤ rxbuf.length) :
    let r := splitLines newline ((rxbuf.drop start).take (k - start)) ((rxbuf.drop k).take n)
    let s := scanLines rxbuf start k n
    s.1 = r.1.map lineBuffer ∧ s.2 ≤ k + n ∧ (rxbuf.drop s.2).take (k + n - s.2) = r.2 := by
  induction n generalizing start k with
  | zero => simpa [scanLines, splitLines] using hk
  | succ n ih =>
    have hget : k < rxbuf.length := by omega
    have hrest : (rxbuf.drop k).take (n + 1) = rxbuf[k] :: (rxbuf.drop (k + 1)).take n := by
      rw [List.drop_eq_getElem_cons hget, List.take_succ_cons]
    have hpart : (rxbuf.drop start).take (k - start) ++ [rxbuf[k]] =
        (rxbuf.drop start).take (k - start + 1) := by
      have hdrop : k - start < (rxbuf.drop start).length := by rw [List.length_drop]; omega
      rw [← List.take_append_getElem hdrop, List.getElem_drop]
      simp only [Nat.add_sub_cancel' hk]
    have hgetD : rxbuf.getD k 0 = rxbuf[k] := by simp [hget]
    simp only [hrest, splitLines, scanLines, hgetD, hpart]
    by_cases hnl : rxbuf[k] = newline
    · have hnext := ih (Nat.le_refl (k + 1)) (by omega)
      rw [Nat.sub_self, List.take_zero, Nat.add_right_comm] at hnext
      obtain ⟨hlines, hle, htake⟩ := hnext
      rw [if_pos hnl, if_neg (not_not.mpr hnl)]
      exact ⟨by rw [hlines, List.map_cons], hle, htake⟩
    · have hnext := ih (show start ≤ k + 1 by omega) (by omega)
      rw [Nat.add_right_comm, show k + 1 - start = k - start + 1 by omega] at hnext
      rw [if_neg hnl, if_pos hnl]
      exact hnext

/-- The entry stores `cur`, in a buffer of 2048 bytes. -/
structure PubConn.Stores (c : PubConn) (cur : Bytes) : Prop where
  size : c.rxbuf.length = 2048
  len : cur.length = c.rxlen
  bytes : c.rxbuf.take c.rxlen = cur

theorem PubConn.stores_close {c : PubConn} (h : c.rxbuf.length = 2048) : c.close.Stores [] :=
  ⟨by rw [PubConn.close, length_storeAt (by simp [h]), h], rfl, rfl⟩

theorem PubConn.stores_open {c : PubConn} (h : c.rxbuf.length = 2048) (sock subSlot : ℕ)
    (node : Bytes) : (c.open sock subSlot node).Stores [] :=
  ⟨by rw [PubConn.open, length_storeAt (by simp [h]), h], rfl, rfl⟩

/-- The bytes of a `recv`, and the NUL behind them. -/
theorem PubConn.Stores.append {c : PubConn} {cur got : Bytes} (h : c.Stores cur)
    (hroom : cur.length + got.length ≤ 2047) :
    PubConn.Stores { c with
      rxbuf := storeAt (storeAt c.rxbuf c.rxlen got) (c.rxlen + got.length) [0]
      rxlen := c.rxlen + got.length } (cur ++ got) := by
  obtain ⟨hsize, hlen, hbytes⟩ := h
  rw [hlen] at hroom
  have hgot : (storeAt c.rxbuf c.rxlen got).length = 2048 := by
    rw [length_storeAt (by omega), hsize]
  refine ⟨?_, by simp [hlen], ?_⟩
  · rw [length_storeAt (by rw [hgot, List.length_singleton]; omega), hgot]
  · have hnul : c.rxlen + got.length ≤ (storeAt c.rxbuf c.rxlen got).length := by omega
    have hle : c.rxlen ≤ c.rxbuf.length := by omega
    exact (take_storeAt_of_le (Nat.le_refl _) hnul [0]).trans
      ((take_storeAt hle got).trans (congrArg (· ++ got) hbytes))

theorem PubConn.Stores.compact {c : PubConn} {cur : Bytes} (h : c.Stores cur) {start : ℕ}
    (hstart : start ≤ c.rxlen) :
    (c.compact start).Stores ((c.rxbuf.drop start).take (c.rxlen - start)) := by
  obtain ⟨hsize, hlen, hbytes⟩ := h
  have hle : c.rxlen ≤ 2048 := by
    have := congrArg List.length hbytes
    rw [List.length_take, hlen, hsize] at this
    omega
  have hrest : ((c.rxbuf.drop start).take (c.rxlen - start)).length = c.rxlen - start := by
    rw [List.length_take, List.length_drop]
    omega
  rw [PubConn.compact]
  split_ifs with hpos
  · refine ⟨?_, hrest, ?_⟩
    · rw [length_storeAt (by omega), hsize]
    · have htake := take_storeAt (Nat.zero_le c.rxbuf.length)
        ((c.rxbuf.drop start).take (c.rxlen - start))
      rwa [hrest, Nat.zero_add, List.take_zero, List.nil_append] at htake
  · obtain rfl : start = 0 := by omega
    exact ⟨hsize, hrest, rfl⟩

theorem PubConn.Stores.discard {c : PubConn} {cur : Bytes} (h : c.Stores cur) :
    c.discard.Stores (if cur.length ≥ 2047 then [] else cur) := by
  rw [PubConn.discard, h.len]
  split_ifs with hfull
  · exact ⟨by rw [length_storeAt (by simp [h.size]), h.size], rfl, rfl⟩
  · exact h

/-- **The bytes of one `recv` are read one after the other**, when they fit into the room. -/
theorem PubConn.receive_eq {c : PubConn} {cur got : Bytes} (h : c.Stores cur)
    (hnl : newline ∉ cur) (hcur : cur.length < 2047) (hroom : cur.length + got.length ≤ 2047) :
    (c.receive got).2 = (feed newline 2047 cur got).1.map lineBuffer ∧
      (c.receive got).1.Stores (feed newline 2047 cur got).2 := by
  have hstored := h.append hroom
  have hall : c.rxlen + got.length ≤ 2047 := h.len ▸ hroom
  have hsize : (storeAt (storeAt c.rxbuf c.rxlen got) (c.rxlen + got.length) [0]).length = 2048 :=
    hstored.size
  have hscan := scanLines_eq (storeAt (storeAt c.rxbuf c.rxlen got) (c.rxlen + got.length) [0])
    (c.rxlen + got.length) (Nat.le_refl 0) (by omega)
  have hbytes := hstored.bytes
  simp only at hbytes
  simp only [Nat.sub_self, List.take_zero, List.drop_zero, Nat.zero_add, hbytes] at hscan
  obtain ⟨hlines, hle, hrest⟩ := hscan
  have hcompact := (hstored.compact hle).discard
  simp only [hrest] at hcompact
  rw [← readChunk_eq_feed hnl hcur hroom, readChunk]
  exact ⟨hlines, hcompact⟩

/-- The part of a line that is stored. -/
theorem stored_rest (stream : Bytes) :
    newline ∉ (feed newline 2047 [] stream).2 ∧ (feed newline 2047 [] stream).2.length < 2047 :=
  feed_rest List.not_mem_nil (by decide) stream

theorem PubConn.receive_frame (c : PubConn) (got : Bytes) :
    (c.receive got).1.sock = c.sock ∧ (c.receive got).1.active = c.active ∧
      (c.receive got).1.subSlot = c.subSlot := by
  simp only [PubConn.receive, PubConn.discard, PubConn.compact]
  split_ifs <;> exact ⟨rfl, rfl, rfl⟩

/-! ### The history of one socket -/

/-- The socket that an event is about. -/
def SubEvent.sock : SubEvent κ → ℕ
  | .opened sock _ | .recv sock _ _ _ | .line sock _ | .callback sock _ _ _ | .closed sock => sock

/-- What a history says of a socket. -/
def ofSock (sock : ℕ) (events : List (SubEvent κ)) : List (SubEvent κ) :=
  events.filter fun e => e.sock = sock

def SubEvent.received : SubEvent κ → Bytes
  | .recv _ _ _ got => got
  | _ => []

def SubEvent.handled : SubEvent κ → Option Bytes
  | .line _ l => some l
  | _ => none

def SubEvent.call : SubEvent κ → Option (κ × Bytes × Bytes)
  | .callback _ cb topic data => some (cb, topic, data)
  | _ => none

def SubEvent.forSlot : SubEvent κ → Option ℕ
  | .opened _ subSlot => some subSlot
  | _ => none

/-- The bytes that arrived on a socket since it was opened. -/
def streamOf (sock : ℕ) (events : List (SubEvent κ)) : Bytes :=
  (ofSock sock events).flatMap SubEvent.received

/-- The arrays that `ctx_handle_line` was given for a socket. -/
def linesOf (sock : ℕ) (events : List (SubEvent κ)) : List Bytes :=
  (ofSock sock events).filterMap SubEvent.handled

/-- The callbacks that were made for a socket, each with its topic and its data. -/
def callbacksOf (sock : ℕ) (events : List (SubEvent κ)) : List (κ × Bytes × Bytes) :=
  (ofSock sock events).filterMap SubEvent.call

/-- The slot that a socket was opened for. -/
def slotOf (sock : ℕ) (events : List (SubEvent κ)) : Option ℕ :=
  ((ofSock sock events).filterMap SubEvent.forSlot).head?

theorem ofSock_append_of_ne {sock : ℕ} {new : List (SubEvent κ)} (h : ∀ e ∈ new, e.sock ≠ sock)
    (events : List (SubEvent κ)) : ofSock sock (events ++ new) = ofSock sock events := by
  have hnew : ofSock sock new = [] := List.filter_eq_nil_iff.mpr fun e he => by simpa using h e he
  rw [ofSock, List.filter_append]
  exact (congrArg (_ ++ ·) hnew).trans (List.append_nil _)

theorem ofSock_append_of_eq {sock : ℕ} {new : List (SubEvent κ)} (h : ∀ e ∈ new, e.sock = sock)
    (events : List (SubEvent κ)) : ofSock sock (events ++ new) = ofSock sock events ++ new := by
  have hnew : ofSock sock new = new := List.filter_eq_self.mpr fun e he => by simpa using h e he
  rw [ofSock, List.filter_append]
  exact congrArg (_ ++ ·) hnew

theorem ofSock_eq_nil {sock : ℕ} {events : List (SubEvent κ)} (h : ∀ e ∈ events, e.sock ≠ sock) :
    ofSock sock events = [] := by
  simpa [ofSock] using ofSock_append_of_ne h []

/-! ### One step -/

/-- What a step of the subscriber can do. -/
inductive SubStep (ctx : SubCtx κ) : SubCtx κ → List (SubEvent κ) → Prop
  | idle : SubStep ctx ctx []
  | opened (i : ℕ) (c : PubConn) (subSlot : ℕ) (node : Bytes) (hget : ctx.pubConns[i]? = some c)
      (hfree : c.active = false) :
      SubStep ctx
        { ctx with
          pubConns := ctx.pubConns.set i (c.open ctx.opened subSlot node)
          pubCount := ctx.pubCount + 1
          opened := ctx.opened + 1 } [.opened ctx.opened subSlot]
  | received (i : ℕ) (c : PubConn) (sock : ℕ) (got : Bytes) (hget : ctx.pubConns[i]? = some c)
      (hsock : c.sock = some sock) (hroom : got.length ≤ 2047 - c.rxlen) :
      SubStep ctx { ctx with pubConns := ctx.pubConns.set i (c.receive got).1 }
        (.recv sock c.rxlen (2047 - c.rxlen) got ::
          (c.receive got).2.flatMap (handleLine ctx.subSlots c.subSlot sock))
  | closed (i : ℕ) (c : PubConn) (sock : ℕ) (hget : ctx.pubConns[i]? = some c)
      (hsock : c.sock = some sock) :
      SubStep ctx
        { ctx with
          pubConns := ctx.pubConns.set i c.close
          pubCount := if c.active then ctx.pubCount - 1 else ctx.pubCount }
        [.recv sock c.rxlen (2047 - c.rxlen) [], .closed sock]

/-- What `ctx_add_pub` does: the publisher is connected already, or it is not connected, or it gets
the first free entry. -/
theorem ctxAddPub_cases (ctx : SubCtx κ) (subSlot : ℕ) (node : Bytes) (connected : Bool) :
    ((ctxFindConn ctx node subSlot).isSome ∧ ctxAddPub ctx subSlot node connected = (ctx, 0, [])) ∨
    (ctxFindConn ctx node subSlot = none ∧
      (connected = false ∨ ∀ c ∈ ctx.pubConns, c.active = true) ∧
      ctxAddPub ctx subSlot node connected = (ctx, -1, [])) ∨
    ∃ i c, ctxFindConn ctx node subSlot = none ∧ connected = true ∧ ctx.pubConns[i]? = some c ∧
      c.active = false ∧
      ctxAddPub ctx subSlot node connected =
        ({ ctx with
            pubConns := ctx.pubConns.set i (c.open ctx.opened subSlot node)
            pubCount := ctx.pubCount + 1
            opened := ctx.opened + 1 }, 0, [.opened ctx.opened subSlot]) := by
  rw [ctxAddPub]
  by_cases hfound : (ctxFindConn ctx node subSlot).isSome = true
  · exact .inl ⟨hfound, if_pos hfound⟩
  have hnone : ctxFindConn ctx node subSlot = none := Option.not_isSome_iff_eq_none.mp hfound
  rw [if_neg hfound]
  cases hfree : ctx.pubConns.findIdx? fun c => !c.active with
  | none =>
    refine .inr (.inl ⟨hnone, .inr fun c hc => ?_, rfl⟩)
    simpa using List.findIdx?_eq_none_iff.mp hfree c hc
  | some i =>
    by_cases hconn : connected = true
    · obtain ⟨hi, hactive, -⟩ := List.findIdx?_eq_some_iff_getElem.mp hfree
      have hget : ctx.pubConns[i]? = some ctx.pubConns[i] := List.getElem?_eq_getElem hi
      simp only [if_neg (not_not.mpr hconn)]
      rw [List.modify_eq_set_getElem?, hget]
      exact .inr (.inr ⟨i, _, hnone, hconn, hget, by simpa using hactive, rfl⟩)
    · have hfalse : connected = false := Bool.not_eq_true _ ▸ hconn
      exact .inr (.inl ⟨hnone, .inl hfalse, if_pos hconn⟩)

/-- What is done with an entry that is ready: nothing, or its bytes are read, or it is closed. -/
theorem spinEvent_cases (ctx : SubCtx κ) (i : ℕ) (delivered : Bytes) :
    spinEvent ctx i delivered = (ctx, []) ∨
    ∃ c sock, ctx.pubConns[i]? = some c ∧ c.sock = some sock ∧ c.active = true ∧
      ((∃ got, got.length ≤ 2047 - c.rxlen ∧ spinEvent ctx i delivered =
        ({ ctx with pubConns := ctx.pubConns.set i (c.receive got).1 },
          .recv sock c.rxlen (2047 - c.rxlen) got ::
            (c.receive got).2.flatMap (handleLine ctx.subSlots c.subSlot sock))) ∨
      spinEvent ctx i delivered =
        ({ ctx with
            pubConns := ctx.pubConns.set i c.close
            pubCount := if c.active then ctx.pubCount - 1 else ctx.pubCount },
          [.recv sock c.rxlen (2047 - c.rxlen) [], .closed sock])) := by
  simp only [spinEvent]
  cases hget : ctx.pubConns[i]? with
  | none => exact .inl rfl
  | some c =>
    cases hsock : c.sock with
    | none => simp [hsock]
    | some sock =>
      simp only [hsock]
      by_cases hactive : c.active = true
      · refine .inr ⟨c, sock, rfl, hsock, hactive, ?_⟩
        rw [if_neg (not_not.mpr hactive)]
        by_cases hnone : delivered.take (2047 - c.rxlen) = []
        · have hclose : ctxCloseConn ctx i =
              ({ ctx with
                  pubConns := ctx.pubConns.set i c.close
                  pubCount := if c.active then ctx.pubCount - 1 else ctx.pubCount },
                [.closed sock]) := by
            simp only [ctxCloseConn, hget, hsock]
            rfl
          rw [if_pos hnone, hclose]
          exact .inr rfl
        · rw [if_neg hnone]
          exact .inl ⟨_, List.length_take_le _ _, rfl⟩
      · rw [if_pos hactive]
        exact .inl rfl

/-- **Every step is one of these.** -/
theorem subStep (ctx : SubCtx κ) (a : SubAction) :
    SubStep ctx (subMachine.step ctx a).1 (subMachine.step ctx a).2 := by
  cases a with
  | addPub subSlot node connected =>
    simp only [subMachine]
    obtain ⟨-, heq⟩ | ⟨-, -, heq⟩ | ⟨i, c, -, -, hget, hactive, heq⟩ :=
      ctxAddPub_cases ctx subSlot node connected
    · rw [heq]
      exact .idle
    · rw [heq]
      exact .idle
    · rw [heq]
      exact .opened i c subSlot node hget hactive
  | ready i delivered =>
    simp only [subMachine]
    obtain heq | ⟨c, sock, hget, hsock, -, ⟨got, hroom, heq⟩ | heq⟩ :=
      spinEvent_cases ctx i delivered
    · rw [heq]
      exact .idle
    · rw [heq]
      exact .received i c sock got hget hsock hroom
    · rw [heq]
      exact .closed i c sock hget hsock

/-! ### A whole run -/

/-- What holds of the history of the socket `sock`, from its opening on. -/
structure SockHistory (subSlots : List (SubSlot κ)) (sock : ℕ) (h : List (SubEvent κ)) : Prop where
  starts : h = [] ∨ ∃ subSlot rest, h = .opened sock subSlot :: rest ∧ ∀ s, .opened sock s ∉ rest
  lines : h.filterMap SubEvent.handled =
    (feed newline 2047 [] (h.flatMap SubEvent.received)).1.map lineBuffer
  calls : h.filterMap SubEvent.call =
    (h.filterMap SubEvent.handled).filterMap
      (ctxHandleLine subSlots (h.filterMap SubEvent.forSlot).head?)
  asked : ∀ s rxlen room got, .recv s rxlen room got ∈ h →
    rxlen + room = 2047 ∧ 0 < room ∧ got.length ≤ room

theorem SockHistory.nil (subSlots : List (SubSlot κ)) (sock : ℕ) :
    SockHistory subSlots sock [] where
  starts := .inl rfl
  lines := rfl
  calls := rfl
  asked _ _ _ _ h := absurd h List.not_mem_nil

theorem SockHistory.opened (subSlots : List (SubSlot κ)) (sock subSlot : ℕ) :
    SockHistory subSlots sock [.opened sock subSlot] where
  starts := .inr ⟨subSlot, [], rfl, fun _ => List.not_mem_nil⟩
  lines := rfl
  calls := rfl
  asked _ _ _ _ h := by simp at h

theorem mem_handleLine {subSlots : List (SubSlot κ)} {subSlot : Option ℕ} {sock : ℕ} {line : Bytes}
    {e : SubEvent κ} (he : e ∈ handleLine subSlots subSlot sock line) :
    (∃ l, e = .line sock l) ∨ ∃ cb topic data, e = .callback sock cb topic data := by
  rcases List.mem_cons.mp he with rfl | he
  · exact .inl ⟨line, rfl⟩
  · obtain ⟨r, -, rfl⟩ := List.mem_map.mp he
    exact .inr ⟨r.1, r.2.1, r.2.2, rfl⟩

/-- What is seen of the lines of one `recv`. -/
theorem handleLine_flatMap (subSlots : List (SubSlot κ)) (subSlot : Option ℕ) (sock : ℕ)
    (lines : List Bytes) :
    let new := lines.flatMap (handleLine subSlots subSlot sock)
    new.flatMap SubEvent.received = [] ∧ new.filterMap SubEvent.handled = lines ∧
      new.filterMap SubEvent.call = lines.filterMap (ctxHandleLine subSlots subSlot) ∧
      new.filterMap SubEvent.forSlot = [] := by
  induction lines with
  | nil => exact ⟨rfl, rfl, rfl, rfl⟩
  | cons line lines ih =>
    obtain ⟨hreceived, hhandled, hcall, hslot⟩ := ih
    simp only [List.flatMap_cons, List.flatMap_append, List.filterMap_append, hreceived, hhandled,
      hcall, hslot, List.filterMap_cons, handleLine]
    cases ctxHandleLine subSlots subSlot line <;> exact ⟨rfl, rfl, rfl, rfl⟩

/-- What is seen of the lines of one `recv` is about its socket, and neither an opening nor another
`recv`. -/
theorem mem_handleLine_flatMap {subSlots : List (SubSlot κ)} {subSlot : Option ℕ} {sock : ℕ}
    {lines : List Bytes} {e : SubEvent κ}
    (he : e ∈ lines.flatMap (handleLine subSlots subSlot sock)) :
    e.sock = sock ∧ (∀ s n, e ≠ .opened s n) ∧ ∀ s m r g, e ≠ .recv s m r g := by
  obtain ⟨line, -, hline⟩ := List.mem_flatMap.mp he
  rcases mem_handleLine hline with ⟨l, rfl⟩ | ⟨cb, topic, data, rfl⟩
  · exact ⟨rfl, fun _ _ => by simp, fun _ _ _ _ => by simp⟩
  · exact ⟨rfl, fun _ _ => by simp, fun _ _ _ _ => by simp⟩

/-- More is seen of a socket that is open: bytes that are read behind those that came before. -/
theorem SockHistory.append {subSlots : List (SubSlot κ)} {sock : ℕ} {h new : List (SubEvent κ)}
    (hist : SockHistory subSlots sock h) (hopen : h ≠ [])
    (hhandled : new.filterMap SubEvent.handled =
      (feed newline 2047 (feed newline 2047 [] (h.flatMap SubEvent.received)).2
        (new.flatMap SubEvent.received)).1.map lineBuffer)
    (hcall : new.filterMap SubEvent.call = (new.filterMap SubEvent.handled).filterMap
      (ctxHandleLine subSlots (h.filterMap SubEvent.forSlot).head?))
    (hslot : new.filterMap SubEvent.forSlot = [])
    (hasked : ∀ s rxlen room got, .recv s rxlen room got ∈ new →
      rxlen + room = 2047 ∧ 0 < room ∧ got.length ≤ room) :
    SockHistory subSlots sock (h ++ new) where
  starts := by
    obtain hnil | ⟨subSlot, rest, rfl, hrest⟩ := hist.starts
    · exact absurd hnil hopen
    · refine .inr ⟨subSlot, rest ++ new, rfl, fun s hs => ?_⟩
      rcases List.mem_append.mp hs with hs | hs
      · exact hrest s hs
      · exact absurd rfl (List.filterMap_eq_nil_iff.mp hslot _ hs ▸ Option.some_ne_none s)
  lines := by
    rw [List.filterMap_append, hist.lines, hhandled, List.flatMap_append, feed_append,
      List.map_append]
  calls := by
    rw [List.filterMap_append, hist.calls, hcall, List.filterMap_append, List.filterMap_append,
      hslot, List.append_nil, List.filterMap_append]
  asked s rxlen room got hmem :=
    (List.mem_append.mp hmem).elim (hist.asked s rxlen room got) (hasked s rxlen room got)

/-- Bytes that arrive are read behind those that came before. -/
theorem SockHistory.received {subSlots : List (SubSlot κ)} {sock : ℕ} {h : List (SubEvent κ)}
    (hist : SockHistory subSlots sock h) {c : PubConn} (hopen : h ≠ [])
    (hslot : c.subSlot = (h.filterMap SubEvent.forSlot).head?)
    (hstores : c.Stores (feed newline 2047 [] (h.flatMap SubEvent.received)).2) {got : Bytes}
    (hroom : got.length ≤ 2047 - c.rxlen) :
    let new := .recv sock c.rxlen (2047 - c.rxlen) got ::
      (c.receive got).2.flatMap (handleLine subSlots c.subSlot sock)
    SockHistory subSlots sock (h ++ new) ∧
      (c.receive got).1.Stores (feed newline 2047 [] ((h ++ new).flatMap SubEvent.received)).2 ∧
      (h ++ new).filterMap SubEvent.forSlot = h.filterMap SubEvent.forSlot := by
  intro new
  obtain ⟨hnl, hcur⟩ := stored_rest (h.flatMap SubEvent.received)
  have hlen := hstores.len
  obtain ⟨hread, hrest⟩ := @PubConn.receive_eq c _ got hstores hnl hcur (by omega)
  obtain ⟨hreceived, hhandled, hcall, hforSlot⟩ :=
    handleLine_flatMap subSlots c.subSlot sock (c.receive got).2
  have hstream : new.flatMap SubEvent.received = got := by
    rw [List.flatMap_cons, hreceived]
    exact List.append_nil got
  have hnoSlot : new.filterMap SubEvent.forSlot = [] := hforSlot
  refine ⟨hist.append hopen ?_ ?_ hnoSlot ?_, ?_, ?_⟩
  · rw [hstream, ← hread]
    exact hhandled
  · rw [← hslot]
    exact hcall.trans (congrArg _ hhandled.symm)
  · intro s rxlen room got' hmem
    rcases List.mem_cons.mp hmem with heq | hmem
    · obtain ⟨-, rfl, rfl, rfl⟩ := SubEvent.recv.inj heq
      omega
    · exact absurd rfl ((mem_handleLine_flatMap hmem).2.2 s rxlen room got')
  · rw [List.flatMap_append, feed_append, hstream]
    exact hrest
  · rw [List.filterMap_append, hnoSlot, List.append_nil]

theorem SockHistory.closed {subSlots : List (SubSlot κ)} {sock : ℕ} {h : List (SubEvent κ)}
    (hist : SockHistory subSlots sock h) {c : PubConn} (hopen : h ≠ [])
    (hstores : c.Stores (feed newline 2047 [] (h.flatMap SubEvent.received)).2) :
    SockHistory subSlots sock (h ++ [.recv sock c.rxlen (2047 - c.rxlen) [], .closed sock]) := by
  have hcur := (stored_rest (h.flatMap SubEvent.received)).2
  have hlen := hstores.len
  refine hist.append hopen rfl rfl rfl fun s rxlen room got hmem => ?_
  obtain ⟨-, rfl, rfl, rfl⟩ : s = sock ∧ rxlen = c.rxlen ∧ room = 2047 - c.rxlen ∧ got = [] := by
    simpa using hmem
  exact ⟨by omega, by omega, Nat.zero_le _⟩

/-- The table against the histories of the sockets. -/
structure Serves (subSlots : List (SubSlot κ)) (ctx : SubCtx κ) (events : List (SubEvent κ)) :
    Prop where
  slots : ctx.subSlots = subSlots
  bound : ∀ e ∈ events, e.sock < ctx.opened
  history : ∀ sock, SockHistory subSlots sock (ofSock sock events)
  entry : ∀ c ∈ ctx.pubConns, c.rxbuf.length = 2048 ∧ (c.active = false → c.sock = none)
  conn : ∀ (i : ℕ) (c : PubConn) (sock : ℕ), ctx.pubConns[i]? = some c → c.sock = some sock →
    ofSock sock events ≠ [] ∧ c.subSlot = slotOf sock events ∧
      c.Stores (feed newline 2047 [] (streamOf sock events)).2
  distinct : ∀ (i j : ℕ) (c c' : PubConn) (sock : ℕ), ctx.pubConns[i]? = some c →
    ctx.pubConns[j]? = some c' → c.sock = some sock → c'.sock = some sock → i = j

theorem Serves.init (subSlots : List (SubSlot κ)) : Serves subSlots (.init subSlots) [] where
  slots := rfl
  bound _ h := absurd h List.not_mem_nil
  history sock := .nil subSlots sock
  entry c hc := by
    obtain rfl := List.eq_of_mem_replicate hc
    exact ⟨List.length_replicate, fun _ => rfl⟩
  conn i c sock hget hsock := by
    obtain rfl := List.eq_of_mem_replicate (List.mem_of_getElem? hget)
    exact absurd hsock.symm (Option.some_ne_none sock)
  distinct i j c c' sock hget _ hsock _ := by
    obtain rfl := List.eq_of_mem_replicate (List.mem_of_getElem? hget)
    exact absurd hsock.symm (Option.some_ne_none sock)

theorem Serves.sock_lt {subSlots : List (SubSlot κ)} {ctx : SubCtx κ} {events : List (SubEvent κ)}
    (h : Serves subSlots ctx events) {i sock : ℕ} {c : PubConn} (hget : ctx.pubConns[i]? = some c)
    (hsock : c.sock = some sock) : sock < ctx.opened := by
  obtain ⟨e, he⟩ := List.exists_mem_of_ne_nil _ (h.conn i c sock hget hsock).1
  obtain ⟨hmem, heq⟩ := List.mem_filter.mp he
  exact of_decide_eq_true heq ▸ h.bound e hmem

/-- An entry is replaced by one for the same socket, or for none. -/
theorem Serves.set {subSlots : List (SubSlot κ)} {ctx ctx' : SubCtx κ}
    {events new : List (SubEvent κ)} (h : Serves subSlots ctx events) {i sock : ℕ} {c c' : PubConn}
    (hget : ctx.pubConns[i]? = some c) (hslots : ctx'.subSlots = ctx.subSlots)
    (hconns : ctx'.pubConns = ctx.pubConns.set i c')
    (hopened : ctx.opened ≤ ctx'.opened) (hlt : sock < ctx'.opened)
    (hnew : ∀ e ∈ new, e.sock = sock)
    (hhist : SockHistory subSlots sock (ofSock sock (events ++ new)))
    (hsize : c'.rxbuf.length = 2048) (hactive : c'.active = false → c'.sock = none)
    (hother : ∀ (j : ℕ) (d : PubConn), j ≠ i → ctx.pubConns[j]? = some d → d.sock ≠ some sock)
    (hconn : ∀ s, c'.sock = some s → s = sock ∧ ofSock sock (events ++ new) ≠ [] ∧
      c'.subSlot = slotOf sock (events ++ new) ∧
      c'.Stores (feed newline 2047 [] (streamOf sock (events ++ new))).2) :
    Serves subSlots ctx' (events ++ new) := by
  have hframe : ∀ s, s ≠ sock → ofSock s (events ++ new) = ofSock s events := fun s hs =>
    ofSock_append_of_ne (fun e he => (hnew e he).trans_ne hs.symm) events
  have hcases : ∀ (j : ℕ) (d : PubConn), ctx'.pubConns[j]? = some d →
      (j = i ∧ d = c') ∨ (j ≠ i ∧ ctx.pubConns[j]? = some d) := by
    intro j d hd
    rw [hconns] at hd
    by_cases hj : j = i
    · subst hj
      rw [List.getElem?_set_self (List.getElem?_eq_some_iff.mp hget).1, Option.some.injEq] at hd
      exact .inl ⟨rfl, hd.symm⟩
    · rw [List.getElem?_set_ne (Ne.symm hj)] at hd
      exact .inr ⟨hj, hd⟩
  refine ⟨hslots.trans h.slots, fun e he => ?_, fun s => ?_, fun d hd => ?_,
    fun j d s hd hsock => ?_, fun j k d d' s hd hd' hsock hsock' => ?_⟩
  · rcases List.mem_append.mp he with he | he
    · exact (h.bound e he).trans_le hopened
    · exact hnew e he ▸ hlt
  · by_cases hs : s = sock
    · exact hs ▸ hhist
    · rw [hframe s hs]
      exact h.history s
  · obtain ⟨j, hj⟩ := List.mem_iff_getElem?.mp hd
    rcases hcases j d hj with ⟨-, rfl⟩ | ⟨-, hold⟩
    · exact ⟨hsize, hactive⟩
    · exact h.entry d (List.mem_of_getElem? hold)
  · rcases hcases j d hd with ⟨-, rfl⟩ | ⟨hj, hold⟩
    · obtain ⟨rfl, hrest⟩ := hconn s hsock
      exact hrest
    · have hs : s ≠ sock := fun heq => hother j d hj hold (heq ▸ hsock)
      rw [slotOf, streamOf, hframe s hs]
      exact h.conn j d s hold hsock
  · rcases hcases j d hd with ⟨rfl, rfl⟩ | ⟨hj, hold⟩ <;>
      rcases hcases k d' hd' with ⟨rfl, rfl⟩ | ⟨hk, hold'⟩
    · rfl
    · exact absurd ((hconn s hsock).1 ▸ hsock') (hother k d' hk hold')
    · exact absurd ((hconn s hsock').1 ▸ hsock) (hother j d hj hold)
    · exact h.distinct j k d d' s hold hold' hsock hsock'

section Step

variable {subSlots : List (SubSlot κ)} {ctx : SubCtx κ} {events : List (SubEvent κ)} {i sock : ℕ}
  {c : PubConn}

/-- A connection is opened in an entry. -/
theorem Serves.opened (h : Serves subSlots ctx events) (hget : ctx.pubConns[i]? = some c)
    (subSlot : ℕ) (node : Bytes) :
    Serves subSlots
      { ctx with
        pubConns := ctx.pubConns.set i (c.open ctx.opened subSlot node)
        pubCount := ctx.pubCount + 1
        opened := ctx.opened + 1 } (events ++ [.opened ctx.opened subSlot]) := by
  have hnone : ofSock ctx.opened events = [] :=
    ofSock_eq_nil fun e he => (h.bound e he).ne
  have hnew : ofSock ctx.opened (events ++ [.opened ctx.opened subSlot]) =
      [.opened ctx.opened subSlot] := by
    rw [ofSock_append_of_eq (by simp [SubEvent.sock]), hnone, List.nil_append]
  have hsize := (h.entry c (List.mem_of_getElem? hget)).1
  have hstores := PubConn.stores_open hsize ctx.opened subSlot node
  refine h.set hget rfl rfl (Nat.le_succ _) (Nat.lt_succ_self _) (by simp [SubEvent.sock]) ?_
    hstores.size (by simp [PubConn.open]) (fun j d _ hd hsock => ?_) fun s hs => ?_
  · rw [hnew]
    exact .opened subSlots ctx.opened subSlot
  · exact (h.sock_lt hd hsock).ne rfl
  · obtain rfl : ctx.opened = s := Option.some.inj hs
    rw [slotOf, streamOf, hnew]
    exact ⟨rfl, List.cons_ne_nil _ _, rfl, hstores⟩

/-- Bytes arrive on the connection of an entry. -/
theorem Serves.received (h : Serves subSlots ctx events) (hget : ctx.pubConns[i]? = some c)
    (hsock : c.sock = some sock) {got : Bytes} (hroom : got.length ≤ 2047 - c.rxlen) :
    Serves subSlots { ctx with pubConns := ctx.pubConns.set i (c.receive got).1 }
      (events ++ (.recv sock c.rxlen (2047 - c.rxlen) got ::
        (c.receive got).2.flatMap (handleLine ctx.subSlots c.subSlot sock))) := by
  obtain ⟨hopen, hslot, hstores⟩ := h.conn i c sock hget hsock
  have hnew : ∀ e ∈ SubEvent.recv sock c.rxlen (2047 - c.rxlen) got ::
      (c.receive got).2.flatMap (handleLine ctx.subSlots c.subSlot sock), e.sock = sock := by
    intro e he
    rcases List.mem_cons.mp he with rfl | he
    · rfl
    · exact (mem_handleLine_flatMap he).1
  rw [h.slots] at hnew ⊢
  obtain ⟨hhist, hstores', hsame⟩ := (h.history sock).received hopen hslot hstores hroom
  have hof := ofSock_append_of_eq hnew events
  rw [← hof] at hhist hstores' hsame
  obtain ⟨hsock', hactive', hslot'⟩ := PubConn.receive_frame c got
  have hactive := (h.entry c (List.mem_of_getElem? hget)).2
  refine h.set hget h.slots.symm rfl (Nat.le_refl _) (h.sock_lt hget hsock) hnew hhist
    hstores'.size (by rwa [hactive', hsock']) (fun j d hj hd hsame => ?_) fun s hs => ?_
  · exact hj (h.distinct j i d c sock hd hget hsame hsock)
  · obtain rfl : sock = s := Option.some.inj (hsock.symm.trans (hsock'.symm.trans hs))
    refine ⟨rfl, ?_, ?_, hstores'⟩
    · rw [hof]
      exact List.append_ne_nil_of_left_ne_nil hopen _
    · exact hslot'.trans (hslot.trans (congrArg List.head? hsame.symm))

/-- The connection of an entry ends. -/
theorem Serves.closed (h : Serves subSlots ctx events) (hget : ctx.pubConns[i]? = some c)
    (hsock : c.sock = some sock) (pubCount : ℤ) :
    Serves subSlots { ctx with pubConns := ctx.pubConns.set i c.close, pubCount := pubCount }
      (events ++ [.recv sock c.rxlen (2047 - c.rxlen) [], .closed sock]) := by
  obtain ⟨hopen, hslot, hstores⟩ := h.conn i c sock hget hsock
  have hnew : ∀ e ∈ ([.recv sock c.rxlen (2047 - c.rxlen) [], .closed sock] :
      List (SubEvent κ)), e.sock = sock := by simp [SubEvent.sock]
  have hhist := (h.history sock).closed hopen hstores
  rw [← ofSock_append_of_eq hnew events] at hhist
  have hclose := PubConn.stores_close hstores.size
  refine h.set hget rfl rfl (Nat.le_refl _) (h.sock_lt hget hsock) hnew hhist hclose.size
    (fun _ => rfl) (fun j d hj hd hsame => ?_) fun s hs => ?_
  · exact hj (h.distinct j i d c sock hd hget hsame hsock)
  · exact absurd hs.symm (Option.some_ne_none s)

/-- Every step keeps the histories. -/
theorem Serves.step (h : Serves subSlots ctx events) (a : SubAction) :
    Serves subSlots (subMachine.step ctx a).1 (events ++ (subMachine.step ctx a).2) := by
  have hstep := subStep ctx a
  generalize (subMachine.step ctx a).1 = ctx' at hstep ⊢
  generalize (subMachine.step ctx a).2 = new at hstep ⊢
  cases hstep with
  | idle => rwa [List.append_nil]
  | opened i c subSlot node hget hfree => exact h.opened hget subSlot node
  | received i c sock got hget hsock hroom => exact h.received hget hsock hroom
  | closed i c sock hget hsock => exact h.closed hget hsock _

end Step

/-- Every run keeps the histories. -/
theorem serves (subSlots : List (SubSlot κ)) (actions : List SubAction) :
    Serves subSlots (subMachine.state (.init subSlots) actions)
      (subMachine.trace (.init subSlots) actions) :=
  subMachine.trace_invariant (Serves subSlots) (.init subSlots) (fun _ _ a h => h.step a) actions

theorem mem_ofSock {sock : ℕ} {e : SubEvent κ} {events : List (SubEvent κ)} :
    e ∈ ofSock sock events ↔ e ∈ events ∧ e.sock = sock := by
  simp [ofSock]

/-- **The lines of a connection depend on its own bytes.** In every run of the subscriber, a socket
is opened once; the lines that are handled for it are those of the bytes that arrived on it since,
read one after the other, with the parts given up that get as long as the buffer; `recv` is never
asked for no bytes or for more than there is room for; and every array keeps its size. -/
theorem lines_of_stream (subSlots : List (SubSlot κ)) (actions : List SubAction) :
    let ctx := subMachine.state (.init subSlots) actions
    let events := subMachine.trace (.init subSlots) actions
    (∀ sock, ofSock sock events = [] ∨ ∃ subSlot rest,
      ofSock sock events = .opened sock subSlot :: rest ∧ ∀ s, .opened sock s ∉ rest) ∧
    (∀ sock, linesOf sock events =
      (feed newline 2047 [] (streamOf sock events)).1.map lineBuffer) ∧
    (∀ sock rxlen room got, .recv sock rxlen room got ∈ events →
      rxlen + room = 2047 ∧ 0 < room ∧ got.length ≤ room) ∧
    (∀ c ∈ ctx.pubConns, c.rxbuf.length = 2048) ∧
    (∀ sock line, .line sock line ∈ events → line.length = 512) := by
  intro ctx events
  have h : Serves subSlots ctx events := serves subSlots actions
  refine ⟨fun sock => (h.history sock).starts, fun sock => (h.history sock).lines,
    fun sock rxlen room got hmem => ?_, fun c hc => (h.entry c hc).1, fun sock line hmem => ?_⟩
  · exact (h.history sock).asked sock rxlen room got (mem_ofSock.mpr ⟨hmem, rfl⟩)
  · have hline : line ∈ linesOf sock events :=
      List.mem_filterMap.mpr ⟨_, mem_ofSock.mpr ⟨hmem, rfl⟩, rfl⟩
    rw [linesOf, (h.history sock).lines] at hline
    obtain ⟨l, -, rfl⟩ := List.mem_map.mp hline
    exact length_lineBuffer l

/-- The callbacks of a connection are those of its lines. -/
theorem callbacksOf_eq (subSlots : List (SubSlot κ)) (actions : List SubAction) (sock : ℕ) :
    let events := subMachine.trace (.init subSlots) actions
    callbacksOf sock events =
      ((feed newline 2047 [] (streamOf sock events)).1.map lineBuffer).filterMap
        (ctxHandleLine subSlots (slotOf sock events)) := by
  intro events
  have h := ((serves subSlots actions).history sock)
  rw [callbacksOf, h.calls, h.lines]
  rfl

/-! ### One delivery -/

/-- A publisher is connected, and what it sends arrives at once. -/
theorem streamOf_delivery (subSlots : List (SubSlot κ)) (subSlot : ℕ) (node got : Bytes)
    (hne : got ≠ []) (hlen : got.length ≤ 2047) :
    let events := subMachine.trace (.init subSlots) [.addPub subSlot node true, .ready 0 got]
    streamOf 0 events = got ∧ slotOf 0 events = some subSlot := by
  have hfind : ctxFindConn (.init subSlots) node subSlot = none := by
    refine List.findIdx?_eq_none_iff.mpr fun c hc => ?_
    obtain rfl := List.eq_of_mem_replicate hc
    rfl
  have hadd : ctxAddPub (.init subSlots) subSlot node true =
      (⟨subSlots, (PubConn.unused.open 0 subSlot node) :: List.replicate 511 .unused, 1, 1⟩, 0,
        [.opened 0 subSlot]) := by
    rw [ctxAddPub, hfind]
    rfl
  have hroom : got.take 2047 = got := List.take_of_length_le hlen
  have hspin : ∀ conns : List PubConn,
      (spinEvent (κ := κ) ⟨subSlots, (PubConn.unused.open 0 subSlot node) :: conns, 1, 1⟩ 0 got).2 =
        .recv 0 0 2047 got :: ((PubConn.unused.open 0 subSlot node).receive got).2.flatMap
          (handleLine subSlots (some subSlot) 0) := by
    intro conns
    have htake : got.take (2047 - (PubConn.unused.open 0 subSlot node).rxlen) = got := hroom
    simp only [spinEvent, List.getElem?_cons_zero, PubConn.open] at htake ⊢
    simp only [htake, if_neg hne]
    rfl
  intro events
  have hevents : events = .opened 0 subSlot :: .recv 0 0 2047 got ::
      ((PubConn.unused.open 0 subSlot node).receive got).2.flatMap
        (handleLine subSlots (some subSlot) 0) := by
    simp only [events, Machine.trace_cons, Machine.trace_nil, subMachine, hadd, hspin,
      List.append_nil]
    rfl
  have hsock : ofSock 0 events = events := by
    rw [hevents]
    refine List.filter_eq_self.mpr fun e he => decide_eq_true ?_
    rcases List.mem_cons.mp he with rfl | he
    · rfl
    · rcases List.mem_cons.mp he with rfl | he
      · rfl
      · exact (mem_handleLine_flatMap he).1
  obtain ⟨hreceived, -, -, -⟩ := handleLine_flatMap subSlots (some subSlot) 0
    ((PubConn.unused.open 0 subSlot node).receive got).2
  rw [streamOf, slotOf, hsock, hevents]
  refine ⟨?_, rfl⟩
  rw [List.flatMap_cons, List.flatMap_cons, hreceived]
  exact List.append_nil got

end LoopCharger.Cmos

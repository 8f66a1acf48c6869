import LoopCharger.Cmos.Subscriber

/-!
# The subscriber and its master

The whole context of `cmos_sub.c`: the subscriptions, the connections to the publishers and the
connection to the master. `ctx_lookup_slot` asks the master for the publishers of a topic, reads the
answer up to its line `END` and connects to each publisher that is named; `cmos_sub_add` does it
once for a new subscription, and the loop of `cmos_sub_spin_ctx` again for those that have no
publisher.

What the network does comes as an input: what is sent, what arrives, and which connections succeed.

## Main definitions

* `Subscriber`: the context, and the time of the last retry.
* `Reply`, `Redial`, `Pass`: what the network does in a lookup, in a connection to the master, and
  in one pass of the loop.
* `ctxLookupSlot`, `ctxReconnectMaster`, `ctxReconnectAllPubs`, `cmosSubAdd`, `spinPass`.
* `subscriberMachine`: the subscriber as a machine.
* `readReply`: the lines of an answer up to `END`, and whether `END` has come.

## Main results

* `lookupLoop_eq`: a lookup connects to the publishers of the lines up to `END`, in order.
-/

namespace LoopCharger.Cmos

open Lib

/-! ### The context -/

/-- The context of a subscriber, and `last_reconnect` of its loop. -/
structure Subscriber (κ : Type) where
  masterSock : Option ℕ
  nodeName : CStr 64
  ctx : SubCtx κ
  lastReconnect : ℤ

/-- What is seen of the subscriber: what happens on a connection to a publisher, a line for the
master, and a request for the publishers of a slot, which `send` takes or not. -/
inductive SubscriberEvent (κ : Type)
  | conn (e : SubEvent κ)
  | sent (sock : ℕ) (line : Bytes)
  | lookup (slot sock : ℕ) (line : Bytes) (taken : Bool)
  deriving DecidableEq

/-- What the network does in a lookup: whether `send` takes the request, what each `recv` delivers,
where nothing is a timeout, an error or the end of the stream, and for each publisher that is named
whether `connect_tcp` succeeds. -/
structure Reply where
  taken : Bool
  chunks : List Bytes
  connects : List Bool

/-- What the network does when the master is connected to: whether `connect_tcp` succeeds, and
whether `send` takes each of the lines. -/
structure Redial where
  connected : Bool
  taken : ℕ → Bool

variable {κ : Type}

/-- `snprintf` of a command for the master to an array of 256 chars. -/
def masterLine (cmd arg : Bytes) : Bytes := (cmd ++ arg ++ [newline]).take 255

/-- The context that `cmos_sub_create` returns. -/
def cmosSubCreate (nodeName : Bytes) : Subscriber κ where
  masterSock := some 0
  nodeName := CStr.copy 63 nodeName
  ctx := { SubCtx.init [] with opened := 1 }
  lastReconnect := 0

/-- Whether `sub_slots[s]` is below `sub_slot_count` and used. -/
def slotUsed (ctx : SubCtx κ) (s : ℕ) : Bool := (ctx.subSlots[s]?).any (·.used)

/-- `has` of the loop: whether some active connection is for the slot. -/
def hasConn (ctx : SubCtx κ) (s : ℕ) : Bool :=
  ctx.pubConns.any fun c => c.active && c.subSlot == some s

def ctxActiveCount (ctx : SubCtx κ) : ℕ := ctx.pubConns.countP fun c => c.active && c.sock.isSome

/-! ### A lookup -/

/-- The address, the port and the node of a line `PUBINFO`, when it has them all. -/
def pubInfo (line : Bytes) : Option (Bytes × Bytes × Bytes) :=
  if ¬ ascii "PUBINFO " <+: cString line then none
  else do
    let (_, rest) ← strtok isBlank (cString line)
    let (_, rest) ← strtok isBlank rest
    let (ip, rest) ← strtok isBlank rest
    let (port, rest) ← strtok isBlank rest
    let (node, _) ← strtok isBlank rest
    some (ip, port, node)

/-- The variables of a lookup: the context, `found`, the connections that are still to come, and
what was seen. -/
structure Lookup (κ : Type) where
  ctx : SubCtx κ
  found : Bool
  connects : List Bool
  events : List (SubEvent κ)

/-- A publisher is named. -/
def Lookup.add (s : ℕ) (l : Lookup κ) (pub : Bytes × Bytes × Bytes) : Lookup κ :=
  let r := ctxAddPub l.ctx s pub.2.2 (l.connects.headD false)
  ⟨r.1, l.found || r.2.1 == 0, l.connects.tail, l.events ++ r.2.2⟩

/-- The loop over `i`, for the arrays `line` that it makes, and whether it returns at `END`. -/
def Lookup.lines (s : ℕ) (l : Lookup κ) : List Bytes → Lookup κ × Bool
  | [] => (l, false)
  | line :: rest =>
    if cString line = ascii "END\n" then (l, true)
    else
      match pubInfo line with
      | none => l.lines s rest
      | some pub => (l.add s pub).lines s rest

/-- The bytes behind the last line are moved to the front of `rxbuf`. -/
def compactReply (rxbuf : Bytes) (rxlen start : ℕ) : Bytes × ℕ :=
  if start > 0 then
    (storeAt rxbuf 0 ((rxbuf.drop start).take (rxlen - start)), rxlen - start)
  else (rxbuf, rxlen)

/-- The loop over `recv`, and whether it ends with `END`. -/
def lookupLoop (s : ℕ) (l : Lookup κ) (rxbuf : Bytes) (rxlen : ℕ) : List Bytes → Lookup κ × Bool
  | [] => (l, false)
  | delivered :: chunks =>
    let got := delivered.take (2047 - rxlen)
    if got = [] then (l, false)
    else
      let rxbuf := storeAt (storeAt rxbuf rxlen got) (rxlen + got.length) [0]
      let rxlen := rxlen + got.length
      let r := scanLines rxbuf 0 0 rxlen
      let h := l.lines s r.1
      if h.2 then h
      else
        let b := compactReply rxbuf rxlen r.2
        lookupLoop s h.1 b.1 (if b.2 ≥ 2047 then 0 else b.2) chunks

/-- The text of the request for a slot. -/
def lookupLine (ctx : SubCtx κ) (s : ℕ) : Bytes :=
  masterLine (ascii "LOOKUP_TOPIC ") ((ctx.subSlots[s]?).elim [] (·.topic.val))

/-- `ctx_lookup_slot`. On the socket -1 `send` fails, and `close` does nothing. The bytes of `rxbuf`
behind `rxlen` are not read, so that it does not matter what they are at the start. -/
def ctxLookupSlot (n : Subscriber κ) (s : ℕ) (r : Reply) :
    Subscriber κ × ℤ × List (SubscriberEvent κ) :=
  match n.masterSock with
  | none => (n, -1, [])
  | some sock =>
    let request := .lookup s sock (lookupLine n.ctx s) r.taken
    if ¬ r.taken then ({ n with masterSock := none }, -1, [request])
    else
      let l := lookupLoop s ⟨n.ctx, false, r.connects, []⟩ (List.replicate 2048 0) 0 r.chunks
      let events := request :: l.1.events.map .conn
      if l.2 then ({ n with ctx := l.1.ctx }, if l.1.found then 0 else -1, events)
      else ({ n with ctx := l.1.ctx, masterSock := none }, -1, events)

/-! ### Connecting to the master -/

/-- The lines are sent, from the `k`-th on, until `send` does not take one. -/
def sendLines (sock : ℕ) (taken : ℕ → Bool) : ℕ → List Bytes → Bool × List (SubscriberEvent κ)
  | _, [] => (true, [])
  | k, line :: lines =>
    if taken k then
      let r := sendLines sock taken (k + 1) lines
      (r.1, .sent sock line :: r.2)
    else (false, [.sent sock line])

def ctxReconnectMaster (n : Subscriber κ) (d : Redial) :
    Subscriber κ × ℤ × List (SubscriberEvent κ) :=
  if ¬ d.connected then ({ n with masterSock := none }, -1, [])
  else
    let sock := n.ctx.opened
    let ctx := { n.ctx with opened := sock + 1 }
    let topics := (ctx.subSlots.filter (·.used)).map (·.topic.val)
    let r := sendLines sock d.taken 0 (masterLine (ascii "NODE ") n.nodeName.val ::
      topics.map (masterLine (ascii "REGISTER_SUB ")))
    if r.1 then ({ n with ctx := ctx, masterSock := some sock }, 0, r.2)
    else ({ n with ctx := ctx, masterSock := none }, -1, r.2)

/-- The loops over the slots: a lookup for each slot that is wanted when its turn comes. -/
def slotLoop (wanted : SubCtx κ → ℕ → Bool) (replies : ℕ → Reply) (n : Subscriber κ) :
    List ℕ → Subscriber κ × List (SubscriberEvent κ)
  | [] => (n, [])
  | s :: slots =>
    if wanted n.ctx s then
      let r := ctxLookupSlot n s (replies s)
      let t := slotLoop wanted replies r.1 slots
      (t.1, r.2.2 ++ t.2)
    else slotLoop wanted replies n slots

def ctxReconnectAllPubs (n : Subscriber κ) (d : Redial) (replies : ℕ → Reply) :
    Subscriber κ × List (SubscriberEvent κ) :=
  let m := if n.masterSock = none then ctxReconnectMaster n d else (n, 0, [])
  if m.2.1 ≠ 0 then (m.1, m.2.2)
  else
    let r := slotLoop slotUsed replies m.1 (List.range m.1.ctx.subSlots.length)
    (r.1, m.2.2 ++ r.2)

/-! ### The public functions -/

/-- `cmos_sub_add`. A filter that is missing is empty. -/
def cmosSubAdd (n : Subscriber κ) (topic : Bytes) (filterState filterType filterKey : Option Bytes)
    (cb : Option κ) (r : Reply) : Subscriber κ × ℤ × List (SubscriberEvent κ) :=
  if n.ctx.subSlots.length ≥ 512 then (n, -1, [])
  else
    let slot : SubSlot κ := ⟨CStr.copy 63 topic, CStr.copy 31 (filterState.getD []),
      CStr.copy 31 (filterType.getD []), CStr.copy 31 (filterKey.getD []), cb, true⟩
    let s := n.ctx.subSlots.length
    let n := { n with ctx := { n.ctx with subSlots := n.ctx.subSlots ++ [slot] } }
    let register := n.masterSock.toList.map fun sock =>
      .sent sock (masterLine (ascii "REGISTER_SUB ") (cString topic))
    let l := ctxLookupSlot n s r
    (l.1, 0, register ++ l.2.2)

/-- What happens in one pass of the loop: what the network does when all publishers are connected to
again, and what it does in the second half, where this is done once more or the slots without a
publisher are looked up; the time, and what the connections that are ready deliver. -/
structure Pass where
  redial : Redial
  replies : ℕ → Reply
  redial' : Redial
  replies' : ℕ → Reply
  now : ℤ
  ready : List (ℕ × Bytes)

/-- The loop over the connections that are ready. -/
def spinEvents (ctx : SubCtx κ) : List (ℕ × Bytes) → SubCtx κ × List (SubEvent κ)
  | [] => (ctx, [])
  | e :: events =>
    let r := spinEvent ctx e.1 e.2
    let t := spinEvents r.1 events
    (t.1, r.2 ++ t.2)

/-- The slots that are looked up every two seconds. -/
def slotMissing (ctx : SubCtx κ) (s : ℕ) : Bool := slotUsed ctx s && !hasConn ctx s

/-- The part of a pass that is reached with a connection: the retry, and the messages. -/
def spinConnected (n : Subscriber κ) (p : Pass) : Subscriber κ × List (SubscriberEvent κ) :=
  let r :=
    if p.now - n.lastReconnect ≥ 2 then
      slotLoop slotMissing p.replies' { n with lastReconnect := p.now }
        (List.range n.ctx.subSlots.length)
    else (n, [])
  let e := spinEvents r.1.ctx p.ready
  ({ r.1 with ctx := e.1 }, r.2 ++ e.2.map .conn)

/-- One pass of the loop of `cmos_sub_spin_ctx`. -/
def spinPass (n : Subscriber κ) (p : Pass) : Subscriber κ × List (SubscriberEvent κ) :=
  let a := if ctxActiveCount n.ctx = 0 then ctxReconnectAllPubs n p.redial p.replies else (n, [])
  let b :=
    if ctxActiveCount a.1.ctx = 0 then ctxReconnectAllPubs a.1 p.redial' p.replies'
    else spinConnected a.1 p
  (b.1, a.2 ++ b.2)

/-- What happens to the subscriber. -/
inductive SubscriberAction (κ : Type)
  | add (topic : Bytes) (filterState filterType filterKey : Option Bytes) (cb : Option κ)
      (r : Reply)
  | pass (p : Pass)

/-- The subscriber as a machine. -/
def subscriberMachine : Machine (Subscriber κ) (SubscriberAction κ) (SubscriberEvent κ) where
  step n
    | .add topic filterState filterType filterKey cb r =>
      let a := cmosSubAdd n topic filterState filterType filterKey cb r
      (a.1, a.2.2)
    | .pass p => spinPass n p

/-! ### What an answer says -/

/-- The lines before `END`, and whether `END` is among the lines. -/
def upToEnd : List Bytes → List Bytes × Bool
  | [] => ([], false)
  | line :: rest =>
    if cString line = ascii "END\n" then ([], true)
    else
      let r := upToEnd rest
      (line :: r.1, r.2)

/-- The lines of an answer before `END`, behind the part `cur` of a line, and whether it comes. -/
def readReply (cur : Bytes) : List Bytes → List Bytes × Bool
  | [] => ([], false)
  | delivered :: chunks =>
    let got := delivered.take (2047 - cur.length)
    if got = [] then ([], false)
    else
      let r := feed newline 2047 cur got
      let h := upToEnd (r.1.map lineBuffer)
      if h.2 then h
      else
        let t := readReply r.2 chunks
        (h.1 ++ t.1, t.2)

/-- The publishers that an answer names. -/
def Reply.publishers (r : Reply) : List (Bytes × Bytes × Bytes) :=
  (readReply [] r.chunks).1.filterMap pubInfo

/-- The request is taken, and the answer is complete. -/
def Reply.answered (r : Reply) : Bool := r.taken && (readReply [] r.chunks).2

theorem Lookup.lines_eq (s : ℕ) (l : Lookup κ) (lines : List Bytes) :
    l.lines s lines =
      (((upToEnd lines).1.filterMap pubInfo).foldl (Lookup.add s) l, (upToEnd lines).2) := by
  induction lines generalizing l with
  | nil => rfl
  | cons line rest ih =>
    rw [Lookup.lines, upToEnd]
    split_ifs with hend
    · rfl
    · cases hpub : pubInfo line with
      | none => rw [List.filterMap_cons_none hpub]; exact ih l
      | some pub => rw [List.filterMap_cons_some hpub]; exact ih (l.add s pub)

/-- It is the buffer of a connection that holds the same bytes. -/
theorem compactReply_eq (rxbuf : Bytes) (rxlen start : ℕ) :
    let c : PubConn := ⟨none, CStr.copy 63 [], rxbuf, rxlen, false, none⟩
    compactReply rxbuf rxlen start = ((c.compact start).rxbuf, (c.compact start).rxlen) := by
  simp only [compactReply, PubConn.compact]
  split_ifs <;> rfl

/-- The bytes of one `recv` are read one after the other. -/
theorem scanLines_reply {rxbuf cur got : Bytes} (hsize : rxbuf.length = 2048)
    (hbytes : rxbuf.take cur.length = cur) (hnl : newline ∉ cur) (hcur : cur.length < 2047)
    (hroom : cur.length + got.length ≤ 2047) :
    let rxlen := cur.length + got.length
    let r := scanLines (storeAt (storeAt rxbuf cur.length got) rxlen [0]) 0 0 rxlen
    let b := compactReply (storeAt (storeAt rxbuf cur.length got) rxlen [0]) rxlen r.2
    let f := feed newline 2047 cur got
    r.1 = f.1.map lineBuffer ∧ b.1.length = 2048 ∧ (if b.2 ≥ 2047 then 0 else b.2) = f.2.length ∧
      b.1.take f.2.length = f.2 := by
  -- the buffer is that of a connection that stores `cur`
  have hstores : PubConn.Stores ⟨none, CStr.copy 63 [], rxbuf, cur.length, false, none⟩ cur :=
    ⟨hsize, rfl, hbytes⟩
  have hstored := hstores.append hroom
  intro rxlen r b f
  obtain ⟨hlines, hle, hrest⟩ := scanLines_eq (storeAt (storeAt rxbuf cur.length got) rxlen [0])
    rxlen (Nat.le_refl 0) (by rw [hstored.size]; omega)
  simp only [Nat.sub_self, List.take_zero, List.drop_zero, Nat.zero_add] at hlines hle hrest
  rw [hstored.bytes] at hlines hrest
  obtain ⟨hsize', hlen', hbytes'⟩ := hstored.compact hle
  have hb : b = _ := compactReply_eq _ rxlen r.2
  have hfeed : f = readChunk newline 2047 cur got := (readChunk_eq_feed hnl hcur hroom).symm
  rw [hrest] at hlen' hbytes'
  rw [hfeed, hb, readChunk]
  refine ⟨hlines, hsize', ?_, ?_⟩
  · rw [← hlen']
    split_ifs <;> rfl
  · split_ifs
    · rfl
    · rwa [hlen']

/-- **A lookup connects to the publishers that the answer names**, one after the other. -/
theorem lookupLoop_eq (s : ℕ) (l : Lookup κ) {rxbuf cur : Bytes} (hsize : rxbuf.length = 2048)
    (hbytes : rxbuf.take cur.length = cur) (hnl : newline ∉ cur) (hcur : cur.length < 2047)
    (chunks : List Bytes) :
    lookupLoop s l rxbuf cur.length chunks =
      (((readReply cur chunks).1.filterMap pubInfo).foldl (Lookup.add s) l,
        (readReply cur chunks).2) := by
  induction chunks generalizing l rxbuf cur with
  | nil => rfl
  | cons delivered chunks ih =>
    rw [lookupLoop, readReply]
    generalize hgot : delivered.take (2047 - cur.length) = got
    have hroom : cur.length + got.length ≤ 2047 := by
      have := List.length_take_le (2047 - cur.length) delivered
      rw [hgot] at this
      omega
    obtain ⟨hlines, hsize', hlen', hbytes'⟩ := scanLines_reply hsize hbytes hnl hcur hroom
    obtain ⟨hnl', hcur'⟩ := feed_rest hnl hcur got
    have hrest := fun l => ih l hsize' hbytes' hnl' hcur'
    simp only [hlines, hlen', Lookup.lines_eq, hrest]
    split_ifs with hnone hend
    · rfl
    · rw [hend]
    · rw [List.filterMap_append, List.foldl_append]

/-- The variables of a lookup when the publishers of the answer have been connected to. -/
def lookupPubs (ctx : SubCtx κ) (s : ℕ) (r : Reply) : Lookup κ :=
  r.publishers.foldl (Lookup.add s) ⟨ctx, false, r.connects, []⟩

/-- A name that an answer gives has no NUL. -/
theorem zero_notMem_of_pubInfo {line : Bytes} {pub : Bytes × Bytes × Bytes}
    (h : pubInfo line = some pub) : 0 ∉ pub.2.2 := by
  rw [pubInfo] at h
  split_ifs at h
  simp only [Option.bind_eq_bind, Option.bind_eq_some_iff, Prod.exists, Option.some.injEq] at h
  obtain ⟨_, r₁, h₁, _, r₂, h₂, _, r₃, h₃, _, r₄, h₄, node, _, h₅, rfl⟩ := h
  intro hzero
  have hmem := (subset_of_strtok h₁).2 ((subset_of_strtok h₂).2 ((subset_of_strtok h₃).2
    ((subset_of_strtok h₄).2 ((subset_of_strtok h₅).1 hzero))))
  exact zero_notMem_cString line hmem

/-- **Induction over the publishers that an answer names.** -/
theorem lookupPubs_induction {ctx : SubCtx κ} {s : ℕ} {r : Reply}
    (I : List (Bytes × Bytes × Bytes) → SubCtx κ → Prop) (h₀ : I [] ctx)
    (hstep : ∀ done pub ctx' connected, done ++ [pub] <+: r.publishers → I done ctx' →
      I (done ++ [pub]) (ctxAddPub ctx' s pub.2.2 connected).1) :
    I r.publishers (lookupPubs ctx s r).ctx := by
  have hpart : ∀ done, done <+: r.publishers →
      I done (done.foldl (Lookup.add s) ⟨ctx, false, r.connects, []⟩).ctx := by
    intro done
    induction done using List.reverseRecOn with
    | nil => exact fun _ => h₀
    | append_singleton done pub ih =>
      intro hdone
      rw [List.foldl_append]
      exact hstep done pub _ _ hdone (ih ((List.prefix_append done [pub]).trans hdone))
  exact hpart r.publishers List.prefix_rfl

theorem ctxLookupSlot_of_none {n : Subscriber κ} (h : n.masterSock = none) (s : ℕ) (r : Reply) :
    ctxLookupSlot n s r = (n, -1, []) := by
  rw [ctxLookupSlot, h]

/-- **A lookup with a connection to the master**, which is kept when the answer is complete. -/
theorem ctxLookupSlot_of_some {n : Subscriber κ} {sock : ℕ} (h : n.masterSock = some sock) (s : ℕ)
    (r : Reply) :
    (ctxLookupSlot n s r).1 =
      { n with
        ctx := if r.taken then (lookupPubs n.ctx s r).ctx else n.ctx
        masterSock := if r.answered then some sock else none } ∧
    (ctxLookupSlot n s r).2.2 = .lookup s sock (lookupLine n.ctx s) r.taken ::
      if r.taken then (lookupPubs n.ctx s r).events.map .conn else [] := by
  have hlen : ([] : Bytes).length < 2047 := by decide
  have hloop := lookupLoop_eq s ⟨n.ctx, false, r.connects, []⟩
    (List.length_replicate (n := 2048) (a := (0 : UInt8))) rfl List.not_mem_nil hlen r.chunks
  rw [List.length_nil] at hloop
  simp only [ctxLookupSlot, h, hloop, Reply.answered, lookupPubs, Reply.publishers]
  by_cases htaken : r.taken = true
  · by_cases hend : (readReply [] r.chunks).2 = true
    · simp [htaken, hend]
    · simp [htaken, hend]
  · simp [htaken]

/-! ### What a lookup leaves as it is -/

theorem hasConn_eq_true {ctx : SubCtx κ} {s : ℕ} :
    hasConn ctx s = true ↔ ∃ c ∈ ctx.pubConns, c.active = true ∧ c.subSlot = some s := by
  simp [hasConn]

theorem hasConn_eq_false {ctx : SubCtx κ} {s : ℕ} :
    hasConn ctx s = false ↔ ∀ c ∈ ctx.pubConns, c.active = true → c.subSlot ≠ some s := by
  simp [hasConn]

/-- The slots stay as they are, and so does whether another slot has a connection. -/
def SameBut (s : ℕ) (ctx ctx' : SubCtx κ) : Prop :=
  ctx'.subSlots = ctx.subSlots ∧ ∀ s', s' ≠ s → hasConn ctx' s' = hasConn ctx s'

theorem ctxAddPub_sameBut (ctx : SubCtx κ) (s : ℕ) (node : Bytes) (connected : Bool) :
    SameBut s ctx (ctxAddPub ctx s node connected).1 := by
  obtain ⟨-, heq⟩ | ⟨-, -, heq⟩ | ⟨i, c, -, -, hget, hfree, heq⟩ :=
    ctxAddPub_cases ctx s node connected
  · rw [heq]
    exact ⟨rfl, fun _ _ => rfl⟩
  · rw [heq]
    exact ⟨rfl, fun _ _ => rfl⟩
  · rw [heq]
    refine ⟨rfl, fun s' hs' => Bool.eq_iff_iff.mpr ?_⟩
    simp only [hasConn_eq_true]
    constructor
    · rintro ⟨d, hd, hactive, hslot⟩
      rcases List.mem_or_eq_of_mem_set hd with hd | rfl
      · exact ⟨d, hd, hactive, hslot⟩
      · exact absurd (Option.some.inj hslot) (Ne.symm hs')
    · rintro ⟨d, hd, hactive, hslot⟩
      obtain ⟨j, hj⟩ := List.mem_iff_getElem?.mp hd
      have hji : i ≠ j := by
        rintro rfl
        rw [hget] at hj
        rw [← Option.some.inj hj, hfree] at hactive
        cases hactive
      refine ⟨d, List.mem_iff_getElem?.mpr ⟨j, ?_⟩, hactive, hslot⟩
      rw [List.getElem?_set_ne hji, hj]

theorem lookupPubs_sameBut (ctx : SubCtx κ) (s : ℕ) (r : Reply) :
    SameBut s ctx (lookupPubs ctx s r).ctx := by
  refine lookupPubs_induction (fun _ ctx' => SameBut s ctx ctx') ⟨rfl, fun _ _ => rfl⟩ ?_
  intro done pub ctx' connected _ hsame
  have hadd := ctxAddPub_sameBut ctx' s pub.2.2 connected
  exact ⟨hadd.1.trans hsame.1, fun s' hs' => (hadd.2 s' hs').trans (hsame.2 s' hs')⟩

/-- **A lookup for a slot** changes what is connected for this slot only. -/
theorem ctxLookupSlot_sameBut (n : Subscriber κ) (s : ℕ) (r : Reply) :
    SameBut s n.ctx (ctxLookupSlot n s r).1.ctx := by
  cases hsock : n.masterSock with
  | none =>
    rw [ctxLookupSlot_of_none hsock]
    exact ⟨rfl, fun _ _ => rfl⟩
  | some sock =>
    rw [(ctxLookupSlot_of_some hsock s r).1]
    dsimp only
    split_ifs
    · exact lookupPubs_sameBut n.ctx s r
    · exact ⟨rfl, fun _ _ => rfl⟩

/-! ### Induction over runs -/

/-- Only the sockets are counted when the master is connected to. -/
theorem ctxReconnectMaster_ctx (n : Subscriber κ) (d : Redial) :
    ∃ opened, (ctxReconnectMaster n d).1.ctx = { n.ctx with opened := opened } := by
  simp only [ctxReconnectMaster]
  by_cases hconn : d.connected = true
  · refine ⟨n.ctx.opened + 1, ?_⟩
    rw [if_neg (not_not.mpr hconn)]
    split_ifs <;> rfl
  · exact ⟨n.ctx.opened, by rw [if_pos hconn]⟩

section Invariant

variable (I : SubCtx κ → Prop)
  (hadd : ∀ ctx s node connected, I ctx → I (ctxAddPub ctx s node connected).1)
  (hready : ∀ ctx i delivered, I ctx → I (spinEvent ctx i delivered).1)
  (hframe : ∀ ctx subSlots opened, I ctx → I { ctx with subSlots := subSlots, opened := opened })

include hadd in
theorem ctxLookupSlot_invariant {n : Subscriber κ} (h : I n.ctx) (s : ℕ) (r : Reply) :
    I (ctxLookupSlot n s r).1.ctx := by
  cases hsock : n.masterSock with
  | none => rwa [ctxLookupSlot_of_none hsock]
  | some sock =>
    have hpubs : I (lookupPubs n.ctx s r).ctx :=
      lookupPubs_induction (fun _ => I) h fun _ pub ctx' connected _ =>
        hadd ctx' s pub.2.2 connected
    rw [(ctxLookupSlot_of_some hsock s r).1]
    dsimp only
    split_ifs
    · exact hpubs
    · exact h

include hadd in
theorem slotLoop_invariant (wanted : SubCtx κ → ℕ → Bool) (replies : ℕ → Reply) {n : Subscriber κ}
    (h : I n.ctx) (slots : List ℕ) : I (slotLoop wanted replies n slots).1.ctx := by
  induction slots generalizing n with
  | nil => exact h
  | cons s slots ih =>
    rw [slotLoop]
    split_ifs
    · exact ih (ctxLookupSlot_invariant I hadd h s (replies s))
    · exact ih h

include hadd hframe in
theorem ctxReconnectAllPubs_invariant {n : Subscriber κ} (h : I n.ctx) (d : Redial)
    (replies : ℕ → Reply) : I (ctxReconnectAllPubs n d replies).1.ctx := by
  have hmaster : I (if n.masterSock = none then ctxReconnectMaster n d else (n, 0, [])).1.ctx := by
    split_ifs
    · obtain ⟨opened, hctx⟩ := ctxReconnectMaster_ctx n d
      rw [hctx]
      exact hframe n.ctx n.ctx.subSlots opened h
    · exact h
  rw [ctxReconnectAllPubs]
  generalize (if n.masterSock = none then ctxReconnectMaster n d else (n, 0, [])) = m at hmaster ⊢
  dsimp only
  split_ifs
  · exact hmaster
  · exact slotLoop_invariant I hadd slotUsed replies hmaster _

include hready in
theorem spinEvents_invariant {ctx : SubCtx κ} (h : I ctx) (events : List (ℕ × Bytes)) :
    I (spinEvents ctx events).1 := by
  induction events generalizing ctx with
  | nil => exact h
  | cons e events ih => exact ih (hready ctx e.1 e.2 h)

include hadd hready hframe in
theorem spinPass_invariant {n : Subscriber κ} (h : I n.ctx) (p : Pass) :
    I (spinPass n p).1.ctx := by
  have hfirst : I (if ctxActiveCount n.ctx = 0 then ctxReconnectAllPubs n p.redial p.replies
      else (n, [])).1.ctx := by
    split_ifs
    · exact ctxReconnectAllPubs_invariant I hadd hframe h p.redial p.replies
    · exact h
  rw [spinPass]
  generalize (if ctxActiveCount n.ctx = 0 then ctxReconnectAllPubs n p.redial p.replies
    else (n, [])) = a at hfirst ⊢
  dsimp only
  split_ifs
  · exact ctxReconnectAllPubs_invariant I hadd hframe hfirst p.redial' p.replies'
  · rw [spinConnected]
    refine spinEvents_invariant I hready ?_ p.ready
    split_ifs
    · exact slotLoop_invariant (n := { a.1 with lastReconnect := p.now }) I hadd _ _ hfirst _
    · exact hfirst

include hadd hready hframe in
/-- **Induction over runs**, for a property of the connections that no publisher and no message
takes away, and that does not depend on the subscriptions and the number of sockets. -/
theorem ctx_invariant (nodeName : Bytes) (h₀ : I (SubCtx.init []))
    (actions : List (SubscriberAction κ)) :
    I (subscriberMachine.state (cmosSubCreate nodeName) actions).ctx := by
  refine subscriberMachine.invariant (fun n => I n.ctx) (hframe _ [] 1 h₀) (fun n a h => ?_) actions
  cases a with
  | add topic filterState filterType filterKey cb r =>
    simp only [subscriberMachine, cmosSubAdd]
    split_ifs
    · exact h
    · refine ctxLookupSlot_invariant I hadd ?_ n.ctx.subSlots.length r
      exact hframe n.ctx _ n.ctx.opened h
  | pass p => exact spinPass_invariant I hadd hready hframe h p

end Invariant

end LoopCharger.Cmos

import Mathlib.Data.List.Nodup
import Mathlib.Order.BooleanAlgebra.Set
import LoopCharger.Lib.Slots
import LoopCharger.Lib.Usage
import LoopCharger.Cmos.Broadcast

/-!
# The array of subscribers

`sub_socks` and `sub_count` of `cmos_pub.c`, as they are in memory: `cmos_pub_poll` puts a
descriptor behind the last one, `cmos_publish` sends to each and closes those to which `send` fails,
moving the ones behind it up, and `cmos_pub_close` closes all. The results of `epoll_wait`, `accept`
and `send` are inputs; that the kernel does not give a descriptor that is open is a hypothesis on
them.

## Main definitions

* `PubSockets`: the descriptors of a publisher.
* `Registered`: the first `sub_count` entries are the open connections, and the others are free.
* `SentToEach`: what a publication does to the array.

## Main results

* `sendLoop_eq`: the loop over the subscribers.
* `subscribers_registered`: what each function does to the array.
* `subs_cmosPublish`: the array has the subscribers of `publishLoop`.
-/

namespace LoopCharger.Cmos

open Lib

/-! ### The descriptors -/

def CM_MAX_SUB_CLIENT : ℕ := 512

/-- The static descriptors of a publisher. -/
structure PubSockets where
  subSocks : List ℤ
  subCount : ℕ
  masterSock : ℤ
  listenSock : ℤ
  pubEpfd : ℤ

/-- What is seen of the descriptors: a connection is accepted, `send` to it returns `n`, or it is
closed; or one of the publisher's own is closed. -/
inductive SockEvent
  | accepted (fd : ℤ)
  | sent (fd n : ℤ)
  | closed (fd : ℤ)
  | closedOwn (fd : ℤ)
  deriving DecidableEq

namespace PubSockets

/-- What `cmos_pub_init` leaves when it succeeds. -/
def cmosPubInit (masterSock listenSock pubEpfd : ℤ) : PubSockets :=
  ⟨List.replicate CM_MAX_SUB_CLIENT (-1), 0, masterSock, listenSock, pubEpfd⟩

/-- `cmos_pub_poll`, where `ready` is whether `epoll_wait` finds a connection, and `c` is what
`accept` returns. -/
def cmosPubPoll (p : PubSockets) (ready : Bool) (c : ℤ) : PubSockets × List SockEvent :=
  if p.listenSock < 0 ∨ p.pubEpfd < 0 then (p, [])
  else if ¬ ready then (p, [])
  else if 0 ≤ c ∧ p.subCount < CM_MAX_SUB_CLIENT then
    ({ p with subSocks := p.subSocks.set p.subCount c, subCount := p.subCount + 1 }, [.accepted c])
  else if 0 ≤ c then (p, [.accepted c, .closed c])
  else (p, [])

/-- The entry `i` is taken out of the array. -/
def drop (p : PubSockets) (i : ℕ) : PubSockets :=
  { p with
    subSocks := (shiftDown (-1) p.subSocks i (p.subCount - 1 - i)).set (p.subCount - 1) (-1)
    subCount := p.subCount - 1 }

/-- The loop of `cmos_publish` from the index `i` on, behind `k` calls of `send`. -/
def sendLoop (result : ℕ → ℤ) : ℕ → ℕ → ℕ → PubSockets → PubSockets × List SockEvent
  | 0, _, _, p => (p, [])
  | fuel + 1, k, i, p =>
    if i < p.subCount then
      let fd := p.subSocks.getD i (-1)
      if result k ≤ 0 then
        let r := sendLoop result fuel (k + 1) i (p.drop i)
        (r.1, .sent fd (result k) :: .closed fd :: r.2)
      else
        let r := sendLoop result fuel (k + 1) (i + 1) p
        (r.1, .sent fd (result k) :: r.2)
    else (p, [])

/-- `cmos_publish` from its sends on, where `result` is what the calls of `send` return. -/
def cmosPublish (p : PubSockets) (result : ℕ → ℤ) : PubSockets × List SockEvent :=
  sendLoop result p.subCount 0 0 p

/-- The loop of `cmos_pub_close` over `n` entries from the index `i` on. -/
def closeLoop (socks : List ℤ) (i : ℕ) : ℕ → List ℤ × List SockEvent
  | 0 => (socks, [])
  | n + 1 =>
    let fd := socks.getD i (-1)
    let r := closeLoop (socks.set i (-1)) (i + 1) n
    (r.1, (if 0 ≤ fd then [.closed fd] else []) ++ r.2)

def closeOwn (fd : ℤ) : List SockEvent := if 0 ≤ fd then [.closedOwn fd] else []

/-- `cmos_pub_close`. -/
def cmosPubClose (p : PubSockets) : PubSockets × List SockEvent :=
  let r := closeLoop p.subSocks 0 p.subCount
  (⟨r.1, 0, if 0 ≤ p.masterSock then -1 else p.masterSock,
      if 0 ≤ p.listenSock then -1 else p.listenSock, if 0 ≤ p.pubEpfd then -1 else p.pubEpfd⟩,
    r.2 ++ closeOwn p.pubEpfd ++ closeOwn p.listenSock ++ closeOwn p.masterSock)

/-- The subscribers: the part of the array that is in use. -/
def subs (p : PubSockets) : List ℤ := p.subSocks.take p.subCount

/-! ### The loop over the subscribers -/

variable (result : ℕ → ℤ)

/-- The subscribers that stay, when the first one gets the result `k`. -/
def survivors (k : ℕ) (socks : List ℤ) : List ℤ :=
  ((socks.zipIdx k).filter (0 < result ·.2)).map (·.1)

/-- What is seen of one subscriber. -/
def sockEvents (s : ℤ × ℕ) : List SockEvent :=
  if result s.2 ≤ 0 then [.sent s.1 (result s.2), .closed s.1] else [.sent s.1 (result s.2)]

variable {result}

theorem survivors_cons_of_pos {k : ℕ} (h : 0 < result k) (fd : ℤ) (socks : List ℤ) :
    survivors result k (fd :: socks) = fd :: survivors result (k + 1) socks := by
  simp [survivors, List.zipIdx_cons, h]

theorem survivors_cons_of_le {k : ℕ} (h : result k ≤ 0) (fd : ℤ) (socks : List ℤ) :
    survivors result k (fd :: socks) = survivors result (k + 1) socks := by
  simp [survivors, List.zipIdx_cons, h]

theorem length_survivors_le (k : ℕ) (socks : List ℤ) :
    (survivors result k socks).length ≤ socks.length := by
  rw [survivors, List.length_map, ← List.length_zipIdx (l := socks) (i := k)]
  exact List.length_filter_le _ _

theorem survivors_sublist (k : ℕ) (socks : List ℤ) :
    (survivors result k socks).Sublist socks := by
  have hsub := (List.filter_sublist (p := fun s => decide (0 < result s.2))
    (l := socks.zipIdx k)).map (·.1)
  rwa [List.zipIdx_map_fst] at hsub

/-- An entry that is in use is taken out. -/
theorem drop_eq (kept : List ℤ) (fd : ℤ) (rest : List ℤ) (free : ℕ) (m l e : ℤ) :
    drop ⟨kept ++ fd :: rest ++ List.replicate free (-1), kept.length + (fd :: rest).length,
        m, l, e⟩ kept.length =
      ⟨kept ++ rest ++ List.replicate (free + 1) (-1), kept.length + rest.length, m, l, e⟩ := by
  have hlast : kept.length + (fd :: rest).length - 1 = kept.length + rest.length := by
    rw [List.length_cons]
    omega
  have hmoves : kept.length + rest.length - kept.length = rest.length := by omega
  have hset := set_shiftDown (-1) kept fd rest (List.replicate free (-1)) (-1)
  simp only [drop, hlast, hmoves, List.append_assoc, List.cons_append] at hset ⊢
  rw [hset, List.replicate_succ]

/-- **The loop over the subscribers**, behind those that it has passed and kept. -/
theorem sendLoop_eq {fuel : ℕ} (k : ℕ) (kept rest : List ℤ) (hfuel : rest.length ≤ fuel) (free : ℕ)
    (m l e : ℤ) :
    sendLoop result fuel k kept.length
        ⟨kept ++ rest ++ List.replicate free (-1), kept.length + rest.length, m, l, e⟩ =
      (⟨kept ++ survivors result k rest ++
          List.replicate (free + rest.length - (survivors result k rest).length) (-1),
        kept.length + (survivors result k rest).length, m, l, e⟩,
        (rest.zipIdx k).flatMap (sockEvents result)) := by
  induction rest generalizing k kept free fuel with
  | nil =>
    have hstop : ¬ kept.length < kept.length + ([] : List ℤ).length := Nat.lt_irrefl _
    cases fuel with
    | zero => rfl
    | succ fuel =>
      rw [sendLoop, if_neg hstop]
      rfl
  | cons fd rest ih =>
    obtain ⟨fuel, rfl⟩ := Nat.exists_eq_add_of_le' (Nat.lt_of_lt_of_le (Nat.succ_pos _) hfuel)
    have hrest : rest.length ≤ fuel := Nat.le_of_succ_le_succ hfuel
    have hgo : kept.length < kept.length + (fd :: rest).length := by simp
    have hfd : (kept ++ fd :: rest ++ List.replicate free (-1)).getD kept.length (-1) = fd := by
      simp [List.getD_eq_getElem?_getD]
    have hle : (survivors result (k + 1) rest).length ≤ rest.length :=
      length_survivors_le (k + 1) rest
    rw [sendLoop, if_pos hgo]
    simp only [hfd]
    by_cases hfail : result k ≤ 0
    · have hfree : free + 1 + rest.length - (survivors result (k + 1) rest).length =
          free + (fd :: rest).length - (survivors result (k + 1) rest).length := by
        rw [List.length_cons]
        omega
      rw [if_pos hfail, drop_eq, ih (k + 1) kept hrest, survivors_cons_of_le hfail, hfree,
        List.zipIdx_cons, List.flatMap_cons, sockEvents, if_pos hfail]
      rfl
    · have hpos : 0 < result k := Int.not_le.mp hfail
      have hshift : ∀ xs : List ℤ, kept ++ [fd] ++ xs = kept ++ fd :: xs := fun xs =>
        (List.append_cons kept fd xs).symm
      have hcount : ∀ xs : List ℤ, kept.length + 1 + xs.length = kept.length + (fd :: xs).length :=
        fun xs => by
          rw [List.length_cons]
          omega
      have hnext := ih (k + 1) (kept ++ [fd]) hrest free
      rw [List.length_append, List.length_singleton, hshift, hshift, hcount, hcount] at hnext
      have hfree : free + rest.length - (survivors result (k + 1) rest).length =
          free + (fd :: rest).length - (fd :: survivors result (k + 1) rest).length := by
        simp only [List.length_cons]
        omega
      rw [if_neg hfail, survivors_cons_of_pos hpos, ← hfree, hnext, List.zipIdx_cons,
        List.flatMap_cons, sockEvents, if_neg hfail]
      rfl

/-- The loop of `cmos_pub_close`, behind the entries that it has freed. -/
theorem closeLoop_eq (pre rest : List ℤ) (hrest : ∀ fd ∈ rest, 0 ≤ fd) (post : List ℤ) :
    closeLoop (pre ++ rest ++ post) pre.length rest.length =
      (pre ++ List.replicate rest.length (-1) ++ post, rest.map .closed) := by
  induction rest generalizing pre with
  | nil => rfl
  | cons fd rest ih =>
    obtain ⟨hfd, hrest⟩ := List.forall_mem_cons.mp hrest
    have hget : (pre ++ fd :: rest ++ post).getD pre.length (-1) = fd := by
      simp [List.getD_eq_getElem?_getD]
    have hset : (pre ++ fd :: rest ++ post).set pre.length (-1) = pre ++ [-1] ++ rest ++ post := by
      simp
    have hnext := ih (pre ++ [-1]) hrest
    rw [List.length_append, List.length_singleton] at hnext
    rw [List.length_cons, closeLoop]
    simp only [hget, hset, hnext, if_pos hfd]
    rw [List.replicate_succ, List.append_cons pre (-1) (List.replicate rest.length (-1))]
    rfl

end PubSockets

/-! ### The open connections -/

/-- What happens to a connection. -/
def SockEvent.use : SockEvent → Option (Usage ℤ)
  | .accepted fd => some (.acquire fd)
  | .sent fd _ => some (.use fd)
  | .closed fd => some (.release fd)
  | .closedOwn _ => none

/-- Exactly the first `sub_count` entries hold open connections, which are distinct, and the others
are free. -/
structure Registered (p : PubSockets) (events : List SockEvent) : Prop where
  size : p.subSocks.length = CM_MAX_SUB_CLIENT
  count_le : p.subCount ≤ CM_MAX_SUB_CLIENT
  rest : ∀ i, p.subCount ≤ i → i < CM_MAX_SUB_CLIENT → p.subSocks[i]? = some (-1)
  nonneg : ∀ fd ∈ p.subs, 0 ≤ fd
  nodup : p.subs.Nodup
  holding : Holding {fd | fd ∈ p.subs} (events.filterMap (·.use))

namespace Registered

variable {p : PubSockets} {events : List SockEvent}

theorem cmosPubInit (m l e : ℤ) : Registered (.cmosPubInit m l e) [] where
  size := List.length_replicate
  count_le := Nat.zero_le _
  rest i _ hi := by simp [PubSockets.cmosPubInit, hi]
  nonneg _ h := absurd h List.not_mem_nil
  nodup := List.nodup_nil
  holding := by
    have hnone : {fd | fd ∈ (PubSockets.cmosPubInit m l e).subs} = ∅ :=
      Set.eq_empty_iff_forall_notMem.mpr fun _ h => absurd h List.not_mem_nil
    rw [hnone]
    exact holding_nil

/-- The array is the subscribers and free entries. -/
theorem shape (h : Registered p events) :
    p.subs.length = p.subCount ∧
      p.subSocks = p.subs ++ List.replicate (CM_MAX_SUB_CLIENT - p.subCount) (-1) := by
  have hsize := h.size
  have hle := h.count_le
  refine ⟨by rw [PubSockets.subs, List.length_take]; omega, ?_⟩
  have hrest : p.subSocks.drop p.subCount =
      List.replicate (CM_MAX_SUB_CLIENT - p.subCount) (-1) := by
    refine List.ext_getElem? fun i => ?_
    rw [List.getElem?_drop, List.getElem?_replicate]
    split_ifs with hi
    · exact h.rest _ (Nat.le_add_right _ _) (by omega)
    · exact List.getElem?_eq_none (by omega)
  rw [← hrest, PubSockets.subs, List.take_append_drop]

/-- An array of subscribers and free entries. -/
theorem of_shape {subs : List ℤ} {m l e : ℤ} (hle : subs.length ≤ CM_MAX_SUB_CLIENT)
    (hnonneg : ∀ fd ∈ subs, 0 ≤ fd) (hnodup : subs.Nodup)
    (hholding : Holding {fd | fd ∈ subs} (events.filterMap (·.use))) :
    Registered ⟨subs ++ List.replicate (CM_MAX_SUB_CLIENT - subs.length) (-1), subs.length,
      m, l, e⟩ events := by
  have hsubs : PubSockets.subs ⟨subs ++ List.replicate (CM_MAX_SUB_CLIENT - subs.length) (-1),
      subs.length, m, l, e⟩ = subs := List.take_left
  refine ⟨?_, hle, fun i hle hi => ?_, by rwa [hsubs], by rwa [hsubs], by rwa [hsubs]⟩
  · simp only [List.length_append, List.length_replicate]
    omega
  · dsimp only at hle
    rw [List.getElem?_append_right hle, List.getElem?_replicate, if_pos (by omega)]

/-- What `cmos_publish` does. -/
theorem cmosPublish_eq (h : Registered p events) (result : ℕ → ℤ) :
    p.cmosPublish result =
      (⟨PubSockets.survivors result 0 p.subs ++ List.replicate
          (CM_MAX_SUB_CLIENT - (PubSockets.survivors result 0 p.subs).length) (-1),
        (PubSockets.survivors result 0 p.subs).length, p.masterSock, p.listenSock, p.pubEpfd⟩,
        p.subs.zipIdx.flatMap (PubSockets.sockEvents result)) := by
  obtain ⟨hlen, hsocks⟩ := h.shape
  have hle := h.count_le
  have hp : p = ⟨p.subs ++ List.replicate (CM_MAX_SUB_CLIENT - p.subCount) (-1), p.subs.length,
      p.masterSock, p.listenSock, p.pubEpfd⟩ := by
    rw [← hsocks, hlen]
  have hloop : PubSockets.sendLoop result p.subs.length 0 _ _ = _ :=
    PubSockets.sendLoop_eq 0 [] p.subs (Nat.le_refl _) (CM_MAX_SUB_CLIENT - p.subCount)
      p.masterSock p.listenSock p.pubEpfd
  have hfree : CM_MAX_SUB_CLIENT - p.subCount + p.subs.length = CM_MAX_SUB_CLIENT := by omega
  simp only [List.nil_append, List.length_nil, Nat.zero_add, hfree, ← hp] at hloop
  rw [PubSockets.cmosPublish, ← hlen, hloop]

/-- The sends use the open connections, and those that fail are closed. -/
theorem holding_sends (result : ℕ → ℤ) (k : ℕ) {kept rest : List ℤ} (hnodup : (kept ++ rest).Nodup)
    {us : List (Usage ℤ)} (h : Holding {fd | fd ∈ kept ++ rest} us) :
    Holding {fd | fd ∈ kept ++ PubSockets.survivors result k rest}
      (us ++ ((rest.zipIdx k).flatMap (PubSockets.sockEvents result)).filterMap (·.use)) := by
  induction rest generalizing k kept us with
  | nil => rwa [List.zipIdx_nil, List.flatMap_nil, List.filterMap_nil, List.append_nil]
  | cons fd rest ih =>
    have hmem : fd ∈ {x | x ∈ kept ++ fd :: rest} := by simp
    have hused := h.use hmem
    rw [List.zipIdx_cons, List.flatMap_cons, List.filterMap_append, ← List.append_assoc]
    by_cases hfail : result k ≤ 0
    · have hperm : (kept ++ fd :: rest).Perm (fd :: (kept ++ rest)) := List.perm_middle
      obtain ⟨hout, hnodup⟩ := List.nodup_cons.mp (hperm.nodup_iff.mp hnodup)
      have hset : {x | x ∈ kept ++ fd :: rest} \ {fd} = {x | x ∈ kept ++ rest} := by
        ext x
        simp only [Set.mem_sdiff, Set.mem_ofPred_eq, Set.mem_singleton_iff, List.mem_append,
          List.mem_cons] at hout ⊢
        constructor
        · rintro ⟨hkept | heq | hrest, hne⟩
          · exact .inl hkept
          · exact absurd heq hne
          · exact .inr hrest
        · rintro (hkept | hrest)
          · exact ⟨.inl hkept, fun heq => hout (.inl (heq ▸ hkept))⟩
          · exact ⟨.inr (.inr hrest), fun heq => hout (.inr (heq ▸ hrest))⟩
      have hclosed := hused.release hmem
      rw [hset, List.append_assoc] at hclosed
      rw [PubSockets.survivors_cons_of_le hfail, PubSockets.sockEvents, if_pos hfail]
      exact ih (k + 1) hnodup hclosed
    · rw [List.append_cons] at hnodup hused
      rw [PubSockets.survivors_cons_of_pos (Int.not_le.mp hfail), PubSockets.sockEvents,
        if_neg hfail, List.append_cons]
      exact ih (k + 1) hnodup hused

/-- The closes leave none open. -/
theorem holding_closes {rest : List ℤ} (hnodup : rest.Nodup) {us : List (Usage ℤ)}
    (h : Holding {fd | fd ∈ rest} us) :
    Holding ∅ (us ++ (rest.map SockEvent.closed).filterMap (·.use)) := by
  induction rest generalizing us with
  | nil =>
    have hnone : {fd : ℤ | fd ∈ ([] : List ℤ)} = ∅ :=
      Set.eq_empty_iff_forall_notMem.mpr fun _ h => absurd h List.not_mem_nil
    rw [hnone] at h
    rwa [List.map_nil, List.filterMap_nil, List.append_nil]
  | cons fd rest ih =>
    obtain ⟨hout, hnodup⟩ := List.nodup_cons.mp hnodup
    have hset : {x | x ∈ fd :: rest} \ {fd} = {x | x ∈ rest} := by
      ext x
      simp only [Set.mem_sdiff, Set.mem_ofPred_eq, Set.mem_singleton_iff, List.mem_cons]
      constructor
      · rintro ⟨hx, hne⟩
        exact hx.resolve_left hne
      · exact fun hx => ⟨.inr hx, ne_of_mem_of_not_mem hx hout⟩
    have hclosed := h.release (List.mem_cons_self (a := fd) (l := rest))
    rw [hset] at hclosed
    have hrest := ih hnodup hclosed
    rwa [List.append_assoc] at hrest

end Registered

/-! ### What each function does -/

def SockEvent.sendTo : SockEvent → Option (ℤ × ℤ)
  | .sent fd n => some (fd, n)
  | _ => none

def SockEvent.closedFd : SockEvent → Option ℤ
  | .closed fd => some fd
  | _ => none

/-- A publication sends once to each subscriber, in order, closes exactly those to which `send`
fails, and leaves the others in their order, with every other entry free. -/
structure SentToEach (p : PubSockets) (result : ℕ → ℤ)
    (r : PubSockets × List SockEvent) : Prop where
  sends : r.2.filterMap (·.sendTo) = p.subs.zipIdx.map fun s => (s.1, result s.2)
  closes : r.2.filterMap (·.closedFd) = (p.subs.zipIdx.filter (result ·.2 ≤ 0)).map (·.1)
  survivors : r.1.subs = (p.subs.zipIdx.filter (0 < result ·.2)).map (·.1)
  rest : ∀ i, r.1.subCount ≤ i → i < CM_MAX_SUB_CLIENT → r.1.subSocks[i]? = some (-1)

theorem sends_flatMap (result : ℕ → ℤ) (xs : List (ℤ × ℕ)) :
    (xs.flatMap (PubSockets.sockEvents result)).filterMap (·.sendTo) =
      xs.map fun s => (s.1, result s.2) := by
  induction xs with
  | nil => rfl
  | cons s xs ih =>
    rw [List.flatMap_cons, List.filterMap_append, ih, PubSockets.sockEvents]
    split_ifs <;> rfl

theorem closes_flatMap (result : ℕ → ℤ) (xs : List (ℤ × ℕ)) :
    (xs.flatMap (PubSockets.sockEvents result)).filterMap (·.closedFd) =
      (xs.filter (result ·.2 ≤ 0)).map (·.1) := by
  induction xs with
  | nil => rfl
  | cons s xs ih =>
    rw [List.flatMap_cons, List.filterMap_append, ih, PubSockets.sockEvents, List.filter_cons]
    by_cases hfail : result s.2 ≤ 0
    · simp [hfail, SockEvent.closedFd]
    · simp [hfail, SockEvent.closedFd]

variable {p : PubSockets} {events : List SockEvent}

/-- A line is published. -/
theorem Registered.publish (h : Registered p events) (result : ℕ → ℤ) :
    Registered (p.cmosPublish result).1 (events ++ (p.cmosPublish result).2) := by
  have hsub : (PubSockets.survivors result 0 p.subs).Sublist p.subs :=
    PubSockets.survivors_sublist 0 p.subs
  have hle := Nat.le_trans hsub.length_le (h.shape.1.trans_le h.count_le)
  have hholding := holding_sends result 0 (show ([] ++ p.subs).Nodup from h.nodup) h.holding
  rw [h.cmosPublish_eq]
  refine .of_shape hle (fun fd hfd => h.nonneg fd (hsub.subset hfd)) (hsub.nodup h.nodup) ?_
  rwa [List.filterMap_append]

theorem Registered.sentToEach (h : Registered p events) (result : ℕ → ℤ) :
    SentToEach p result (p.cmosPublish result) where
  sends := by rw [h.cmosPublish_eq, sends_flatMap]
  closes := by rw [h.cmosPublish_eq, closes_flatMap]
  survivors := by
    rw [h.cmosPublish_eq]
    exact List.take_left
  rest := (h.publish result).rest

/-- The kernel gives no descriptor that is open. -/
def FreshSockets (events : List SockEvent) : Prop :=
  Always (fun before e => ∀ fd, e = .accepted fd → held fd (before.filterMap (·.use)) = false)
    events

/-- A descriptor that is not open is not one of a subscriber. -/
theorem Registered.notMem_subs (h : Registered p events) {c : ℤ} {new : List SockEvent}
    (hfresh : FreshSockets (events ++ .accepted c :: new)) : c ∉ p.subs := fun hmem => by
  have hheld := (h.holding.2 c).mpr hmem
  rw [hfresh events _ _ rfl c rfl] at hheld
  cases hheld

/-- A connection is accepted, and there is room for it. -/
theorem Registered.accept (h : Registered p events) {c : ℤ} (hc : 0 ≤ c)
    (hlt : p.subCount < CM_MAX_SUB_CLIENT) (hout : c ∉ p.subs) :
    Registered { p with subSocks := p.subSocks.set p.subCount c, subCount := p.subCount + 1 }
      (events ++ [.accepted c]) := by
  obtain ⟨hlen, hsocks⟩ := h.shape
  have hset : p.subSocks.set p.subCount c = p.subs ++ [c] ++
      List.replicate (CM_MAX_SUB_CLIENT - (p.subs ++ [c]).length) (-1) := by
    have hfree : CM_MAX_SUB_CLIENT - p.subCount =
        CM_MAX_SUB_CLIENT - (p.subs ++ [c]).length + 1 := by
      rw [List.length_append, List.length_singleton]
      omega
    rw [hsocks, hfree, List.replicate_succ, ← hlen]
    simp
  have hcount : p.subCount + 1 = (p.subs ++ [c]).length := by
    rw [List.length_append, List.length_singleton, hlen]
  have hinsert : {fd | fd ∈ p.subs ++ [c]} = insert c {fd | fd ∈ p.subs} := by
    ext fd
    simp [or_comm]
  rw [hset, hcount]
  refine .of_shape (by omega) (fun fd hfd => ?_) ?_ ?_
  · rcases List.mem_append.mp hfd with hfd | hfd
    · exact h.nonneg fd hfd
    · exact List.mem_singleton.mp hfd ▸ hc
  · exact h.nodup.append (List.nodup_singleton c) (List.disjoint_singleton.mpr hout)
  · rw [hinsert, List.filterMap_append]
    exact h.holding.acquire hout

/-- A connection is accepted and closed again. -/
theorem Registered.refuse (h : Registered p events) {c : ℤ} (hout : c ∉ p.subs) :
    Registered p (events ++ [.accepted c, .closed c]) := by
  refine ⟨h.size, h.count_le, h.rest, h.nonneg, h.nodup, ?_⟩
  have hset : insert c {fd | fd ∈ p.subs} \ {c} = {fd | fd ∈ p.subs} :=
    Set.insert_sdiff_self_of_notMem hout
  have hreleased := (h.holding.acquire hout).release (Set.mem_insert c _)
  rw [hset, List.append_assoc] at hreleased
  rwa [List.filterMap_append]

/-- A connection may have come. -/
theorem Registered.poll (h : Registered p events) (ready : Bool) {c : ℤ}
    (hfresh : FreshSockets (events ++ (p.cmosPubPoll ready c).2)) :
    Registered (p.cmosPubPoll ready c).1 (events ++ (p.cmosPubPoll ready c).2) := by
  have hsame : Registered p (events ++ []) := by rwa [List.append_nil]
  rw [PubSockets.cmosPubPoll] at hfresh ⊢
  by_cases hdown : p.listenSock < 0 ∨ p.pubEpfd < 0
  · rwa [if_pos hdown]
  rw [if_neg hdown] at hfresh ⊢
  by_cases hready : ¬ ready = true
  · rwa [if_pos hready]
  rw [if_neg hready] at hfresh ⊢
  by_cases hroom : 0 ≤ c ∧ p.subCount < CM_MAX_SUB_CLIENT
  · rw [if_pos hroom] at hfresh ⊢
    exact h.accept hroom.1 hroom.2 (h.notMem_subs hfresh)
  rw [if_neg hroom] at hfresh ⊢
  split_ifs at hfresh ⊢ with hrefused
  · exact h.refuse (h.notMem_subs hfresh)
  · exact hsame

/-- All connections are closed. -/
theorem Registered.close (h : Registered p events) :
    Registered p.cmosPubClose.1 (events ++ p.cmosPubClose.2) := by
  obtain ⟨hlen, hsocks⟩ := h.shape
  have hloop := PubSockets.closeLoop_eq [] p.subs h.nonneg
    (List.replicate (CM_MAX_SUB_CLIENT - p.subCount) (-1))
  have hle := h.count_le
  have hfree : p.subCount + (CM_MAX_SUB_CLIENT - p.subCount) = CM_MAX_SUB_CLIENT := by omega
  rw [List.nil_append, ← hsocks, List.length_nil, hlen, List.nil_append,
    List.replicate_append_replicate, hfree] at hloop
  have hown : ∀ fd, (PubSockets.closeOwn fd).filterMap (·.use) = [] := fun fd => by
    rw [PubSockets.closeOwn]
    split_ifs <;> rfl
  have hclosed := holding_closes h.nodup h.holding
  have hnone : {fd : ℤ | fd ∈ ([] : List ℤ)} = ∅ :=
    Set.eq_empty_iff_forall_notMem.mpr fun _ h => absurd h List.not_mem_nil
  have hempty : ([] : List ℤ).length ≤ CM_MAX_SUB_CLIENT := Nat.zero_le _
  rw [PubSockets.cmosPubClose, hloop]
  refine .of_shape hempty (fun _ h => absurd h List.not_mem_nil) List.nodup_nil ?_
  simp only [List.filterMap_append, hown, List.append_nil, hnone]
  exact hclosed

/-! ### Runs -/

inductive SockAction
  | poll (ready : Bool) (c : ℤ)
  | publish (result : ℕ → ℤ)
  | close

/-- The publisher's descriptors as a machine. -/
def sockMachine : Machine PubSockets SockAction SockEvent where
  step p
    | .poll ready c => p.cmosPubPoll ready c
    | .publish result => p.cmosPublish result
    | .close => p.cmosPubClose

/-- **In every run** from `cmos_pub_init` on, the array has the open connections. -/
theorem registered (m l e : ℤ) (actions : List SockAction)
    (hfresh : FreshSockets (sockMachine.trace (.cmosPubInit m l e) actions)) :
    Registered (sockMachine.state (.cmosPubInit m l e) actions)
      (sockMachine.trace (.cmosPubInit m l e) actions) := by
  refine sockMachine.trace_invariant (fun p events => FreshSockets events → Registered p events)
    (fun _ => .cmosPubInit m l e) (fun p events a h hfresh => ?_) actions hfresh
  have hold := h (Always.of_append hfresh)
  cases a with
  | poll ready c => exact hold.poll ready hfresh
  | publish result => exact hold.publish result
  | close => exact hold.close

/-! ### The results -/

theorem survivors_map (ns : List ℕ) (fd : ℕ → ℤ) {result sockResult : ℕ → ℤ} (k : ℕ)
    (hresult : ∀ i sock, ns[i]? = some sock → result (k + i) = sockResult sock) :
    PubSockets.survivors result k (ns.map fd) = (ns.filter (0 < sockResult ·)).map fd := by
  induction ns generalizing k with
  | nil => rfl
  | cons sock ns ih =>
    have hfirst : result k = sockResult sock := hresult 0 sock rfl
    have hrest := ih (k + 1) fun i sock hget => by
      rw [Nat.add_assoc, Nat.add_comm 1]
      exact hresult (i + 1) sock hget
    rw [List.map_cons, List.filter_cons, ← hfirst]
    by_cases hpos : 0 < result k
    · rw [PubSockets.survivors_cons_of_pos hpos, hrest, if_pos (decide_eq_true hpos), List.map_cons]
    · rw [PubSockets.survivors_cons_of_le (Int.not_lt.mp hpos), hrest,
        if_neg (by simpa using hpos)]

/-- The subscribers in the array are those of `publishLoop`, when the sockets of the latter have the
descriptors `fd`. -/
theorem subs_cmosPublish (h : Registered p events) {ns : List ℕ} {fd : ℕ → ℤ}
    (hsubs : p.subs = ns.map fd) (line : Bytes) {result sockResult : ℕ → ℤ}
    (hresult : ∀ k sock, ns[k]? = some sock → result k = sockResult sock) :
    (p.cmosPublish result).1.subs = (publishLoop line sockResult ns.length ns 0).1.map fd := by
  have hloop := publishLoop_eq line sockResult [] ns (Nat.le_refl _)
  rw [List.length_nil, List.nil_append, List.nil_append] at hloop
  rw [(h.sentToEach result).survivors, hloop, hsubs]
  exact survivors_map ns fd 0 fun i sock hget => by rw [Nat.zero_add, hresult i sock hget]

/-- **What each function does to the array of subscribers**, of any number of them and with any
results of `send`. -/
theorem subscribers_registered (h : Registered p events) :
    (∀ result, SentToEach p result (p.cmosPublish result) ∧
      Registered (p.cmosPublish result).1 (events ++ (p.cmosPublish result).2)) ∧
    (∀ ready c, FreshSockets (events ++ (p.cmosPubPoll ready c).2) →
      Registered (p.cmosPubPoll ready c).1 (events ++ (p.cmosPubPoll ready c).2)) ∧
    Registered p.cmosPubClose.1 (events ++ p.cmosPubClose.2) :=
  ⟨fun result => ⟨h.sentToEach result, h.publish result⟩, fun ready _ => h.poll ready, h.close⟩

/-- Three subscribers, and the `send` to the second one fails. -/
theorem subscribers_registered_second :
    let p := sockMachine.state (.cmosPubInit 3 4 5) [.poll true 6, .poll true 7, .poll true 8]
    (p.cmosPublish fun k => if k = 1 then -1 else 20).1.subs = [6, 8] := by
  intro p
  have hfresh : FreshSockets
      (sockMachine.trace (.cmosPubInit 3 4 5) [.poll true 6, .poll true 7, .poll true 8]) := by
    have hevents : sockMachine.trace (.cmosPubInit 3 4 5)
        [.poll true 6, .poll true 7, .poll true 8] =
        [] ++ [.accepted 6] ++ [.accepted 7] ++ [.accepted 8] := by decide +kernel
    rw [FreshSockets, hevents, always_concat, always_concat, always_concat]
    refine ⟨⟨⟨always_nil, ?_⟩, ?_⟩, ?_⟩ <;> rintro _ ⟨⟩ <;> rfl
  have h := registered 3 4 5 _ hfresh
  rw [((subscribers_registered h).1 fun k => if k = 1 then -1 else 20).1.survivors]
  decide +kernel

end LoopCharger.Cmos

import LoopCharger.Lib.Machine
import LoopCharger.Lib.Slots
import LoopCharger.Lib.Usage
import LoopCharger.Modbus.Defines

/-!
# The links that the I/O threads report

`mb_tcp_server_thread`, `mb_tcp_client_thread` and `mb_tcp_stop` of `modbus_tcp.c`: the descriptors
in `client_fds` and `stream_sock`, and the calls of `on_link`. A run is a number of passes of the
loop of the thread, which then ends, and what `mb_tcp_stop` does behind `pthread_join`. The results
of `select`, `accept`, `recv`, `mb_tcp_connect` and `on_process` are inputs; that the kernel does
not give a descriptor that is open is a hypothesis on them.

The client thread reports the link that it has when it ends. `mb_tcp_stop` closes the descriptors
that the server thread leaves in `client_fds`, and reports nothing.

## Main definitions

* `serverPass`, `clientPass`: one pass of the loop of each thread.
* `IoRun.events`: what is seen of a run.
* `LinksPaired`: every link is reported up and down in turns, and in the end down.

## Main results

* `Reported.pass`: the links that are reported up are those of the descriptors in the slots.
* `links_paired_iff`: the runs in which the links are paired.
-/

namespace LoopCharger.Modbus

open Lib

/-! ### The threads -/

/-- What is seen of a thread: a descriptor that the kernel gives, a call of `on_link`, and a
descriptor that is closed. -/
inductive IoEvent
  | opened (fd : ℕ)
  | link (fd : ℕ) (connected : Bool)
  | closed (fd : ℕ)
  deriving DecidableEq

def effectiveMaxClients (maxClients : UInt8) : ℕ :=
  if maxClients = 0 ∨ maxClients.toNat > MB_TCP_MAX_CLIENTS then MB_TCP_MAX_CLIENTS
  else maxClients.toNat

/-- One pass of the loop of the server: what `select` returns, and what is then found. -/
inductive ServerPass
  | error
  /-- Nothing is ready, and `recv` looks at each client. -/
  | timeout (check : ℕ → ℤ)
  /-- Something is ready, or `select` was interrupted. -/
  | ready (listening : Bool) (accepted : Option ℕ) (isSet : ℕ → Bool) (process : ℕ → ℤ)

/-- The loops over the slots: a client that is lost is closed and reported. -/
def dropClients (lost : ℕ → Bool) (fds : List ℕ) : List ℕ → List ℕ × List IoEvent
  | [] => (fds, [])
  | i :: is =>
    let sd := fds.getD i 0
    if sd > 0 ∧ lost sd then
      let r := dropClients lost (fds.set i 0) is
      (r.1, .closed sd :: .link sd false :: r.2)
    else dropClients lost fds is

/-- One pass of the loop of `mb_tcp_server_thread`, where `onProcess` is whether there is a
callback. -/
def serverPass (maxClients : ℕ) (onProcess : Bool) (fds : List ℕ) :
    ServerPass → List ℕ × List IoEvent
  | .error => (fds, [])
  | .timeout check => dropClients (fun sd => check sd = 0) fds (List.range maxClients)
  | .ready listening accepted isSet process =>
    let serve (fds : List ℕ) :=
      dropClients (fun sd => isSet sd && onProcess && process sd < 0) fds (List.range maxClients)
    if ¬ listening then serve fds
    else
      match accepted with
      | none => (fds, [])
      | some fd =>
        match (fds.take maxClients).findIdx? (· == 0) with
        | none => (fds, [.opened fd, .closed fd])
        | some i =>
          let r := serve (fds.set i fd)
          (r.1, .opened fd :: .link fd true :: r.2)

/-- The server as a machine. -/
def serverMachine (maxClients : ℕ) (onProcess : Bool) : Machine (List ℕ) ServerPass IoEvent where
  step := serverPass maxClients onProcess

/-- The slots when the thread starts. -/
def noClients : List ℕ := List.replicate MB_TCP_MAX_CLIENTS 0

/-- What `mb_tcp_stop` does with the slots. -/
def stopServer (fds : List ℕ) : List IoEvent := (fds.filter (0 < ·)).map .closed

/-- One pass of the loop of the client: what `mb_tcp_connect` gives, and what `on_process`
returns. -/
structure ClientPass where
  connect : Option ℕ
  process : ℤ

/-- The part of a pass that is reached with a connection. -/
def clientServe (onProcess : Bool) (sock : ℕ) (p : ClientPass) : Option ℕ × List IoEvent :=
  if onProcess ∧ p.process < 0 then (none, [.link sock false, .closed sock]) else (some sock, [])

/-- One pass of the loop of `mb_tcp_client_thread`: `sock`, which is -1 when `connected` is 0. -/
def clientPass (onProcess : Bool) (sock : Option ℕ) (p : ClientPass) : Option ℕ × List IoEvent :=
  match sock with
  | some sock => clientServe onProcess sock p
  | none =>
    match p.connect with
    | none => (none, [])
    | some sock =>
      let r := clientServe onProcess sock p
      (r.1, .opened sock :: .link sock true :: r.2)

/-- The client as a machine. -/
def clientMachine (onProcess : Bool) : Machine (Option ℕ) ClientPass IoEvent where
  step := clientPass onProcess

/-- The end of the client thread, and what `mb_tcp_stop` does with its descriptor. -/
def stopClient (sock : Option ℕ) : List IoEvent :=
  sock.toList.flatMap fun fd => [.link fd false, .closed fd]

/-- A run of the thread, in each mode. -/
inductive IoRun
  | listenServer (passes : List ServerPass)
  | connectClient (passes : List ClientPass)

/-- What is seen of a run and of `mb_tcp_stop`. -/
def IoRun.events (maxClients : UInt8) (onProcess : Bool) : IoRun → List IoEvent
  | .listenServer passes =>
    let M := serverMachine (effectiveMaxClients maxClients) onProcess
    M.trace noClients passes ++ stopServer (M.state noClients passes)
  | .connectClient passes =>
    let M := clientMachine onProcess
    M.trace none passes ++ stopClient (M.state none passes)

/-! ### Links and descriptors -/

/-- The link that an event reports. -/
def IoEvent.linkUse : IoEvent → Option (Usage ℕ)
  | .link fd true => some (.acquire fd)
  | .link fd false => some (.release fd)
  | _ => none

/-- The descriptor that an event opens or closes. -/
def IoEvent.fdUse : IoEvent → Option (Usage ℕ)
  | .opened fd => some (.acquire fd)
  | .closed fd => some (.release fd)
  | _ => none

/-- **The links are paired**: for each descriptor, up and down are reported in turns, beginning with
up, and in the end no link is up. -/
def LinksPaired (events : List IoEvent) : Prop := Holding ∅ (events.filterMap (·.linkUse))

/-- The kernel gives only descriptors that are not open. -/
def FreshDescriptors (events : List IoEvent) : Prop :=
  Always (fun before e => ∀ fd, e = .opened fd → held fd (before.filterMap (·.fdUse)) = false)
    events

/-! ### The slots of the server -/

/-- The descriptor in a slot. -/
def slotFd (fd : ℕ) : Option ℕ := if fd = 0 then none else some fd

/-- The links that are up: those of the descriptors in the slots, and that of the descriptor 0,
which looks like a free slot. -/
def linksUp (fds : List ℕ) (events : List IoEvent) : Set ℕ :=
  {fd | (fd ≠ 0 ∧ fd ∈ fds) ∨ (fd = 0 ∧ .link 0 true ∈ events)}

/-- The slots against the history. -/
structure Reported (fds : List ℕ) (events : List IoEvent) : Prop where
  distinct : KeysDistinct slotFd fds
  links : Holding (linksUp fds events) (events.filterMap (·.linkUse))
  descriptors : ∀ fd,
    held fd (events.filterMap (·.fdUse)) = held fd (events.filterMap (·.linkUse))

/-- What happens to a descriptor as to its link keeps the two equal. -/
theorem held_append_of_eq {events new : List IoEvent}
    (h : ∀ fd, held fd (events.filterMap (·.fdUse)) = held fd (events.filterMap (·.linkUse)))
    (hnew : new.filterMap (·.fdUse) = new.filterMap (·.linkUse)) (fd : ℕ) :
    held fd ((events ++ new).filterMap (·.fdUse)) =
      held fd ((events ++ new).filterMap (·.linkUse)) := by
  rw [List.filterMap_append, List.filterMap_append, held_append, held_append, h fd, hnew]

theorem slotFd_eq_some {fd k : ℕ} : slotFd fd = some k ↔ fd = k ∧ fd ≠ 0 := by
  rw [slotFd]
  split_ifs with hzero
  · simp [hzero]
  · simp [hzero]

theorem Reported.noClients : Reported noClients [] where
  distinct := keysDistinct_of_free fun fd hfd => if_pos (List.eq_of_mem_replicate hfd)
  links := by
    have hnone : linksUp Modbus.noClients [] = ∅ := by
      ext fd
      refine iff_of_false ?_ (Set.notMem_empty fd)
      rintro (⟨hne, hmem⟩ | ⟨-, hmem⟩)
      · exact hne (List.eq_of_mem_replicate hmem)
      · cases hmem
    rw [hnone]
    exact holding_nil
  descriptors _ := rfl

/-- A client is lost. -/
theorem Reported.drop {fds : List ℕ} {events : List IoEvent} (h : Reported fds events) {i sd : ℕ}
    (hget : fds[i]? = some sd) (hsd : sd ≠ 0) :
    Reported (fds.set i 0) (events ++ [.closed sd, .link sd false]) where
  distinct := h.distinct.set hget fun k hk => by simp [slotFd] at hk
  links := by
    have hup : sd ∈ linksUp fds events := .inl ⟨hsd, List.mem_of_getElem? hget⟩
    have hrest : linksUp fds events \ {sd} =
        linksUp (fds.set i 0) (events ++ [.closed sd, .link sd false]) := by
      ext fd
      have hzero : .link 0 true ∈ events ++ [.closed sd, .link sd false] ↔
          .link 0 true ∈ events := by
        simp
      have hslot : (fd ≠ 0 ∧ fd ∈ fds) ∧ fd ≠ sd ↔ fd ≠ 0 ∧ fd ∈ fds.set i 0 := by
        constructor
        · rintro ⟨⟨hne, hmem⟩, hfd⟩
          exact ⟨hne, mem_set_of_ne hget hmem hfd⟩
        · rintro ⟨hne, hmem⟩
          obtain ⟨j, hj⟩ := List.mem_iff_getElem?.mp hmem
          rcases getElem?_set_cases hj with ⟨-, rfl⟩ | ⟨hji, hj⟩
          · exact absurd rfl hne
          · refine ⟨⟨hne, List.mem_of_getElem? hj⟩, fun heq => hji ?_⟩
            exact h.distinct j i fd sd fd hj hget (slotFd_eq_some.mpr ⟨rfl, hne⟩)
              (slotFd_eq_some.mpr ⟨heq.symm, hsd⟩)
      simp only [linksUp, Set.mem_sdiff, Set.mem_ofPred_eq, Set.mem_singleton_iff, hzero]
      rw [← hslot]
      constructor
      · rintro ⟨hfd | hfd, hne⟩
        · exact .inl ⟨hfd, hne⟩
        · exact .inr hfd
      · rintro (⟨hfd, hne⟩ | hfd)
        · exact ⟨.inl hfd, hne⟩
        · exact ⟨.inr hfd, fun heq => hsd (heq ▸ hfd.1)⟩
    rw [← hrest, List.filterMap_append]
    exact h.links.release hup
  descriptors := held_append_of_eq h.descriptors rfl

/-- A descriptor that is not open has no link. -/
theorem Reported.notMem_linksUp {fds : List ℕ} {events : List IoEvent} (h : Reported fds events)
    {fd : ℕ} (hfree : held fd (events.filterMap (·.fdUse)) = false) : fd ∉ linksUp fds events := by
  intro hup
  have hheld := (h.links.2 fd).mpr hup
  rw [← h.descriptors, hfree] at hheld
  cases hheld

/-- A client is accepted. -/
theorem Reported.place {fds : List ℕ} {events : List IoEvent} (h : Reported fds events) {i fd : ℕ}
    (hget : fds[i]? = some 0) (hfree : held fd (events.filterMap (·.fdUse)) = false) :
    Reported (fds.set i fd) (events ++ [.opened fd, .link fd true]) where
  distinct := by
    refine h.distinct.set hget fun k hk => .inr fun x hx hxk => ?_
    obtain ⟨rfl, hne⟩ := slotFd_eq_some.mp hk
    obtain ⟨rfl, -⟩ := slotFd_eq_some.mp hxk
    exact h.notMem_linksUp hfree (.inl ⟨hne, hx⟩)
  links := by
    have hmore : insert fd (linksUp fds events) =
        linksUp (fds.set i fd) (events ++ [.opened fd, .link fd true]) := by
      ext k
      have hzero : .link 0 true ∈ events ++ [.opened fd, .link fd true] ↔
          .link 0 true ∈ events ∨ fd = 0 := by
        simp [eq_comm]
      have hslot : k ≠ 0 ∧ k ∈ fds.set i fd ↔ k ≠ 0 ∧ (k = fd ∨ k ∈ fds) := by
        refine and_congr_right fun hne => ?_
        constructor
        · exact fun hmem => (List.mem_or_eq_of_mem_set hmem).symm
        · rintro (rfl | hmem)
          · exact List.mem_set (List.getElem?_eq_some_iff.mp hget).1 k
          · exact mem_set_of_ne hget hmem hne
      simp only [linksUp, Set.mem_insert_iff, Set.mem_ofPred_eq, hzero, hslot]
      by_cases hk : k = 0
      · subst hk
        simp [eq_comm, or_comm]
      · simp [hk]
    rw [← hmore, List.filterMap_append]
    exact h.links.acquire (h.notMem_linksUp hfree)
  descriptors := held_append_of_eq h.descriptors rfl

/-- Nothing is reported of a client that is rejected. -/
theorem linkUse_rejected (events : List IoEvent) (fd : ℕ) :
    (events ++ [IoEvent.opened fd, IoEvent.closed fd]).filterMap (·.linkUse) =
      events.filterMap (·.linkUse) := by
  rw [List.filterMap_append]
  exact List.append_nil _

/-- A client is rejected. -/
theorem Reported.reject {fds : List ℕ} {events : List IoEvent} (h : Reported fds events) {fd : ℕ}
    (hfree : held fd (events.filterMap (·.fdUse)) = false) :
    Reported fds (events ++ [.opened fd, .closed fd]) where
  distinct := h.distinct
  links := by
    have hsame : linksUp fds (events ++ [.opened fd, .closed fd]) = linksUp fds events := by
      simp [linksUp]
    rw [hsame, linkUse_rejected]
    exact h.links
  descriptors k := by
    rw [linkUse_rejected, List.filterMap_append, ← h.descriptors k]
    exact held_acquire_release hfree

/-- The loops over the slots. -/
theorem Reported.dropClients {fds : List ℕ} {events : List IoEvent} (h : Reported fds events)
    (lost : ℕ → Bool) (is : List ℕ) :
    Reported (dropClients lost fds is).1 (events ++ (dropClients lost fds is).2) := by
  induction is generalizing fds events with
  | nil => rwa [Modbus.dropClients, List.append_nil]
  | cons i is ih =>
    rw [Modbus.dropClients]
    dsimp only
    split_ifs with hlost
    · have hget : fds[i]? = some (fds.getD i 0) := by
        rw [List.getD_eq_getElem?_getD] at hlost ⊢
        cases hi : fds[i]? with
        | none => simp [hi] at hlost
        | some sd => rfl
      have hrest := ih (h.drop hget (Nat.ne_of_gt hlost.1))
      rwa [List.append_assoc] at hrest
    · exact ih h

/-- **Every pass keeps the links those of the slots.** -/
theorem Reported.pass {maxClients : ℕ} {onProcess : Bool} {fds : List ℕ} {events : List IoEvent}
    (h : Reported fds events) (p : ServerPass)
    (hfresh : FreshDescriptors (events ++ (serverPass maxClients onProcess fds p).2)) :
    Reported (serverPass maxClients onProcess fds p).1
      (events ++ (serverPass maxClients onProcess fds p).2) := by
  cases p with
  | error => rwa [serverPass, List.append_nil]
  | timeout check => exact h.dropClients _ _
  | ready listening accepted isSet process =>
    simp only [serverPass] at hfresh ⊢
    by_cases hlisten : listening = true
    swap
    · rw [if_pos hlisten]
      exact h.dropClients _ _
    rw [if_neg (not_not.mpr hlisten)] at hfresh ⊢
    cases accepted with
    | none => rwa [List.append_nil]
    | some fd =>
      cases hfree : (fds.take maxClients).findIdx? (· == 0) with
      | none =>
        simp only [hfree] at hfresh ⊢
        exact h.reject (hfresh events _ _ rfl fd rfl)
      | some i =>
        simp only [hfree] at hfresh ⊢
        obtain ⟨hi, hzero, -⟩ := List.findIdx?_eq_some_iff_getElem.mp hfree
        have hget : fds[i]? = some 0 := by
          have hlt : i < fds.length := Nat.lt_of_lt_of_le hi (List.length_take_le' _ _)
          rw [List.getElem_take] at hzero
          rw [List.getElem?_eq_getElem hlt, of_decide_eq_true hzero]
        have hplace := h.place hget (hfresh events _ _ rfl fd rfl)
        have hserve := hplace.dropClients
          (fun sd => isSet sd && onProcess && decide (process sd < 0)) (List.range maxClients)
        rwa [List.append_assoc] at hserve

/-- **In every run of the server thread** the links that are up are those of the slots. -/
theorem reported (maxClients : ℕ) (onProcess : Bool) (passes : List ServerPass)
    (hfresh : FreshDescriptors ((serverMachine maxClients onProcess).trace noClients passes)) :
    Reported ((serverMachine maxClients onProcess).state noClients passes)
      ((serverMachine maxClients onProcess).trace noClients passes) :=
  (serverMachine maxClients onProcess).trace_invariant
    (fun fds events => FreshDescriptors events → Reported fds events) (fun _ => .noClients)
    (fun _ _ p h hfresh => (h (Always.of_append hfresh)).pass p hfresh) passes hfresh

/-! ### The client -/

/-- The client has the link of its descriptor. -/
structure Linked (sock : Option ℕ) (events : List IoEvent) : Prop where
  links : Holding {fd | sock = some fd} (events.filterMap (·.linkUse))
  descriptors : ∀ fd,
    held fd (events.filterMap (·.fdUse)) = held fd (events.filterMap (·.linkUse))

theorem setOf_none_eq : ({fd | (none : Option ℕ) = some fd} : Set ℕ) = ∅ := by
  ext fd
  simp

theorem Linked.lost {sock : ℕ} {events : List IoEvent} (h : Linked (some sock) events) :
    Linked none (events ++ [.link sock false, .closed sock]) where
  links := by
    have hnone : ({fd | some sock = some fd} : Set ℕ) \ {sock} =
        {fd | (none : Option ℕ) = some fd} := by
      ext fd
      constructor
      · rintro ⟨hfd, hne⟩
        exact absurd (Option.some.inj hfd).symm hne
      · intro hfd
        cases hfd
    rw [List.filterMap_append, ← hnone]
    exact h.links.release rfl
  descriptors := held_append_of_eq h.descriptors rfl

theorem Linked.found {sock : ℕ} {events : List IoEvent} (h : Linked none events) :
    Linked (some sock) (events ++ [.opened sock, .link sock true]) where
  links := by
    have hone : insert sock {fd | (none : Option ℕ) = some fd} = {fd | some sock = some fd} := by
      ext fd
      simp [eq_comm]
    rw [List.filterMap_append, ← hone]
    exact h.links.acquire (by simp)
  descriptors := held_append_of_eq h.descriptors rfl

theorem Linked.serve {sock : ℕ} {events : List IoEvent} (h : Linked (some sock) events)
    (onProcess : Bool) (p : ClientPass) :
    Linked (clientServe onProcess sock p).1 (events ++ (clientServe onProcess sock p).2) := by
  rw [clientServe]
  split_ifs
  · exact h.lost
  · rwa [List.append_nil]

/-- In every run of the client thread it has the link of its descriptor. -/
theorem linked (onProcess : Bool) (passes : List ClientPass) :
    Linked ((clientMachine onProcess).state none passes)
      ((clientMachine onProcess).trace none passes) := by
  refine (clientMachine onProcess).trace_invariant Linked ⟨?_, fun _ => rfl⟩
    (fun sock events p h => ?_) passes
  · rw [setOf_none_eq]
    exact holding_nil
  · simp only [clientMachine]
    cases sock with
    | some sock => exact h.serve onProcess p
    | none =>
      cases hconn : p.connect with
      | none => simpa only [clientPass, hconn, List.append_nil] using h
      | some sock =>
        have hserve := (h.found : Linked (some sock) _).serve onProcess p
        rw [List.append_assoc] at hserve
        simpa only [clientPass, hconn, List.cons_append, List.nil_append] using hserve

/-! ### Whole runs -/

/-- Two sets of resources held after the same history are the same. -/
theorem holding_empty_iff {S : Set ℕ} {us : List (Usage ℕ)} (h : Holding S us) :
    Holding ∅ us ↔ S = ∅ := by
  constructor
  · intro hnone
    ext fd
    rw [← h.2 fd, hnone.2 fd]
  · rintro rfl
    exact h

/-- `accept` gives the descriptor 0 for a client, and a slot is free. -/
def ServerPass.PlacesZero (maxClients : ℕ) (fds : List ℕ) : ServerPass → Prop
  | .ready listening accepted _ _ => listening = true ∧ accepted = some 0 ∧ 0 ∈ fds.take maxClients
  | _ => False

/-- No client is reported up by the loops over the slots. -/
theorem link_true_notMem_dropClients (lost : ℕ → Bool) (fds is : List ℕ) (fd : ℕ) :
    .link fd true ∉ (dropClients lost fds is).2 := by
  induction is generalizing fds with
  | nil => exact List.not_mem_nil
  | cons i is ih =>
    rw [dropClients]
    dsimp only
    split_ifs
    · simpa using ih _
    · exact ih fds

/-- The descriptor 0 is reported up in the passes that place it. -/
theorem link_zero_mem_serverPass {maxClients : ℕ} {onProcess : Bool} {fds : List ℕ}
    {p : ServerPass} :
    .link 0 true ∈ (serverPass maxClients onProcess fds p).2 ↔ p.PlacesZero maxClients fds := by
  cases p with
  | error => exact iff_of_false List.not_mem_nil id
  | timeout check => exact iff_of_false (link_true_notMem_dropClients _ _ _ 0) id
  | ready listening accepted isSet process =>
    have hserve := fun fds => link_true_notMem_dropClients
      (fun sd => isSet sd && onProcess && decide (process sd < 0)) fds (List.range maxClients) 0
    cases listening with
    | false =>
      simp only [serverPass, ServerPass.PlacesZero, Bool.false_eq_true, not_false_eq_true, if_true,
        false_and, iff_false]
      exact hserve fds
    | true =>
      simp only [serverPass, ServerPass.PlacesZero, not_true_eq_false, if_false, true_and]
      cases accepted with
      | none => simp
      | some fd =>
        cases hfree : (fds.take maxClients).findIdx? (· == 0) with
        | none =>
          have hzero : 0 ∉ fds.take maxClients := fun hmem => by
            simpa using List.findIdx?_eq_none_iff.mp hfree 0 hmem
          simp [hzero]
        | some i =>
          obtain ⟨hi, heq, -⟩ := List.findIdx?_eq_some_iff_getElem.mp hfree
          have hzero : 0 ∈ fds.take maxClients := beq_iff_eq.mp heq ▸ List.getElem_mem hi
          simp [hzero, hserve, eq_comm]

/-- The descriptor 0 is reported up in the runs in which a pass places it. -/
theorem link_zero_notMem_trace (maxClients : ℕ) (onProcess : Bool) (passes : List ServerPass) :
    let M := serverMachine maxClients onProcess
    .link 0 true ∉ M.trace noClients passes ↔
      Always (fun before p => ¬ p.PlacesZero maxClients (M.state noClients before)) passes := by
  intro M
  induction passes using List.reverseRecOn with
  | nil => exact iff_of_true List.not_mem_nil always_nil
  | append_singleton passes p ih =>
    rw [Machine.trace_append, List.mem_append, not_or, ih, always_concat, Machine.trace_cons,
      Machine.trace_nil, List.append_nil]
    exact and_congr_right fun _ => not_congr link_zero_mem_serverPass

/-- What the links of a run depend on: in listen-server mode no slot is in use when the thread has
ended, and `accept` gave the descriptor 0 to no client for which there was a slot. -/
def IoRun.Drained (maxClients : UInt8) (onProcess : Bool) : IoRun → Prop
  | .listenServer passes =>
    let M := serverMachine (effectiveMaxClients maxClients) onProcess
    (∀ fd ∈ M.state noClients passes, fd = 0) ∧ Always (fun before p =>
      ¬ p.PlacesZero (effectiveMaxClients maxClients) (M.state noClients before)) passes
  | .connectClient _ => True

/-- **When the links are paired.** In every run in which the kernel gives only descriptors that are
not open: up and down are reported in turns for every descriptor, and every link that was reported
up has been reported down when `mb_tcp_stop` returns, if and only if the run is in connect-client
mode, or no slot is in use when the thread has ended and `accept` gave the descriptor 0 to no client
for which there was a slot. -/
theorem links_paired_iff (maxClients : UInt8) (onProcess : Bool) (run : IoRun)
    (hfresh : FreshDescriptors (run.events maxClients onProcess)) :
    LinksPaired (run.events maxClients onProcess) ↔ run.Drained maxClients onProcess := by
  cases run with
  | listenServer passes =>
    have h := reported (effectiveMaxClients maxClients) onProcess passes (Always.of_append hfresh)
    have hstop : ∀ fds, (stopServer fds).filterMap (·.linkUse) = [] := fun fds =>
      List.filterMap_eq_nil_iff.mpr fun e he => by
        obtain ⟨fd, -, rfl⟩ := List.mem_map.mp he
        rfl
    simp only [LinksPaired, IoRun.events, IoRun.Drained, ← link_zero_notMem_trace,
      List.filterMap_append, hstop, List.append_nil]
    rw [holding_empty_iff h.links, Set.eq_empty_iff_forall_notMem]
    simp only [linksUp, Set.mem_ofPred_eq]
    constructor
    · refine fun hall => ⟨fun fd hfd => ?_, fun hzero => hall 0 (.inr ⟨rfl, hzero⟩)⟩
      by_contra hne
      exact hall fd (.inl ⟨hne, hfd⟩)
    · rintro ⟨hslots, hzero⟩ fd (⟨hne, hfd⟩ | ⟨-, hmem⟩)
      · exact hne (hslots fd hfd)
      · exact hzero hmem
  | connectClient passes =>
    have h := linked onProcess passes
    refine iff_of_true ?_ trivial
    simp only [LinksPaired, IoRun.events]
    generalize (clientMachine onProcess).state none passes = sock at h ⊢
    cases sock with
    | none =>
      rw [stopClient, Option.toList_none, List.flatMap_nil, List.append_nil, ← setOf_none_eq]
      exact h.links
    | some sock =>
      have hlost := h.lost.links
      rwa [setOf_none_eq] at hlost

/-- A history in which one descriptor is given. -/
theorem freshDescriptors_cons (fd : ℕ) {events : List IoEvent}
    (h : ∀ e ∈ events, ∀ k, e ≠ .opened k) : FreshDescriptors (.opened fd :: events) := by
  rintro before e after heq k rfl
  cases before with
  | nil => rfl
  | cons b before =>
    have hmem : IoEvent.opened k ∈ events := by
      rw [(List.cons.inj heq).2]
      exact List.mem_append_right _ List.mem_cons_self
    exact absurd rfl (h _ hmem k)

/-- A client that comes, and goes before the server is stopped. -/
theorem links_paired_drained :
    LinksPaired (IoRun.events 0 true (.listenServer
      [.ready true (some 5) (fun _ => false) (fun _ => 0), .timeout fun _ => 0])) := by
  let passes : List ServerPass :=
    [.ready true (some 5) (fun _ => false) (fun _ => 0), .timeout fun _ => 0]
  have hevents : IoRun.events 0 true (.listenServer passes) =
      [.opened 5, .link 5 true, .closed 5, .link 5 false] := by decide
  have hfresh : FreshDescriptors (IoRun.events 0 true (.listenServer passes)) := by
    rw [hevents]
    exact freshDescriptors_cons 5 (by simp)
  refine (links_paired_iff 0 true (.listenServer passes) hfresh).mpr ⟨by decide, ?_⟩
  intro before p after heq
  have hmem : p ∈ passes := heq ▸ List.mem_append_right before List.mem_cons_self
  simp only [passes, List.mem_cons, List.not_mem_nil, or_false] at hmem
  rcases hmem with rfl | rfl <;> simp [ServerPass.PlacesZero]

/-- **The link of a client that is there when the server is stopped is never reported down.** -/
theorem not_links_paired :
    ¬ ∀ (maxClients : UInt8) (onProcess : Bool) (run : IoRun),
      FreshDescriptors (run.events maxClients onProcess) →
        LinksPaired (run.events maxClients onProcess) := by
  intro h
  have hevents : IoRun.events 0 true (.listenServer
      [.ready true (some 5) (fun _ => false) (fun _ => 0)]) =
      [.opened 5, .link 5 true, .closed 5] := by decide
  have hpaired := h 0 true (.listenServer [.ready true (some 5) (fun _ => false) (fun _ => 0)])
  rw [hevents] at hpaired
  have hdown := (hpaired (freshDescriptors_cons 5 (by simp))).2 5
  exact Set.notMem_empty 5 (hdown.mp (by decide))

end LoopCharger.Modbus

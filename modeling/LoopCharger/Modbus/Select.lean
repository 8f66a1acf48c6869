import LoopCharger.Lib.History
import LoopCharger.Modbus.Links

/-!
# What the server thread does with the result of `select`

`mb_tcp_server_thread` of `modbus_tcp.c` with the descriptor set that it gives to `select`. A
`select` that returns leaves in the set the descriptors that are ready. One that fails leaves the
set as it is, so that every descriptor asked for is still in it.

## Main definitions

* `SelectPass`, `selectPass`: one pass of the loop, with the calls of `accept` and `on_process`.
* `ServesReady`: the runs in which only what is reported ready is accepted and served.

## Main results

* `selectPass_eq_serverPass`: the slots and the events are those of `serverPass`.
* `serves_ready_iff`: the runs that serve only what is ready.
-/

namespace LoopCharger.Modbus

open Lib

/-! ### A pass -/

def EINTR : ℤ := 4

/-- What `select` does: it fails with an `errno`, or it returns the descriptors that are ready. -/
inductive SelectResult
  | failed (errno : ℤ)
  | returned (ready : ℕ → Bool)

/-- The `errno` of a `select` that fails. -/
def SelectResult.errno : SelectResult → ℤ
  | .failed errno => errno
  | .returned _ => 0

/-- The return value of `select`, of which only the sign and the zero matter. -/
def SelectResult.activity (requested : List ℕ) : SelectResult → ℤ
  | .failed _ => -1
  | .returned ready => (requested.filter ready).length

/-- The set after `select`. -/
def SelectResult.readfds (requested : List ℕ) : SelectResult → List ℕ
  | .failed _ => requested
  | .returned ready => requested.filter ready

/-- The descriptors that `select` reports as ready. -/
def SelectResult.reported (requested : List ℕ) : SelectResult → List ℕ
  | .failed _ => []
  | .returned ready => requested.filter ready

/-- What a pass of the loop meets: the results of `select`, of `recv` at each client, of `accept`
and of `on_process`. -/
structure SelectPass where
  select : SelectResult
  check : ℕ → ℤ
  accepted : Option ℕ
  process : ℕ → ℤ

/-- The calls of a pass. -/
inductive ServerCall
  | accept
  | process (fd : ℕ)
  | io (e : IoEvent)
  deriving DecidableEq

/-- The descriptors that are put into the set: the listening one, and those of the clients. -/
def requestedFds (listenSock maxClients : ℕ) (fds : List ℕ) : List ℕ :=
  listenSock :: (fds.take maxClients).filter (0 < ·)

/-- The loop that serves the clients in the set. -/
def serveClients (onProcess : Bool) (readfds : List ℕ) (process : ℕ → ℤ) (fds : List ℕ) :
    List ℕ → List ℕ × List ServerCall
  | [] => (fds, [])
  | i :: is =>
    let sd := fds.getD i 0
    if sd > 0 ∧ sd ∈ readfds ∧ onProcess then
      if process sd < 0 then
        let r := serveClients onProcess readfds process (fds.set i 0) is
        (r.1, .process sd :: .io (.closed sd) :: .io (.link sd false) :: r.2)
      else
        let r := serveClients onProcess readfds process fds is
        (r.1, .process sd :: r.2)
    else serveClients onProcess readfds process fds is

/-- One pass of the loop of `mb_tcp_server_thread`. The thread has a listening socket as long as it
runs. -/
def selectPass (listenSock maxClients : ℕ) (onProcess : Bool) (fds : List ℕ) (p : SelectPass) :
    List ℕ × List ServerCall :=
  let requested := requestedFds listenSock maxClients fds
  let readfds := p.select.readfds requested
  let serve (fds : List ℕ) :=
    serveClients onProcess readfds p.process fds (List.range maxClients)
  if p.select.activity requested < 0 ∧ p.select.errno ≠ EINTR then (fds, [])
  else if p.select.activity requested = 0 then
    let r := dropClients (fun sd => p.check sd = 0) fds (List.range maxClients)
    (r.1, r.2.map .io)
  else if listenSock ∉ readfds then serve fds
  else
    match p.accepted with
    | none => (fds, [.accept])
    | some fd =>
      match (fds.take maxClients).findIdx? (· == 0) with
      | none => (fds, [.accept, .io (.opened fd), .io (.closed fd)])
      | some i =>
        let r := serve (fds.set i fd)
        (r.1, .accept :: .io (.opened fd) :: .io (.link fd true) :: r.2)

/-- The thread as a machine. -/
def selectMachine (listenSock maxClients : ℕ) (onProcess : Bool) :
    Machine (List ℕ) SelectPass ServerCall where
  step := selectPass listenSock maxClients onProcess

/-! ### The slots and the events -/

def ServerCall.event : ServerCall → Option IoEvent
  | .io e => some e
  | _ => none

/-- The pass as one of `serverPass`. -/
def SelectPass.toServerPass (listenSock maxClients : ℕ) (fds : List ℕ) (p : SelectPass) :
    ServerPass :=
  let requested := requestedFds listenSock maxClients fds
  let readfds := p.select.readfds requested
  if p.select.activity requested < 0 ∧ p.select.errno ≠ EINTR then .error
  else if p.select.activity requested = 0 then .timeout p.check
  else .ready (listenSock ∈ readfds) p.accepted (· ∈ readfds) p.process

section Events

variable (listenSock maxClients : ℕ) (onProcess : Bool)

theorem filterMap_event_map_io (es : List IoEvent) :
    (es.map ServerCall.io).filterMap (·.event) = es := by
  rw [List.filterMap_map]
  exact List.filterMap_some

/-- The clients that are served and lost are those of `dropClients`. -/
theorem serveClients_eq_dropClients (readfds : List ℕ) (process : ℕ → ℤ) (fds is : List ℕ) :
    ((serveClients onProcess readfds process fds is).1,
        (serveClients onProcess readfds process fds is).2.filterMap (·.event)) =
      dropClients (fun sd => decide (sd ∈ readfds) && onProcess && process sd < 0) fds is := by
  induction is generalizing fds with
  | nil => rfl
  | cons i is ih =>
    simp only [serveClients, dropClients]
    generalize fds.getD i 0 = sd
    have hdrop : (sd > 0 ∧ (decide (sd ∈ readfds) && onProcess && decide (process sd < 0)) = true) ↔
        (sd > 0 ∧ sd ∈ readfds ∧ onProcess) ∧ process sd < 0 := by
      simp [and_assoc]
    by_cases hserved : sd > 0 ∧ sd ∈ readfds ∧ onProcess
    · by_cases hlost : process sd < 0
      · rw [if_pos hserved, if_pos hlost, if_pos (hdrop.mpr ⟨hserved, hlost⟩), ← ih]
        rfl
      · rw [if_pos hserved, if_neg hlost, if_neg fun h => hlost (hdrop.mp h).2, ← ih]
        rfl
    · rw [if_neg hserved, if_neg fun h => hserved (hdrop.mp h).1, ih]

/-- **The slots and the events of a pass** are those of `serverPass`. -/
theorem selectPass_eq_serverPass (fds : List ℕ) (p : SelectPass) :
    ((selectPass listenSock maxClients onProcess fds p).1,
        (selectPass listenSock maxClients onProcess fds p).2.filterMap (·.event)) =
      serverPass maxClients onProcess fds (p.toServerPass listenSock maxClients fds) := by
  simp only [selectPass, SelectPass.toServerPass]
  split_ifs with herror htimeout hlisten
  · rfl
  · rw [filterMap_event_map_io]
    rfl
  · simp only [serverPass, hlisten, decide_true, not_true_eq_false, if_false]
    cases p.accepted with
    | none => rfl
    | some fd =>
      cases (fds.take maxClients).findIdx? (· == 0) with
      | none => rfl
      | some i =>
        dsimp only
        rw [← serveClients_eq_dropClients]
        rfl
  · simp only [serverPass, hlisten, decide_false, Bool.false_eq_true, not_false_eq_true, if_true]
    exact serveClients_eq_dropClients _ _ _ _ _

/-- A run of the thread has the slots and the events of a run of `serverPass`. -/
theorem exists_serverPasses (passes : List SelectPass) (fds : List ℕ) :
    ∃ passes' : List ServerPass, passes'.length = passes.length ∧
      (serverMachine maxClients onProcess).state fds passes' =
        (selectMachine listenSock maxClients onProcess).state fds passes ∧
      (serverMachine maxClients onProcess).trace fds passes' =
        ((selectMachine listenSock maxClients onProcess).trace fds passes).filterMap (·.event) := by
  induction passes generalizing fds with
  | nil => exact ⟨[], rfl, rfl, rfl⟩
  | cons p passes ih =>
    have hpass := selectPass_eq_serverPass listenSock maxClients onProcess fds p
    have hfds : ((serverMachine maxClients onProcess).step fds
        (p.toServerPass listenSock maxClients fds)).1 =
          ((selectMachine listenSock maxClients onProcess).step fds p).1 :=
      (congrArg Prod.fst hpass).symm
    have hevents : ((serverMachine maxClients onProcess).step fds
        (p.toServerPass listenSock maxClients fds)).2 =
          ((selectMachine listenSock maxClients onProcess).step fds p).2.filterMap (·.event) :=
      (congrArg Prod.snd hpass).symm
    obtain ⟨passes', hlength, hstate, htrace⟩ :=
      ih ((selectMachine listenSock maxClients onProcess).step fds p).1
    refine ⟨p.toServerPass listenSock maxClients fds :: passes', ?_, ?_, ?_⟩
    · rw [List.length_cons, List.length_cons, hlength]
    · rw [Machine.state_cons, Machine.state_cons, hfds, hstate]
    · rw [Machine.trace_cons, Machine.trace_cons, List.filterMap_append, hfds, hevents, htrace]

end Events

/-! ### What is served -/

/-- The call is one for a descriptor that `select` reports in the pass. -/
def ServerCall.Ready (listenSock : ℕ) (reported : List ℕ) : ServerCall → Prop
  | .accept => listenSock ∈ reported
  | .process fd => fd ∈ reported
  | .io _ => True

/-- **Only what is ready is served**: in every pass `accept` is called only if `select` has reported
the listening socket, and `on_process` only for descriptors that it has reported. -/
def ServesReady (listenSock maxClients : ℕ) (onProcess : Bool) (passes : List SelectPass) : Prop :=
  Always (fun before p =>
    let fds := (selectMachine listenSock maxClients onProcess).state noClients before
    ∀ c ∈ (selectPass listenSock maxClients onProcess fds p).2,
      c.Ready listenSock (p.select.reported (requestedFds listenSock maxClients fds))) passes

section Ready

variable {listenSock maxClients : ℕ} {onProcess : Bool}

/-- The loop over the clients serves those in the set. -/
theorem ready_of_mem_serveClients {readfds : List ℕ} {process : ℕ → ℤ} {fds is : List ℕ}
    {c : ServerCall} (hc : c ∈ (serveClients onProcess readfds process fds is).2) :
    c.Ready listenSock readfds := by
  induction is generalizing fds with
  | nil => cases hc
  | cons i is ih =>
    rw [serveClients] at hc
    dsimp only at hc
    split_ifs at hc with hserved hlost
    · simp only [List.mem_cons] at hc
      rcases hc with rfl | rfl | rfl | hc
      · exact hserved.2.1
      · trivial
      · trivial
      · exact ih hc
    · rcases List.mem_cons.mp hc with rfl | hc
      · exact hserved.2.1
      · exact ih hc
    · exact ih hc

/-- In a pass only what is in the set is served. -/
theorem ready_of_mem_selectPass {fds : List ℕ} {p : SelectPass} {c : ServerCall}
    (hc : c ∈ (selectPass listenSock maxClients onProcess fds p).2) :
    c.Ready listenSock (p.select.readfds (requestedFds listenSock maxClients fds)) := by
  simp only [selectPass] at hc
  split_ifs at hc with herror htimeout hlisten
  · cases hc
  · obtain ⟨e, -, rfl⟩ := List.mem_map.mp hc
    trivial
  · cases haccepted : p.accepted with
    | none =>
      rw [haccepted] at hc
      rw [List.mem_singleton.mp hc]
      exact hlisten
    | some fd =>
      rw [haccepted] at hc
      cases hfree : (fds.take maxClients).findIdx? (· == 0) with
      | none =>
        simp only [hfree, List.mem_cons, List.not_mem_nil, or_false] at hc
        rcases hc with rfl | rfl | rfl
        · exact hlisten
        · trivial
        · trivial
      | some i =>
        simp only [hfree, List.mem_cons] at hc
        rcases hc with rfl | rfl | rfl | hc
        · exact hlisten
        · trivial
        · trivial
        · exact ready_of_mem_serveClients hc
  · exact ready_of_mem_serveClients hc

/-- A client that is accepted in a pass is not served in it, as its descriptor was not open when
`select` was called. -/
theorem process_notMem_of_fresh {fds : List ℕ} {p : SelectPass} {fd : ℕ}
    (hfresh : fd ∉ requestedFds listenSock maxClients fds) :
    .process fd ∉ (selectPass listenSock maxClients onProcess fds p).2 := by
  intro hc
  have hset : fd ∈ p.select.readfds (requestedFds listenSock maxClients fds) :=
    ready_of_mem_selectPass hc
  cases hselect : p.select with
  | failed errno =>
    rw [hselect] at hset
    exact hfresh hset
  | returned ready =>
    rw [hselect] at hset
    exact hfresh (List.mem_of_mem_filter hset)

/-- When `select` is interrupted, `accept` is called although nothing is reported. -/
theorem accept_mem_of_interrupted {fds : List ℕ} {p : SelectPass}
    (h : p.select = .failed EINTR) :
    .accept ∈ (selectPass listenSock maxClients onProcess fds p).2 := by
  have hset : listenSock ∈ p.select.readfds (requestedFds listenSock maxClients fds) := by
    rw [h]
    exact List.mem_cons_self
  have herrno : ¬ (p.select.activity (requestedFds listenSock maxClients fds) < 0 ∧
      p.select.errno ≠ EINTR) := fun hfailed => hfailed.2 (by rw [h]; rfl)
  have hactivity : p.select.activity (requestedFds listenSock maxClients fds) ≠ 0 := by
    rw [h, SelectResult.activity]
    decide
  simp only [selectPass, if_neg herrno, if_neg hactivity, if_neg (not_not.mpr hset)]
  cases p.accepted with
  | none => exact List.mem_cons_self
  | some fd => cases (fds.take maxClients).findIdx? (· == 0) <;> exact List.mem_cons_self

/-- A pass serves only what is ready unless its `select` is interrupted. -/
theorem ready_iff {fds : List ℕ} {p : SelectPass} :
    (∀ c ∈ (selectPass listenSock maxClients onProcess fds p).2,
        c.Ready listenSock (p.select.reported (requestedFds listenSock maxClients fds))) ↔
      p.select ≠ .failed EINTR := by
  constructor
  · intro hready h
    have haccept := hready _ (accept_mem_of_interrupted h)
    rw [h] at haccept
    cases haccept
  · intro h c hc
    cases hselect : p.select with
    | returned ready =>
      have hset := ready_of_mem_selectPass hc
      rwa [hselect] at hset
    | failed errno =>
      have hfailed : p.select.activity (requestedFds listenSock maxClients fds) < 0 ∧
          p.select.errno ≠ EINTR := by
        rw [hselect] at h ⊢
        exact ⟨Int.negSucc_lt_zero 0, fun heq => h (congrArg _ heq)⟩
      rw [selectPass, if_pos hfailed] at hc
      cases hc

end Ready

/-- **The runs that serve only what is ready** are those in which no `select` is interrupted. -/
theorem serves_ready_iff (listenSock : ℕ) (maxClients : UInt8) (onProcess : Bool)
    (passes : List SelectPass) :
    ServesReady listenSock (effectiveMaxClients maxClients) onProcess passes ↔
      ∀ p ∈ passes, p.select ≠ .failed EINTR := by
  constructor
  · intro h p hp
    obtain ⟨before, after, rfl⟩ := List.append_of_mem hp
    exact ready_iff.mp (h before p after rfl)
  · intro h before p after hpasses
    exact ready_iff.mpr (h p (by simp [hpasses]))

/-- A `select` that is interrupted before there are clients. -/
theorem not_serves_ready :
    ¬ ∀ (listenSock : ℕ) (maxClients : UInt8) (onProcess : Bool) (passes : List SelectPass),
      ServesReady listenSock (effectiveMaxClients maxClients) onProcess passes := by
  intro h
  have haccept := h 3 0 true [⟨.failed EINTR, fun _ => -1, none, fun _ => -1⟩] [] _ [] rfl .accept
    (by decide)
  cases haccept

end LoopCharger.Modbus

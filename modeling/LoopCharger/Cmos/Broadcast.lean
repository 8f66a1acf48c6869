import LoopCharger.Lib.Machine
import LoopCharger.Cmos.Publish

/-!
# The publisher's subscribers

The connections of `cmos_pub.c`: `cmos_pub_poll` takes a subscriber that has come, and
`cmos_publish` sends its line to each of them, and takes out of the array those to which `send`
fails. A `send` that takes only a part of the line is a success: the rest of the line is not sent,
and the next line follows at once.

The sockets are numbered in the order in which they are accepted. The line is the one that
`cmosPublish` gives; it can be any here.

## Main definitions

* `Publisher`, `publisherMachine`: the publisher as a machine.
* `received`, `linesSince`: what a history says of one subscriber.

## Main results

* `publishLoop_eq`: every subscriber is sent the line once, and stays if `send` takes something.
* `stream_whole_iff`: a subscriber has received the lines published since it was accepted exactly
  when no `send` to it was cut short.
-/

namespace LoopCharger.Cmos

open Lib

/-! ### The publisher -/

/-- The part of `sub_socks` that is in use, and the number of connections accepted so far, which is
no part of the program. -/
structure Publisher where
  subSocks : List ℕ
  accepted : ℕ

def Publisher.init : Publisher := ⟨[], 0⟩

/-- What is seen of the publisher. -/
inductive PublisherEvent
  | accepted (sock : ℕ)
  | published (line : Bytes)
  /-- `send` of the line returns `n`. -/
  | sent (sock : ℕ) (line : Bytes) (n : ℤ)
  | closed (sock : ℕ)
  deriving DecidableEq

/-- `cmos_pub_poll`, where `arrived` is whether `accept` gives a connection. -/
def cmosPubPoll (p : Publisher) (arrived : Bool) : Publisher × List PublisherEvent :=
  if ¬ arrived then (p, [])
  else if p.subSocks.length < 512 then
    (⟨p.subSocks ++ [p.accepted], p.accepted + 1⟩, [.accepted p.accepted])
  else ({ p with accepted := p.accepted + 1 }, [.closed p.accepted])

/-- The loop over the subscribers from the index `i` on. -/
def publishLoop (line : Bytes) (result : ℕ → ℤ) : ℕ → List ℕ → ℕ → List ℕ × List PublisherEvent
  | 0, socks, _ => (socks, [])
  | fuel + 1, socks, i =>
    match socks[i]? with
    | none => (socks, [])
    | some sock =>
      let n := result sock
      if n ≤ 0 then
        let r := publishLoop line result fuel (socks.eraseIdx i) i
        (r.1, .sent sock line n :: .closed sock :: r.2)
      else
        let r := publishLoop line result fuel socks (i + 1)
        (r.1, .sent sock line n :: r.2)

/-- `cmos_publish` from the sends on, where `result` is what `send` returns for each subscriber. -/
def publishLine (p : Publisher) (line : Bytes) (result : ℕ → ℤ) :
    Publisher × List PublisherEvent :=
  let r := publishLoop line result p.subSocks.length p.subSocks 0
  ({ p with subSocks := r.1 }, .published line :: r.2)

/-- What happens to the publisher. -/
inductive PublisherAction
  | poll (arrived : Bool)
  | publish (line : Bytes) (result : ℕ → ℤ)

/-- The publisher as a machine. -/
def publisherMachine : Machine Publisher PublisherAction PublisherEvent where
  step p
    | .poll arrived => cmosPubPoll p arrived
    | .publish line result => publishLine p line result

/-! ### What a history says of a subscriber -/

def PublisherEvent.sendTo (sock : ℕ) : PublisherEvent → Option (Bytes × ℤ)
  | .sent s line n => if s = sock then some (line, n) else none
  | _ => none

def PublisherEvent.line : PublisherEvent → Option Bytes
  | .published line => some line
  | _ => none

/-- The lines that were sent to a subscriber, each with what `send` returned. -/
def sendsTo (sock : ℕ) (events : List PublisherEvent) : List (Bytes × ℤ) :=
  events.filterMap (·.sendTo sock)

/-- The bytes that a subscriber has received: of each line, as many as `send` says. -/
def received (sock : ℕ) (events : List PublisherEvent) : Bytes :=
  (sendsTo sock events).flatMap fun s => s.1.take s.2.toNat

/-- The lines that were published since a subscriber was accepted. -/
def linesSince (sock : ℕ) (events : List PublisherEvent) : List Bytes :=
  (events.dropWhile (· ≠ .accepted sock)).filterMap (·.line)

theorem sendsTo_append (sock : ℕ) (events new : List PublisherEvent) :
    sendsTo sock (events ++ new) = sendsTo sock events ++ sendsTo sock new :=
  List.filterMap_append

theorem linesSince_append {sock : ℕ} {events : List PublisherEvent}
    (h : .accepted sock ∈ events) (new : List PublisherEvent) :
    linesSince sock (events ++ new) = linesSince sock events ++ new.filterMap (·.line) := by
  have hne : ¬ (events.dropWhile (· ≠ .accepted sock)).isEmpty = true := by
    rw [List.isEmpty_iff, List.dropWhile_eq_nil_iff]
    intro hall
    simpa using hall _ h
  rw [linesSince, List.dropWhile_append, if_neg hne, List.filterMap_append]
  rfl

theorem linesSince_accepted {sock : ℕ} {events : List PublisherEvent}
    (h : .accepted sock ∉ events) : linesSince sock (events ++ [.accepted sock]) = [] := by
  have hdrop : events.dropWhile (· ≠ .accepted sock) = [] :=
    List.dropWhile_eq_nil_iff.mpr fun e he => by simpa using ne_of_mem_of_not_mem he h
  rw [linesSince, List.dropWhile_append, hdrop, if_pos List.isEmpty_nil]
  simp [PublisherEvent.line]

/-! ### The loop over the subscribers -/

/-- What is seen of one subscriber. -/
def sendEvents (line : Bytes) (result : ℕ → ℤ) (sock : ℕ) : List PublisherEvent :=
  if result sock ≤ 0 then [.sent sock line (result sock), .closed sock]
  else [.sent sock line (result sock)]

/-- **The loop over the subscribers**, behind those that it has passed and kept. -/
theorem publishLoop_eq (line : Bytes) (result : ℕ → ℤ) {fuel : ℕ} (kept socks : List ℕ)
    (hfuel : socks.length ≤ fuel) :
    publishLoop line result fuel (kept ++ socks) kept.length =
      (kept ++ socks.filter (0 < result ·), socks.flatMap (sendEvents line result)) := by
  induction socks generalizing kept fuel with
  | nil =>
    cases fuel with
    | zero => simp [publishLoop]
    | succ fuel => simp [publishLoop]
  | cons sock socks ih =>
    obtain ⟨fuel, rfl⟩ := Nat.exists_eq_add_of_le' (Nat.lt_of_lt_of_le (Nat.succ_pos _) hfuel)
    have hrest : socks.length ≤ fuel := Nat.le_of_succ_le_succ hfuel
    have hget : (kept ++ sock :: socks)[kept.length]? = some sock := by simp
    simp only [publishLoop, hget]
    by_cases hfail : result sock ≤ 0
    · have herase : (kept ++ sock :: socks).eraseIdx kept.length = kept ++ socks := by
        rw [List.eraseIdx_append_of_length_le (Nat.le_refl _), Nat.sub_self,
          List.eraseIdx_cons_zero]
      have hout : (sock :: socks).filter (0 < result ·) = socks.filter (0 < result ·) := by
        simp [hfail]
      rw [if_pos hfail, herase, ih kept hrest, hout, List.flatMap_cons, sendEvents, if_pos hfail]
      rfl
    · have hshift : kept ++ sock :: socks = (kept ++ [sock]) ++ socks := by simp
      have hnext := ih (kept ++ [sock]) hrest
      rw [List.length_append, List.length_singleton] at hnext
      have hin : (sock :: socks).filter (0 < result ·) = sock :: socks.filter (0 < result ·) := by
        simp [Int.not_le.mp hfail]
      rw [if_neg hfail, hshift, hnext, hin, List.flatMap_cons, sendEvents, if_neg hfail,
        List.append_assoc]
      rfl

theorem publishLine_eq (p : Publisher) (line : Bytes) (result : ℕ → ℤ) :
    publishLine p line result = ({ p with subSocks := p.subSocks.filter (0 < result ·) },
      .published line :: p.subSocks.flatMap (sendEvents line result)) := by
  have hloop := publishLoop_eq line result [] p.subSocks (Nat.le_refl _)
  rw [List.length_nil, List.nil_append, List.nil_append] at hloop
  rw [publishLine, hloop]

/-- Each subscriber is sent the line once. -/
theorem sendsTo_flatMap (line : Bytes) (result : ℕ → ℤ) {socks : List ℕ} (hnodup : socks.Nodup)
    (sock : ℕ) :
    sendsTo sock (socks.flatMap (sendEvents line result)) =
      if sock ∈ socks then [(line, result sock)] else [] := by
  have hone : ∀ s, sendsTo sock (sendEvents line result s) =
      if s = sock then [(line, result sock)] else [] := by
    intro s
    rw [sendEvents]
    by_cases hs : s = sock
    · subst hs
      by_cases hfail : result s ≤ 0 <;> simp [hfail, sendsTo, PublisherEvent.sendTo]
    · by_cases hfail : result s ≤ 0 <;> simp [hfail, sendsTo, PublisherEvent.sendTo, hs]
  induction socks with
  | nil => rfl
  | cons s socks ih =>
    obtain ⟨hs, hnodup⟩ := List.nodup_cons.mp hnodup
    rw [List.flatMap_cons, sendsTo_append, hone, ih hnodup]
    by_cases heq : s = sock
    · subst heq
      simp [hs]
    · simp [heq, Ne.symm heq]

/-- No subscriber is accepted, and no line is published, by the sends. -/
theorem mem_sends {line : Bytes} {result : ℕ → ℤ} {socks : List ℕ} {e : PublisherEvent}
    (he : e ∈ socks.flatMap (sendEvents line result)) :
    (∀ s, e ≠ .accepted s) ∧ e.line = none := by
  obtain ⟨s, -, hs⟩ := List.mem_flatMap.mp he
  rw [sendEvents] at hs
  split_ifs at hs
  · rcases List.mem_cons.mp hs with rfl | hs
    · exact ⟨fun _ => by simp, rfl⟩
    · obtain rfl := List.mem_singleton.mp hs
      exact ⟨fun _ => by simp, rfl⟩
  · obtain rfl := List.mem_singleton.mp hs
    exact ⟨fun _ => by simp, rfl⟩

/-! ### Every run -/

/-- The subscribers against the history. -/
structure Serving (p : Publisher) (events : List PublisherEvent) : Prop where
  nodup : p.subSocks.Nodup
  bound : ∀ s ∈ p.subSocks, s < p.accepted
  fresh : ∀ s, p.accepted ≤ s → .accepted s ∉ events ∧ sendsTo s events = []
  known : ∀ s ∈ p.subSocks, .accepted s ∈ events
  lines : ∀ s ∈ p.subSocks, (sendsTo s events).map (·.1) = linesSince s events

theorem Serving.init : Serving .init [] where
  nodup := List.nodup_nil
  bound _ h := absurd h List.not_mem_nil
  fresh _ _ := ⟨List.not_mem_nil, rfl⟩
  known _ h := absurd h List.not_mem_nil
  lines _ h := absurd h List.not_mem_nil

/-- A subscriber that has come is accepted, or refused when the array is full. -/
theorem Serving.poll {p : Publisher} {events : List PublisherEvent} (h : Serving p events)
    (arrived : Bool) :
    Serving (cmosPubPoll p arrived).1 (events ++ (cmosPubPoll p arrived).2) := by
  have hold : ∀ s ∈ p.subSocks, ∀ e, e = .accepted p.accepted ∨ e = .closed p.accepted →
      (sendsTo s (events ++ [e])).map (·.1) = linesSince s (events ++ [e]) := by
    intro s hs e he
    rw [sendsTo_append, linesSince_append (h.known s hs), List.map_append, h.lines s hs]
    rcases he with rfl | rfl <;> rfl
  have hlater : ∀ s, p.accepted + 1 ≤ s → ∀ e, e = .accepted p.accepted ∨ e = .closed p.accepted →
      .accepted s ∉ events ++ [e] ∧ sendsTo s (events ++ [e]) = [] := by
    intro s hs e he
    obtain ⟨hacc, hsends⟩ := h.fresh s (Nat.le_of_succ_le hs)
    rw [sendsTo_append, hsends]
    refine ⟨fun hmem => ?_, by rcases he with rfl | rfl <;> rfl⟩
    rcases List.mem_append.mp hmem with hmem | hmem
    · exact hacc hmem
    · rw [List.mem_singleton] at hmem
      rcases he with rfl | rfl
      · have := PublisherEvent.accepted.inj hmem
        omega
      · cases hmem
  rw [cmosPubPoll]
  by_cases harrived : arrived = true
  swap
  · rw [if_pos harrived, List.append_nil]
    exact h
  rw [if_neg (not_not.mpr harrived)]
  split_ifs with hroom
  · obtain ⟨hacc, hsends⟩ := h.fresh p.accepted (Nat.le_refl _)
    have hnew : p.accepted ∉ p.subSocks := fun hmem => Nat.lt_irrefl _ (h.bound _ hmem)
    refine ⟨?_, fun s hs => ?_, fun s hs => hlater s hs _ (.inl rfl), fun s hs => ?_,
      fun s hs => ?_⟩
    · exact List.nodup_append.mpr ⟨h.nodup, by simp, fun a ha b hb heq => by
        rw [List.mem_singleton.mp hb] at heq
        exact hnew (heq ▸ ha)⟩
    · rcases List.mem_append.mp hs with hs | hs
      · exact Nat.lt_succ_of_lt (h.bound s hs)
      · exact List.mem_singleton.mp hs ▸ Nat.lt_succ_self _
    · rcases List.mem_append.mp hs with hs | hs
      · exact List.mem_append_left _ (h.known s hs)
      · exact List.mem_singleton.mp hs ▸ List.mem_append_right _ List.mem_cons_self
    · rcases List.mem_append.mp hs with hs | hs
      · exact hold s hs _ (.inl rfl)
      · obtain rfl := List.mem_singleton.mp hs
        rw [linesSince_accepted hacc, sendsTo_append, hsends]
        rfl
  · exact ⟨h.nodup, fun s hs => Nat.lt_succ_of_lt (h.bound s hs),
      fun s hs => hlater s hs _ (.inr rfl),
      fun s hs => List.mem_append_left _ (h.known s hs), fun s hs => hold s hs _ (.inr rfl)⟩

/-- A line is published. -/
theorem Serving.publish {p : Publisher} {events : List PublisherEvent} (h : Serving p events)
    (line : Bytes) (result : ℕ → ℤ) :
    Serving (publishLine p line result).1 (events ++ (publishLine p line result).2) := by
  rw [publishLine_eq]
  have hsends : ∀ s, sendsTo s (.published line :: p.subSocks.flatMap (sendEvents line result)) =
      if s ∈ p.subSocks then [(line, result s)] else [] :=
    fun s => sendsTo_flatMap line result h.nodup s
  have hlines : (PublisherEvent.published line ::
      p.subSocks.flatMap (sendEvents line result)).filterMap (·.line) = [line] := by
    have hnone : (p.subSocks.flatMap (sendEvents line result)).filterMap (·.line) = [] :=
      List.filterMap_eq_nil_iff.mpr fun e he => (mem_sends he).2
    exact congrArg (line :: ·) hnone
  have hsub : ∀ s ∈ p.subSocks.filter (0 < result ·), s ∈ p.subSocks := fun s hs =>
    (List.mem_filter.mp hs).1
  refine ⟨h.nodup.filter _, fun s hs => h.bound s (hsub s hs), fun s hs => ?_,
    fun s hs => List.mem_append_left _ (h.known s (hsub s hs)), fun s hs => ?_⟩
  · obtain ⟨hacc, hnone⟩ := h.fresh s hs
    have hout : s ∉ p.subSocks := fun hmem => Nat.not_le.mpr (h.bound s hmem) hs
    rw [sendsTo_append, hnone, hsends, if_neg hout]
    refine ⟨fun hmem => ?_, rfl⟩
    rcases List.mem_append.mp hmem with hmem | hmem
    · exact hacc hmem
    · rcases List.mem_cons.mp hmem with heq | hmem
      · cases heq
      · exact (mem_sends hmem).1 s rfl
  · have hs := hsub s hs
    rw [sendsTo_append, linesSince_append (h.known s hs), List.map_append, h.lines s hs, hsends,
      if_pos hs, hlines]
    rfl

/-- Every run serves its subscribers. -/
theorem serving (actions : List PublisherAction) :
    Serving (publisherMachine.state .init actions) (publisherMachine.trace .init actions) := by
  refine publisherMachine.trace_invariant Serving .init (fun p events a h => ?_) actions
  cases a with
  | poll arrived => exact h.poll arrived
  | publish line result => exact h.publish line result

/-- Pieces of lines, one after the other, are the lines when none is shorter than its line. -/
theorem flatMap_take_eq_iff (sends : List (Bytes × ℤ)) :
    (sends.flatMap fun s => s.1.take s.2.toNat) = (sends.map (·.1)).flatten ↔
      ∀ s ∈ sends, s.1.length ≤ s.2.toNat := by
  have hle : ∀ sends : List (Bytes × ℤ),
      (sends.flatMap fun s => s.1.take s.2.toNat).length ≤ (sends.map (·.1)).flatten.length := by
    intro sends
    induction sends with
    | nil => simp
    | cons s sends ih =>
      simp only [List.flatMap_cons, List.map_cons, List.flatten_cons, List.length_append,
        List.length_take] at ih ⊢
      omega
  induction sends with
  | nil => simp
  | cons s sends ih =>
    simp only [List.forall_mem_cons, List.flatMap_cons, List.map_cons, List.flatten_cons]
    constructor
    · intro heq
      have hlen := congrArg List.length heq
      have hrest := hle sends
      simp only [List.length_append, List.length_take] at hlen
      have htake : s.1.take s.2.toNat = s.1 := List.take_of_length_le (by omega)
      rw [htake] at heq
      exact ⟨by omega, ih.mp (List.append_cancel_left heq)⟩
    · rintro ⟨hs, hrest⟩
      rw [ih.mpr hrest, List.take_of_length_le (by omega)]

/-- **What a subscriber has received.** In every run, a subscriber that is still registered has
received the lines that were published since it was accepted, one after the other, if and only if no
`send` to it returned less than the length of its line. -/
theorem stream_whole_iff (actions : List PublisherAction) (sock : ℕ)
    (h : sock ∈ (publisherMachine.state .init actions).subSocks) :
    let events := publisherMachine.trace .init actions
    received sock events = (linesSince sock events).flatten ↔
      ∀ line n, .sent sock line n ∈ events → line.length ≤ n.toNat := by
  intro events
  have hserving : Serving (publisherMachine.state .init actions) events := serving actions
  rw [received, ← hserving.lines sock h, flatMap_take_eq_iff]
  constructor
  · intro hall line n hmem
    exact hall (line, n) (List.mem_filterMap.mpr ⟨_, hmem, if_pos rfl⟩)
  · rintro hall ⟨line, n⟩ hmem
    obtain ⟨e, he, hsend⟩ := List.mem_filterMap.mp hmem
    cases e with
    | sent s line' n' =>
      rw [PublisherEvent.sendTo] at hsend
      split_ifs at hsend with hs
      obtain ⟨rfl, rfl⟩ := Prod.mk.inj (Option.some.inj hsend)
      exact hall line' n' (hs ▸ he)
    | accepted s => cases hsend
    | published line' => cases hsend
    | closed s => cases hsend

/-- A subscriber that comes between two lines receives the second. -/
theorem stream_whole_second :
    let actions : List PublisherAction := [.publish (ascii "MSG t 1\n") fun _ => -1, .poll true,
      .publish (ascii "MSG t 2\n") fun _ => 8]
    received 0 (publisherMachine.trace .init actions) = ascii "MSG t 2\n" := by
  intro actions
  have hwhole := stream_whole_iff actions 0 (by decide)
  refine hwhole.mpr fun line n hmem => ?_
  have hevents : publisherMachine.trace .init actions = [.published (ascii "MSG t 1\n"),
      .accepted 0, .published (ascii "MSG t 2\n"), .sent 0 (ascii "MSG t 2\n") 8] := by decide
  rw [hevents] at hmem
  obtain ⟨rfl, rfl⟩ : line = ascii "MSG t 2\n" ∧ n = 8 := by simpa using hmem
  decide

/-- **A line is cut off** when `send` takes a part of it: the subscriber stays registered, and
receives the next line behind the part. -/
theorem not_stream_whole :
    ¬ ∀ (actions : List PublisherAction) (sock : ℕ),
      sock ∈ (publisherMachine.state .init actions).subSocks →
      received sock (publisherMachine.trace .init actions) =
        (linesSince sock (publisherMachine.trace .init actions)).flatten := by
  intro h
  have hcut := h [.poll true, .publish (ascii "MSG t 1\n") fun _ => 5,
    .publish (ascii "MSG t 2\n") fun _ => 8] 0 (by decide)
  exact absurd hcut (by decide)

end LoopCharger.Cmos

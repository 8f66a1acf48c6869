import LoopCharger.Lib.Machine
import LoopCharger.Modbus.Connect
import LoopCharger.Modbus.Encoders

/-!
# Transaction identifiers

The identifiers in the frames that are built from one context of the codec, and in the requests of
one connection of the client.

A builder takes its identifier under the lock of the context, and fills its buffer when it has left
the lock. So the threads that build frames are a machine with two kinds of steps, and the frames
taken under the lock are numbered in this order.

## Main definitions

* `BuildCall`, `BuildCall.build`: a call of one of the three builders.
* `buildMachine`: threads that call the builders on one context.
* `requestMachine`: operations on one connection, with the requests that are given to `send`.

## Main results

* `BuildCall.build_cases`: a call is refused, or takes the next identifier.
* `tids_distinct`: the identifiers of at most 65535 consecutive frames, or requests, are distinct.
-/

namespace LoopCharger.Modbus

open Lib

/-! ### Calls of the builders -/

/-- The arguments of a call; `pointers` says that no pointer is `NULL`. -/
inductive BuildCall
  | requestBasis (pointers : Bool) (uid : UInt8) (function addr : ℤ) (nb : UInt16) (reqCap : ℕ)
  | fc06Request (pointers : Bool) (uid : UInt8) (addr value : UInt16) (reqCap : ℕ)
  | fc16Request (pointers : Bool) (uid : UInt8) (addr numRegisters : UInt16)
      (values : ℕ → UInt16) (reqCap : ℕ)

/-- The call, on a context with the identifier `tid`. -/
def BuildCall.build (tid : UInt16) : BuildCall → Built
  | requestBasis pointers uid function addr nb reqCap =>
    if !pointers then ⟨-1, tid, []⟩ else mbTcpBuildRequestBasis tid uid function addr nb reqCap
  | fc06Request pointers uid addr value reqCap =>
    if !pointers then ⟨-1, tid, []⟩ else mbTcpBuildFc06Request tid uid addr value reqCap
  | fc16Request pointers uid addr numRegisters values reqCap =>
    if !pointers then ⟨-1, tid, []⟩
    else mbTcpBuildFc16Request tid uid addr numRegisters values reqCap

/-- The identifier of the frame that the stores leave in a buffer. -/
def frameId (req : ℕ → UInt8) (stores : List (ℕ × UInt8)) : UInt16 :=
  word (stored req stores 0) (stored req stores 1)

/-- Stores that begin with an identifier, and go on behind it. -/
theorem frameId_eq (req : ℕ → UInt8) (tid : UInt16) {rest : List (ℕ × UInt8)}
    (hrest : ∀ s ∈ rest, 2 ≤ s.1) :
    frameId req ((0, highByte tid) :: (1, lowByte tid) :: rest) = tid := by
  have hzero : ∀ s ∈ rest, s.1 ≠ 0 := fun s hs => by
    have := hrest s hs
    omega
  have hone : ∀ s ∈ rest, s.1 ≠ 1 := fun s hs => by
    have := hrest s hs
    omega
  rw [frameId, stored_cons, stored_cons, stored_of_forall_ne hzero, stored_of_forall_ne hone,
    Function.update_of_ne Nat.zero_ne_one, Function.update_self, Function.update_self,
    word_highByte_lowByte]

/-- **A call is refused, or takes the next identifier.** -/
theorem BuildCall.build_cases (c : BuildCall) (tid : UInt16) :
    c.build tid = ⟨-1, tid, []⟩ ∨
      0 ≤ (c.build tid).rc ∧ (c.build tid).tid = nextTid tid ∧
        ∀ req, frameId req (c.build tid).stores = nextTid tid := by
  cases c with
  | requestBasis pointers uid function addr nb reqCap =>
    cases pointers with
    | false => exact .inl rfl
    | true =>
      simp only [build, mbTcpBuildRequestBasis, Bool.not_true, Bool.false_eq_true, if_false]
      split_ifs
      · exact .inl rfl
      · exact .inl rfl
      · exact .inr ⟨Int.le_refl 0, rfl, fun req => frameId_eq req _ (by simp)⟩
  | fc06Request pointers uid addr value reqCap =>
    cases pointers with
    | false => exact .inl rfl
    | true =>
      simp only [build, mbTcpBuildFc06Request, Bool.not_true, Bool.false_eq_true, if_false]
      split_ifs
      · exact .inl rfl
      · exact .inr ⟨Int.le_refl 0, rfl, fun req => frameId_eq req _ (by simp)⟩
  | fc16Request pointers uid addr numRegisters values reqCap =>
    cases pointers with
    | false => exact .inl rfl
    | true =>
      simp only [build, mbTcpBuildFc16Request_eq, Bool.not_true, Bool.false_eq_true, if_false]
      split_ifs
      · exact .inl rfl
      · exact .inr ⟨Int.natCast_nonneg _, rfl, fun req =>
          frameId_eq req _ fun s hs => (mem_block_index hs).1⟩

theorem toNat_nextTid (tid : UInt16) : (nextTid tid).toNat = tid.toNat % 65535 + 1 := by
  have hlt := tid.toNat_lt
  simp only [nextTid, UInt16.lt_iff_toNat_lt, UInt16.reduceToNat]
  split_ifs with h
  · rw [UInt16.toNat_add]
    simp only [UInt16.reduceToNat]
    omega
  · simp only [UInt16.reduceToNat]
    omega

/-! ### Threads -/

/-- A frame that a call builds: its number in the order in which the calls held the lock, and the
stores that fill the buffer. -/
structure BuiltFrame where
  number : ℕ
  stores : List (ℕ × UInt8)

/-- A context, the number of the frames so far, and the frames that threads are filling in. -/
structure Builders (ι : Type) where
  tid : UInt16
  taken : ℕ
  filling : ι → Option BuiltFrame

inductive BuildStep (ι : Type)
  | call (i : ι) (c : BuildCall)
  | fill (i : ι)

/-- No thread is in a call. -/
def Builders.start (ι : Type) (tid : UInt16) : Builders ι := ⟨tid, 0, fun _ => none⟩

/-- A thread calls a builder up to the end of its critical section, or fills its buffer and
returns. -/
def buildMachine (ι : Type) [DecidableEq ι] : Machine (Builders ι) (BuildStep ι) BuiltFrame where
  step s
    | .call i c =>
      if (s.filling i).isSome then (s, [])
      else
        let b := c.build s.tid
        if b.rc < 0 then ({ s with tid := b.tid }, [])
        else
          (⟨b.tid, s.taken + 1, Function.update s.filling i (some ⟨s.taken, b.stores⟩)⟩, [])
    | .fill i =>
      match s.filling i with
      | none => (s, [])
      | some f => ({ s with filling := Function.update s.filling i none }, [f])

/-- The frame has the identifier of its number, counted from `tid`. -/
def BuiltFrame.Numbered (tid : UInt16) (f : BuiltFrame) : Prop :=
  ∀ req, (frameId req f.stores).toNat = (tid.toNat + f.number) % 65535 + 1

/-- The frames that were filled in, and the state of the threads. -/
structure Builders.Numbered {ι : Type} (tid : UInt16) (s : Builders ι) (os : List BuiltFrame) :
    Prop where
  next : (nextTid s.tid).toNat = (tid.toNat + s.taken) % 65535 + 1
  filled : ∀ f ∈ os, f.number < s.taken ∧ f.Numbered tid
  filled_ne : os.Pairwise fun f g => f.number ≠ g.number
  filling : ∀ i f, s.filling i = some f → f.number < s.taken ∧ f.Numbered tid
  filling_ne : ∀ i j f g, s.filling i = some f → s.filling j = some g → i ≠ j →
    f.number ≠ g.number
  apart : ∀ i f, s.filling i = some f → ∀ g ∈ os, g.number ≠ f.number

/-- No identifier is zero, and those of frames less than 65535 apart are distinct. -/
def FramesDistinct (fs : List BuiltFrame) : Prop :=
  (∀ f ∈ fs, ∀ req, frameId req f.stores ≠ 0) ∧
    fs.Pairwise fun f g => f.number ≠ g.number ∧
      (f.number < g.number + 65535 → g.number < f.number + 65535 →
        ∀ req req', frameId req f.stores ≠ frameId req' g.stores)

theorem Builders.Numbered.framesDistinct {ι : Type} {tid : UInt16} {s : Builders ι}
    {os : List BuiltFrame} (h : s.Numbered tid os) : FramesDistinct os := by
  refine ⟨fun f hf req hzero => ?_, h.filled_ne.imp_of_mem fun {f g} hf hg hne => ⟨hne, ?_⟩⟩
  · have hid := (h.filled f hf).2 req
    rw [hzero] at hid
    exact Nat.succ_ne_zero _ hid.symm
  · intro hlt hlt' req req' heq
    have hid := (h.filled f hf).2 req
    have hid' := (h.filled g hg).2 req'
    rw [heq] at hid
    omega

theorem numbered_start (ι : Type) (tid : UInt16) : (Builders.start ι tid).Numbered tid [] where
  next := toNat_nextTid tid
  filled := by simp
  filled_ne := List.Pairwise.nil
  filling _ _ h := absurd h (by simp [Builders.start])
  filling_ne _ _ _ _ h := absurd h (by simp [Builders.start])
  apart _ _ h := absurd h (by simp [Builders.start])

variable {ι : Type} [DecidableEq ι] {tid : UInt16} {s : Builders ι} {os : List BuiltFrame}

/-- What a thread is filling in when this was changed for one thread. -/
theorem update_eq_some {filling : ι → Option BuiltFrame} {i j : ι} {x : Option BuiltFrame}
    {f : BuiltFrame} (h : Function.update filling i x j = some f) :
    j = i ∧ x = some f ∨ j ≠ i ∧ filling j = some f := by
  by_cases hj : j = i
  · subst hj
    exact .inl ⟨rfl, by rwa [Function.update_self] at h⟩
  · exact .inr ⟨hj, by rwa [Function.update_of_ne hj] at h⟩

/-- A call that takes an identifier. -/
theorem Builders.Numbered.take (h : s.Numbered tid os) (i : ι) {b : Built}
    (htid : b.tid = nextTid s.tid) (hid : ∀ req, frameId req b.stores = nextTid s.tid) :
    Builders.Numbered tid
      ⟨b.tid, s.taken + 1, Function.update s.filling i (some ⟨s.taken, b.stores⟩)⟩ os where
  next := by
    change (nextTid b.tid).toNat = (tid.toNat + (s.taken + 1)) % 65535 + 1
    rw [htid, toNat_nextTid, h.next]
    omega
  filled f hf := ⟨Nat.lt_succ_of_lt (h.filled f hf).1, (h.filled f hf).2⟩
  filled_ne := h.filled_ne
  filling j f hf := by
    rcases update_eq_some hf with ⟨-, hnew⟩ | ⟨-, hold⟩
    · obtain rfl := Option.some.inj hnew
      exact ⟨Nat.lt_succ_self _, fun req => by rw [hid req, h.next]⟩
    · exact ⟨Nat.lt_succ_of_lt (h.filling j f hold).1, (h.filling j f hold).2⟩
  filling_ne j k f g hf hg hne := by
    rcases update_eq_some hf with ⟨rfl, hnew⟩ | ⟨-, hold⟩
    · rcases update_eq_some hg with ⟨rfl, -⟩ | ⟨-, hold⟩
      · exact absurd rfl hne
      · obtain rfl := Option.some.inj hnew
        exact Nat.ne_of_gt (h.filling k g hold).1
    · rcases update_eq_some hg with ⟨-, hnew⟩ | ⟨-, hold'⟩
      · obtain rfl := Option.some.inj hnew
        exact Nat.ne_of_lt (h.filling j f hold).1
      · exact h.filling_ne j k f g hold hold' hne
  apart j f hf g hg := by
    rcases update_eq_some hf with ⟨-, hnew⟩ | ⟨-, hold⟩
    · obtain rfl := Option.some.inj hnew
      exact Nat.ne_of_lt (h.filled g hg).1
    · exact h.apart j f hold g hg

/-- A thread that fills in its frame. -/
theorem Builders.Numbered.fill (h : s.Numbered tid os) {i : ι} {f : BuiltFrame}
    (hi : s.filling i = some f) :
    Builders.Numbered tid { s with filling := Function.update s.filling i none } (os ++ [f]) where
  next := h.next
  filled g hg := by
    rcases List.mem_append.mp hg with hg | hg
    · exact h.filled g hg
    · obtain rfl := List.mem_singleton.mp hg
      exact h.filling i g hi
  filled_ne := by
    refine List.pairwise_append.mpr ⟨h.filled_ne, List.pairwise_singleton _ _, ?_⟩
    intro g hg f' hf'
    obtain rfl := List.mem_singleton.mp hf'
    exact h.apart i f' hi g hg
  filling j g hg := by
    rcases update_eq_some hg with ⟨-, hnone⟩ | ⟨-, hold⟩
    · exact absurd hnone (Option.some_ne_none g).symm
    · exact h.filling j g hold
  filling_ne j k f g hf hg hne := by
    rcases update_eq_some hf with ⟨-, hnone⟩ | ⟨-, hold⟩
    · exact absurd hnone (Option.some_ne_none f).symm
    · rcases update_eq_some hg with ⟨-, hnone⟩ | ⟨-, hold'⟩
      · exact absurd hnone (Option.some_ne_none g).symm
      · exact h.filling_ne j k f g hold hold' hne
  apart j g hg g' hg' := by
    rcases update_eq_some hg with ⟨-, hnone⟩ | ⟨hne, hold⟩
    · exact absurd hnone (Option.some_ne_none g).symm
    · rcases List.mem_append.mp hg' with hg' | hg'
      · exact h.apart j g hold g' hg'
      · obtain rfl := List.mem_singleton.mp hg'
        exact h.filling_ne i j g' g hi hold hne.symm

theorem Builders.Numbered.step (h : s.Numbered tid os) (a : BuildStep ι) :
    Builders.Numbered tid ((buildMachine ι).step s a).1 (os ++ ((buildMachine ι).step s a).2) := by
  cases a with
  | call i c =>
    by_cases hi : (s.filling i).isSome
    · simpa only [buildMachine, hi, if_true, List.append_nil] using h
    · rcases c.build_cases s.tid with hrefused | ⟨hrc, htid, hid⟩
      · simpa [buildMachine, hi, hrefused] using h
      · have hnot : ¬ (c.build s.tid).rc < 0 := Int.not_lt.mpr hrc
        simp only [buildMachine, hi, hnot, Bool.false_eq_true, if_false, List.append_nil]
        exact h.take i htid hid
  | fill i =>
    cases hi : s.filling i with
    | none => simpa only [buildMachine, hi, List.append_nil] using h
    | some f =>
      simp only [buildMachine, hi]
      exact h.fill hi

/-- The frames of every run are numbered. -/
theorem numbered_run (tid : UInt16) (steps : List (BuildStep ι)) :
    ((buildMachine ι).state (.start ι tid) steps).Numbered tid
      ((buildMachine ι).trace (.start ι tid) steps) :=
  (buildMachine ι).trace_invariant (fun s os => s.Numbered tid os) (numbered_start ι tid)
    (fun _ _ a h => h.step a) steps

/-! ### The client -/

variable {σ : Type*}

/-- An operation, with the contents of its response buffer and what the connection is like when it
begins. -/
structure ClientCall (σ : Type*) where
  request : Request
  resp : ResponseBuffer
  errno : Errno
  net : σ

/-- The operations of a client. -/
def requestMachine (T : Transport σ) : Machine (Client (σ × List Bytes)) (ClientCall σ) Reply where
  step cl c :=
    let r := c.request.call T.logged ⟨cl.ctx, c.errno, c.net, cl.conn.net.2⟩ c.resp
    (r.2, [r.1])

theorem frameTid_frame {q : Request} (hq : q.valid = true) (tid : UInt16) (uid : UInt8) :
    frameTid (q.frame tid uid) = tid := by
  cases q with
  | read addr qty => exact word_highByte_lowByte tid
  | writeSingle addr value => exact word_highByte_lowByte tid
  | writeMultiple addr qty data =>
    have hqty : qty.toNat ≤ MODBUS_MAX_WRITE_REGISTERS := (decide_eq_true_eq.mp hq).2
    simp only [Request.frame, buildFc16Request_take tid uid addr hqty data]
    exact word_highByte_lowByte tid

/-- An operation sends nothing, or a request with the next identifier. -/
theorem call_logged_cases (T : Transport σ) (cl : Client (σ × List Bytes)) (q : Request)
    (resp : ResponseBuffer) :
    let cl' := (q.call T.logged cl resp).2
    cl'.ctx = cl.ctx ∧ cl'.log = cl.log ∨
      cl'.ctx = { cl.ctx with tid := nextTid cl.ctx.tid } ∧
        ∃ req, frameTid req = nextTid cl.ctx.tid ∧ cl'.log = cl.log ++ [req] := by
  have hctx := Request.ctx_exchange_eq T.logged cl q
  have hlog := Request.log_exchange T cl q
  rw [q.call_eq T.logged cl resp]
  by_cases hsent : q.valid = true ∧ 0 ≤ cl.ctx.sock
  · rw [if_pos hsent] at hctx hlog
    exact .inr ⟨hctx, _, frameTid_frame hsent.1 _ _, hlog⟩
  · rw [if_neg hsent] at hctx hlog
    exact .inl ⟨hctx, hlog⟩

/-- The requests sent, and the context that counts them from `tid`. -/
structure RequestsNumbered (tid : UInt16) (cl : Client (σ × List Bytes)) : Prop where
  next : (nextTid cl.ctx.tid).toNat = (tid.toNat + cl.log.length) % 65535 + 1
  sent : ∀ k req, cl.log[k]? = some req →
    (frameTid req).toNat = (tid.toNat + k) % 65535 + 1

theorem RequestsNumbered.step {tid : UInt16} {cl : Client (σ × List Bytes)}
    (h : RequestsNumbered tid cl) (T : Transport σ) (c : ClientCall σ) :
    RequestsNumbered tid ((requestMachine T).step cl c).1 := by
  have hcases := call_logged_cases T ⟨cl.ctx, c.errno, c.net, cl.conn.net.2⟩ c.request c.resp
  simp only [requestMachine]
  generalize (c.request.call T.logged ⟨cl.ctx, c.errno, c.net, cl.conn.net.2⟩ c.resp).2 = cl'
    at hcases ⊢
  rcases hcases with ⟨hctx, hnet⟩ | ⟨hctx, req, hreq, hnet⟩
  · exact ⟨by rw [hctx, hnet]; exact h.next, by rw [hnet]; exact h.sent⟩
  · have hnet : cl'.log = cl.log ++ [req] := hnet
    refine ⟨?_, fun k req' hk => ?_⟩
    · rw [hctx, hnet, List.length_append, List.length_singleton]
      dsimp only
      rw [toNat_nextTid, h.next]
      omega
    · rw [hnet] at hk
      rcases Nat.lt_or_ge k cl.log.length with hlt | hle
      · rw [List.getElem?_append_left hlt] at hk
        exact h.sent k req' hk
      · rw [List.getElem?_append_right hle] at hk
        obtain ⟨hzero, rfl⟩ : k - cl.log.length = 0 ∧ req = req' := by
          simpa [List.getElem?_singleton] using hk
        rw [hreq, h.next, Nat.le_antisymm (Nat.le_of_sub_eq_zero hzero) hle]

/-! ### Distinct identifiers -/

/-- No identifier is zero, and those of requests less than 65535 apart are distinct. -/
def RequestsDistinct (reqs : List Bytes) : Prop :=
  (∀ req ∈ reqs, frameTid req ≠ 0) ∧
    ∀ i j req req', reqs[i]? = some req → reqs[j]? = some req' → i < j → j < i + 65535 →
      frameTid req ≠ frameTid req'

theorem RequestsNumbered.requestsDistinct {tid : UInt16} {cl : Client (σ × List Bytes)}
    (h : RequestsNumbered tid cl) : RequestsDistinct cl.log := by
  refine ⟨fun req hreq hzero => ?_, fun i j req req' hi hj hlt hlt' heq => ?_⟩
  · obtain ⟨k, hk⟩ := List.getElem?_of_mem hreq
    have hid := h.sent k req hk
    rw [hzero] at hid
    exact Nat.succ_ne_zero _ hid.symm
  · have hid := h.sent i req hi
    have hid' := h.sent j req' hj
    rw [heq] at hid
    omega

/-- **Identifiers are distinct.** A call that is refused takes none and stores nothing, and no two
frames of a context, and no two requests of a connection, that are less than 65535 apart have the
same one. -/
theorem tids_distinct (tid : UInt16) (steps : List (BuildStep ι)) (T : Transport σ)
    (ctx : MbTcpClientCtx) (errno : Errno) (net : σ) (calls : List (ClientCall σ)) :
    (∀ (call : BuildCall) (tid : UInt16), (call.build tid).rc < 0 →
        (call.build tid).tid = tid ∧ (call.build tid).stores = []) ∧
      FramesDistinct ((buildMachine ι).trace (.start ι tid) steps) ∧
      RequestsDistinct
        ((requestMachine T).state ⟨ctx, errno, net, []⟩ calls).conn.net.2 := by
  refine ⟨fun call tid hrc => ?_, (numbered_run tid steps).framesDistinct, ?_⟩
  · rcases call.build_cases tid with hrefused | ⟨haccepted, -⟩
    · rw [hrefused]
      exact ⟨rfl, rfl⟩
    · exact absurd hrc (Int.not_lt.mpr haccepted)
  · have hstart : RequestsNumbered (σ := σ) ctx.tid ⟨ctx, errno, net, []⟩ :=
      ⟨toNat_nextTid ctx.tid, fun k req hk => absurd hk (by simp [Client.log])⟩
    exact ((requestMachine T).invariant (RequestsNumbered ctx.tid) hstart
      (fun _ c h => h.step T c) calls).requestsDistinct

end LoopCharger.Modbus

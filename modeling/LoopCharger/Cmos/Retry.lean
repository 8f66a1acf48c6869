import LoopCharger.Cmos.Lookup

/-!
# When a publisher is looked for again

Which requests a pass of the loop of `cmos_sub_spin_ctx` makes for a slot that has no publisher. A
request needs the connection to the master, which every lookup that goes wrong closes. It is made
again when no publisher at all is connected (`ctx_reconnect_all_pubs`), but not by the retry that
runs every two seconds while some other slot still has a publisher.

## Main definitions

* `Redial.Succeeds`, `Reaches`, `Quiet`: what the network does in a pass.
* `WillRetry`: what a pass depends on.

## Main results

* `slotLoop_lookup_iff`: a loop over slots comes to a request when those before it are answered.
* `lookup_retried_iff`: a pass makes the request for a slot exactly when `WillRetry` says so.
-/

namespace LoopCharger.Cmos

open Lib

variable {κ : Type}

/-- The master is connected to, and takes the lines that it is sent. -/
def Redial.Succeeds (d : Redial) : Prop := d.connected = true ∧ ∀ k, d.taken k = true

/-- The request for the slot `s` is seen, on a connection that takes it. -/
def LookedUp (s : ℕ) (line : Bytes) (events : List (SubscriberEvent κ)) : Prop :=
  ∃ sock, .lookup s sock line true ∈ events

/-- The lookups before that of the slot `s` are answered, and its own request is taken. -/
def Reaches (wanted : ℕ → Bool) (replies : ℕ → Reply) (s : ℕ) : Prop :=
  (∀ i < s, wanted i = true → (replies i).answered = true) ∧ (replies s).taken = true

/-- Some publisher that is named is connected to. -/
def Reply.connectsSome (r : Reply) : Bool :=
  r.taken && (r.publishers.zip r.connects).any (·.2)

/-- In none of the lookups that are made, up to the first that is not answered, a publisher is
connected to. -/
def Quiet (wanted : ℕ → Bool) (count : ℕ) (replies : ℕ → Reply) : Prop :=
  ∀ s < count, wanted s = true → (∀ i < s, wanted i = true → (replies i).answered = true) →
    (replies s).connectsSome = false

/-- What the request for a slot without a publisher depends on. -/
def WillRetry (n : Subscriber κ) (p : Pass) (s : ℕ) : Prop :=
  if ctxActiveCount n.ctx = 0 then
    Reaches (slotUsed n.ctx) p.replies s ∨
      (Quiet (slotUsed n.ctx) n.ctx.subSlots.length p.replies ∧
        Reaches (slotUsed n.ctx) p.replies' s)
  else n.masterSock ≠ none ∧ Reaches (slotMissing n.ctx) p.replies' s

/-! ### One loop over slots -/

/-- A request that is seen is for a slot of the loop. -/
theorem lookup_mem_ctxLookupSlot {n : Subscriber κ} {i s sock : ℕ} {r : Reply} {line : Bytes}
    {taken : Bool} (h : .lookup s sock line taken ∈ (ctxLookupSlot n i r).2.2) :
    s = i ∧ n.masterSock = some sock ∧ line = lookupLine n.ctx i ∧ taken = r.taken := by
  cases hsock : n.masterSock with
  | none =>
    rw [ctxLookupSlot_of_none hsock] at h
    cases h
  | some sock' =>
    rw [(ctxLookupSlot_of_some hsock i r).2] at h
    rcases List.mem_cons.mp h with heq | h
    · obtain ⟨rfl, rfl, rfl, rfl⟩ := SubscriberEvent.lookup.inj heq
      exact ⟨rfl, rfl, rfl, rfl⟩
    · split_ifs at h
      · simp at h
      · cases h

theorem lookup_mem_slotLoop {wanted : SubCtx κ → ℕ → Bool} {replies : ℕ → Reply} {n : Subscriber κ}
    {slots : List ℕ} {s sock : ℕ} {line : Bytes} {taken : Bool}
    (h : .lookup s sock line taken ∈ (slotLoop wanted replies n slots).2) : s ∈ slots := by
  induction slots generalizing n with
  | nil => cases h
  | cons i slots ih =>
    rw [slotLoop] at h
    split_ifs at h
    · rcases List.mem_append.mp h with h | h
      · exact (lookup_mem_ctxLookupSlot h).1 ▸ List.mem_cons_self
      · exact List.mem_cons_of_mem i (ih h)
    · exact List.mem_cons_of_mem i (ih h)

/-- Whether a slot is wanted does not depend on the connections of other slots. -/
def Local (wanted : SubCtx κ → ℕ → Bool) : Prop :=
  ∀ ⦃s : ℕ⦄ ⦃ctx ctx' : SubCtx κ⦄, SameBut s ctx ctx' → ∀ i, i ≠ s → wanted ctx' i = wanted ctx i

theorem local_slotUsed : Local (slotUsed : SubCtx κ → ℕ → Bool) := by
  intro s ctx ctx' hsame i _
  rw [slotUsed, slotUsed, hsame.1]

theorem local_slotMissing : Local (slotMissing : SubCtx κ → ℕ → Bool) := by
  intro s ctx ctx' hsame i hi
  rw [slotMissing, slotMissing, local_slotUsed hsame i hi, hsame.2 i hi]

/-- A lookup for `i` changes nothing for the slots but `i`. -/
theorem Local.forall_wanted {wanted : SubCtx κ → ℕ → Bool} (hlocal : Local wanted)
    {n : Subscriber κ} {i : ℕ} (r : Reply) {slots : List ℕ} (hne : ∀ j ∈ slots, j ≠ i)
    {P : ℕ → Prop} :
    (∀ j ∈ slots, wanted (ctxLookupSlot n i r).1.ctx j = true → P j) ↔
      ∀ j ∈ slots, wanted n.ctx j = true → P j :=
  forall₂_congr fun j hj => by rw [hlocal (ctxLookupSlot_sameBut n i r) j (hne j hj)]

theorem lookupLine_of_sameBut {s : ℕ} {ctx ctx' : SubCtx κ} (h : SameBut s ctx ctx') (i : ℕ) :
    lookupLine ctx' i = lookupLine ctx i := by
  rw [lookupLine, lookupLine, h.1]

/-- After a lookup the master is connected if it was and the lookup was answered. -/
theorem ctxLookupSlot_masterSock (n : Subscriber κ) (s : ℕ) (r : Reply) :
    (ctxLookupSlot n s r).1.masterSock ≠ none ↔ n.masterSock ≠ none ∧ r.answered = true := by
  cases hsock : n.masterSock with
  | none => simp [ctxLookupSlot_of_none hsock, hsock]
  | some sock => simp [(ctxLookupSlot_of_some hsock s r).1]

/-- The lookup of another slot sends no request for `s`. -/
theorem lookedUp_append_of_ne {n : Subscriber κ} {s i : ℕ} (hsi : s ≠ i) {r : Reply} {line : Bytes}
    {events : List (SubscriberEvent κ)} :
    LookedUp s line ((ctxLookupSlot n i r).2.2 ++ events) ↔ LookedUp s line events := by
  constructor
  · rintro ⟨sock, h⟩
    rcases List.mem_append.mp h with h | h
    · exact absurd (lookup_mem_ctxLookupSlot h).1 hsi
    · exact ⟨sock, h⟩
  · rintro ⟨sock, h⟩
    exact ⟨sock, List.mem_append_right _ h⟩

/-- **When a loop comes to the request for a slot**: the master is connected, and answers the
lookups before. -/
theorem slotLoop_lookup_iff {wanted : SubCtx κ → ℕ → Bool} (hlocal : Local wanted)
    (replies : ℕ → Reply) {n : Subscriber κ} {pre post : List ℕ} {s : ℕ}
    (hnodup : (pre ++ s :: post).Nodup) (hs : wanted n.ctx s = true) :
    LookedUp s (lookupLine n.ctx s) (slotLoop wanted replies n (pre ++ s :: post)).2 ↔
      n.masterSock ≠ none ∧ (∀ i ∈ pre, wanted n.ctx i = true → (replies i).answered = true) ∧
        (replies s).taken = true := by
  induction pre generalizing n with
  | nil =>
    have hpost : s ∉ post := (List.nodup_cons.mp hnodup).1
    have hlater : ∀ m : Subscriber κ, ¬ LookedUp s (lookupLine n.ctx s)
        (slotLoop wanted replies m post).2 := by
      rintro m ⟨_, h⟩
      exact hpost (lookup_mem_slotLoop h)
    rw [List.nil_append, slotLoop, if_pos hs]
    constructor
    · rintro ⟨sock, h⟩
      rcases List.mem_append.mp h with h | h
      · obtain ⟨-, hsock, -, htaken⟩ := lookup_mem_ctxLookupSlot h
        exact ⟨by simp [hsock], fun i hi => absurd hi List.not_mem_nil, htaken.symm⟩
      · exact absurd ⟨sock, h⟩ (hlater _)
    · rintro ⟨hmaster, -, htaken⟩
      obtain ⟨sock, hsock⟩ := Option.ne_none_iff_exists'.mp hmaster
      refine ⟨sock, List.mem_append_left _ ?_⟩
      rw [(ctxLookupSlot_of_some hsock s (replies s)).2, htaken]
      exact List.mem_cons_self
  | cons i pre ih =>
    obtain ⟨hi, hnodup⟩ := List.nodup_cons.mp hnodup
    have hsi : s ≠ i := fun heq => hi (heq ▸ by simp)
    have hpre : ∀ j ∈ pre, j ≠ i := fun j hj heq => hi (heq ▸ List.mem_append_left _ hj)
    rw [List.cons_append, slotLoop]
    by_cases hwanted : wanted n.ctx i = true
    · have hsame := ctxLookupSlot_sameBut n i (replies i)
      have hrest := @ih (ctxLookupSlot n i (replies i)).1 hnodup
        ((hlocal hsame s hsi).trans hs)
      rw [lookupLine_of_sameBut hsame, ctxLookupSlot_masterSock] at hrest
      rw [if_pos hwanted, lookedUp_append_of_ne hsi, hrest]
      rw [hlocal.forall_wanted (replies i) hpre, List.forall_mem_cons]
      simp only [hwanted, forall_const]
      tauto
    · rw [if_neg hwanted, ih hnodup hs, List.forall_mem_cons]
      simp [hwanted]

/-- The slots before `s` and those behind it. -/
theorem range_eq_append {s count : ℕ} (hs : s < count) :
    List.range count = List.range s ++ s :: List.range' (s + 1) (count - s - 1) := by
  have hsplit := List.range'_append_1 (s := 0) (m := s) (n := count - s - 1 + 1)
  rw [Nat.zero_add, show s + (count - s - 1 + 1) = count by omega] at hsplit
  rw [List.range_eq_range', List.range_eq_range', ← hsplit, List.range'_succ]

/-- **When a loop over all slots comes to the request for a slot.** -/
theorem slotLoop_range_iff {wanted : SubCtx κ → ℕ → Bool} (hlocal : Local wanted)
    (replies : ℕ → Reply) {n : Subscriber κ} {s : ℕ} (hlt : s < n.ctx.subSlots.length)
    (hs : wanted n.ctx s = true) :
    LookedUp s (lookupLine n.ctx s)
        (slotLoop wanted replies n (List.range n.ctx.subSlots.length)).2 ↔
      n.masterSock ≠ none ∧ Reaches (wanted n.ctx) replies s := by
  have hnodup : (List.range n.ctx.subSlots.length).Nodup := List.nodup_range
  rw [range_eq_append hlt] at hnodup ⊢
  rw [slotLoop_lookup_iff hlocal replies hnodup hs, Reaches]
  simp only [List.mem_range]

theorem slotUsed_lt {ctx : SubCtx κ} {s : ℕ} (hs : slotUsed ctx s = true) :
    s < ctx.subSlots.length := by
  rw [slotUsed, Option.any_eq_true] at hs
  obtain ⟨slot, hget, -⟩ := hs
  exact (List.getElem?_eq_some_iff.mp hget).1

/-- A loop that does not come to the request has lost the master, or had none. -/
theorem slotLoop_masterSock {wanted : SubCtx κ → ℕ → Bool} (hlocal : Local wanted)
    (replies : ℕ → Reply) {n : Subscriber κ} {slots : List ℕ} (hnodup : slots.Nodup) :
    (slotLoop wanted replies n slots).1.masterSock ≠ none ↔
      n.masterSock ≠ none ∧ ∀ i ∈ slots, wanted n.ctx i = true → (replies i).answered = true := by
  induction slots generalizing n with
  | nil => simp [slotLoop]
  | cons i slots ih =>
    obtain ⟨hi, hnodup⟩ := List.nodup_cons.mp hnodup
    rw [slotLoop, List.forall_mem_cons]
    by_cases hwanted : wanted n.ctx i = true
    · have hne : ∀ j ∈ slots, j ≠ i := fun j hj heq => hi (heq ▸ hj)
      rw [if_pos hwanted]
      dsimp only
      rw [ih hnodup, ctxLookupSlot_masterSock, hlocal.forall_wanted (replies i) hne]
      simp only [hwanted, forall_const]
      tauto
    · rw [if_neg hwanted, ih hnodup]
      simp [hwanted]

/-! ### Connecting to all publishers -/

/-- The master is connected to. -/
theorem ctxReconnectMaster_of_succeeds (n : Subscriber κ) {d : Redial} (h : d.Succeeds) :
    let r := ctxReconnectMaster n d
    r.1 = { n with
      ctx := { n.ctx with opened := n.ctx.opened + 1 }, masterSock := some n.ctx.opened } ∧
      r.2.1 = 0 ∧ ∀ s sock line taken, .lookup s sock line taken ∉ r.2.2 := by
  have hsend : ∀ (sock k : ℕ) (lines : List Bytes),
      (sendLines sock d.taken k lines : Bool × List (SubscriberEvent κ)) =
        (true, lines.map (.sent sock)) := by
    intro sock k lines
    induction lines generalizing k with
    | nil => rfl
    | cons line lines ih => rw [sendLines, if_pos (h.2 k), ih]; rfl
  simp only [ctxReconnectMaster, hsend, h.1]
  refine ⟨rfl, rfl, fun s sock line taken hmem => ?_⟩
  simp at hmem

/-! ### Whether a publisher is connected -/

/-- No entry is active. -/
def Idle (ctx : SubCtx κ) : Prop := ∀ c ∈ ctx.pubConns, c.active = false

/-- There is a table, and its active entries are those with a socket. -/
def Linked (ctx : SubCtx κ) : Prop :=
  ctx.pubConns ≠ [] ∧ ∀ c ∈ ctx.pubConns, (c.active = true ↔ c.sock.isSome = true)

/-- An entry is changed. -/
theorem Linked.set {ctx ctx' : SubCtx κ} (h : Linked ctx) {i : ℕ} {c : PubConn}
    (hconns : ctx'.pubConns = ctx.pubConns.set i c)
    (hc : c.active = true ↔ c.sock.isSome = true) : Linked ctx' := by
  refine ⟨by simpa [hconns] using h.1, fun d hd => ?_⟩
  rw [hconns] at hd
  rcases List.mem_or_eq_of_mem_set hd with hd | rfl
  · exact h.2 d hd
  · exact hc

theorem linked_addPub (ctx : SubCtx κ) (s : ℕ) (node : Bytes) (connected : Bool)
    (h : Linked ctx) : Linked (ctxAddPub ctx s node connected).1 := by
  obtain ⟨-, heq⟩ | ⟨-, -, heq⟩ | ⟨i, c, -, -, -, -, heq⟩ := ctxAddPub_cases ctx s node connected
  · rwa [heq]
  · rwa [heq]
  · rw [heq]
    exact h.set rfl (by simp [PubConn.open])

theorem linked_spinEvent (ctx : SubCtx κ) (i : ℕ) (delivered : Bytes) (h : Linked ctx) :
    Linked (spinEvent ctx i delivered).1 := by
  obtain heq | ⟨c, sock, hget, hsock, hactive, ⟨got, -, heq⟩ | heq⟩ :=
    spinEvent_cases ctx i delivered
  · rwa [heq]
  · obtain ⟨hsock', hactive', -⟩ := PubConn.receive_frame c got
    rw [heq]
    exact h.set rfl (by simp [hsock', hactive', hsock, hactive])
  · rw [heq]
    exact h.set rfl (by simp [PubConn.close])

/-- **In every run** the active entries are those with a socket. -/
theorem linked (nodeName : Bytes) (actions : List (SubscriberAction κ)) :
    Linked (subscriberMachine.state (cmosSubCreate nodeName) actions).ctx := by
  refine ctx_invariant Linked linked_addPub linked_spinEvent (fun _ _ _ h => h) nodeName
    ⟨?_, fun c hc => ?_⟩ actions
  · exact List.ne_nil_of_length_pos (by rw [SubCtx.init, List.length_replicate]; decide)
  · rw [List.eq_of_mem_replicate hc]
    exact ⟨(absurd · Bool.false_ne_true), (absurd · Bool.false_ne_true)⟩

theorem Linked.activeCount_eq_zero {ctx : SubCtx κ} (h : Linked ctx) :
    ctxActiveCount ctx = 0 ↔ Idle ctx := by
  rw [ctxActiveCount, List.countP_eq_zero]
  refine forall₂_congr fun c hc => ?_
  have hiff := h.2 c hc
  cases hactive : c.active with
  | false => simp
  | true => simp [hiff.mp hactive]

theorem not_idle_of_set {ctx ctx' : SubCtx κ} {i : ℕ} {c c' : PubConn}
    (hget : ctx.pubConns[i]? = some c) (hconns : ctx'.pubConns = ctx.pubConns.set i c')
    (hactive : c'.active = true) : ¬ Idle ctx' := by
  intro hidle
  have hlt := (List.getElem?_eq_some_iff.mp hget).1
  have hmem : c' ∈ ctx'.pubConns := hconns ▸ List.mem_set hlt c'
  rw [hidle c' hmem] at hactive
  cases hactive

/-- A publisher that is connected stays so. -/
theorem not_idle_addPub (ctx : SubCtx κ) (s : ℕ) (node : Bytes) (connected : Bool)
    (h : ¬ Idle ctx) : ¬ Idle (ctxAddPub ctx s node connected).1 := by
  obtain ⟨-, heq⟩ | ⟨-, -, heq⟩ | ⟨i, c, -, -, hget, -, heq⟩ := ctxAddPub_cases ctx s node connected
  · rwa [heq]
  · rwa [heq]
  · rw [heq]
    exact not_idle_of_set hget rfl rfl

/-- The first publisher gets an entry when it is connected to. -/
theorem Idle.addPub {ctx : SubCtx κ} (h : Idle ctx) (hne : ctx.pubConns ≠ []) (s : ℕ) (node : Bytes)
    (connected : Bool) :
    (connected = false ∧ (ctxAddPub ctx s node connected).1 = ctx) ∨
      (connected = true ∧ ¬ Idle (ctxAddPub ctx s node connected).1) := by
  obtain ⟨hfound, -⟩ | ⟨-, hrefused, heq⟩ | ⟨i, c, -, hconn, hget, -, heq⟩ :=
    ctxAddPub_cases ctx s node connected
  · have hnone : ctxFindConn ctx node s = none :=
      List.findIdx?_eq_none_iff.mpr fun c hc => by simp [h c hc]
    rw [hnone] at hfound
    cases hfound
  · obtain ⟨c, hc⟩ := List.exists_mem_of_ne_nil _ hne
    have hfalse := hrefused.resolve_right fun hall => by
      have hactive := hall c hc
      rw [h c hc] at hactive
      cases hactive
    exact .inl ⟨hfalse, by rw [heq]⟩
  · refine .inr ⟨hconn, ?_⟩
    rw [heq]
    exact not_idle_of_set hget rfl rfl

/-- Whether a lookup connects to some publisher, when none is connected yet. -/
theorem idle_lookupPubs {ctx : SubCtx κ} (h : Idle ctx) (hne : ctx.pubConns ≠ []) (s : ℕ)
    (r : Reply) :
    Idle (lookupPubs ctx s r).ctx ↔ (r.publishers.zip r.connects).any (·.2) = false := by
  have hstay : ∀ (pubs : List (Bytes × Bytes × Bytes)) (l : Lookup κ), ¬ Idle l.ctx →
      ¬ Idle (pubs.foldl (Lookup.add s) l).ctx := by
    intro pubs
    induction pubs with
    | nil => exact fun _ => id
    | cons pub pubs ih => exact fun l hl => ih (l.add s pub) (not_idle_addPub l.ctx s _ _ hl)
  have hfold : ∀ (pubs : List (Bytes × Bytes × Bytes)) (l : Lookup κ), l.ctx = ctx →
      (Idle (pubs.foldl (Lookup.add s) l).ctx ↔ (pubs.zip l.connects).any (·.2) = false) := by
    intro pubs
    induction pubs with
    | nil => exact fun l hl => by simp [hl, h]
    | cons pub pubs ih =>
      intro l hl
      rw [List.foldl_cons]
      have hadd := h.addPub hne s pub.2.2 (l.connects.headD false)
      rw [← hl] at hadd
      rcases hadd with ⟨hfalse, hctx⟩ | ⟨htrue, hidle⟩
      · have hrest := ih (l.add s pub) (hctx.trans hl)
        rw [hrest, Lookup.add]
        cases hc : l.connects with
        | nil => simp
        | cons b bs =>
          rw [hc] at hfalse
          obtain rfl : b = false := hfalse
          simp
      · refine iff_of_false (hstay pubs (l.add s pub) hidle) ?_
        cases hc : l.connects with
        | nil =>
          rw [hc] at htrue
          cases htrue
        | cons b bs =>
          rw [hc] at htrue
          obtain rfl : b = true := htrue
          simp
  exact hfold r.publishers ⟨ctx, false, r.connects, []⟩ rfl

theorem idle_ctxLookupSlot {n : Subscriber κ} (h : Idle n.ctx) (hne : n.ctx.pubConns ≠ [])
    (hmaster : n.masterSock ≠ none) (s : ℕ) (r : Reply) :
    Idle (ctxLookupSlot n s r).1.ctx ↔ r.connectsSome = false := by
  obtain ⟨sock, hsock⟩ := Option.ne_none_iff_exists'.mp hmaster
  rw [(ctxLookupSlot_of_some hsock s r).1, Reply.connectsSome]
  cases htaken : r.taken with
  | false => simpa using h
  | true => simpa using idle_lookupPubs h hne s r

/-- Without the master nothing is looked up. -/
theorem slotLoop_of_none (wanted : SubCtx κ → ℕ → Bool) (replies : ℕ → Reply) {n : Subscriber κ}
    (h : n.masterSock = none) (slots : List ℕ) : slotLoop wanted replies n slots = (n, []) := by
  induction slots with
  | nil => rfl
  | cons s slots ih =>
    simp only [slotLoop, ctxLookupSlot_of_none h, ih]
    split_ifs <;> rfl

/-- What holds of the numbers from `k` on as long as the wanted ones before are answered: the first
number, and the others when it is answered too. -/
theorem forall_while_succ (wanted answered quiet : ℕ → Prop) (k count : ℕ) :
    (∀ s, k ≤ s → s < k + (count + 1) → wanted s →
        (∀ i, k ≤ i → i < s → wanted i → answered i) → quiet s) ↔
      (wanted k → quiet k) ∧ ((wanted k → answered k) →
        ∀ s, k + 1 ≤ s → s < k + 1 + count → wanted s →
          (∀ i, k + 1 ≤ i → i < s → wanted i → answered i) → quiet s) := by
  constructor
  · intro hall
    refine ⟨fun hk => hall k (Nat.le_refl k) (by omega) hk fun i hi hlt => by omega, ?_⟩
    intro hfirst s hle hlt hs hbefore
    refine hall s (by omega) (by omega) hs fun i hi hlt hw => ?_
    rcases Nat.eq_or_lt_of_le hi with rfl | hgt
    · exact hfirst hw
    · exact hbefore i hgt hlt hw
  · rintro ⟨hk, hrest⟩ s hle hlt hs hbefore
    rcases Nat.eq_or_lt_of_le hle with rfl | hgt
    · exact hk hs
    · exact hrest (hbefore k (Nat.le_refl k) hgt) s hgt (by omega) hs
        fun i hi => hbefore i (by omega)

/-- Whether the loop over all slots connects to some publisher, when none is connected yet. -/
theorem idle_slotLoop (replies : ℕ → Reply) {n : Subscriber κ} (h : Idle n.ctx)
    (hlinked : Linked n.ctx) (hmaster : n.masterSock ≠ none) (k count : ℕ) :
    Idle (slotLoop slotUsed replies n (List.range' k count)).1.ctx ↔
      ∀ s, k ≤ s → s < k + count → slotUsed n.ctx s = true →
        (∀ i, k ≤ i → i < s → slotUsed n.ctx i = true → (replies i).answered = true) →
        (replies s).connectsSome = false := by
  induction count generalizing n k with
  | zero =>
    refine iff_of_true h fun s hle hlt => ?_
    omega
  | succ count ih =>
    rw [List.range'_succ, slotLoop, forall_while_succ]
    by_cases hused : slotUsed n.ctx k = true
    · have hone := idle_ctxLookupSlot h hlinked.1 hmaster k (replies k)
      have hsame : ∀ i, slotUsed (ctxLookupSlot n k (replies k)).1.ctx i = slotUsed n.ctx i :=
        fun i => by rw [slotUsed, slotUsed, (ctxLookupSlot_sameBut n k (replies k)).1]
      have hlinked' := ctxLookupSlot_invariant Linked linked_addPub hlinked k (replies k)
      have hmaster' := ctxLookupSlot_masterSock n k (replies k)
      rw [if_pos hused]
      dsimp only
      by_cases hquiet : (replies k).connectsSome = false
      · by_cases hanswered : (replies k).answered = true
        · rw [ih (hone.mpr hquiet) hlinked' (hmaster'.mpr ⟨hmaster, hanswered⟩)]
          simp only [hsame, hquiet, hanswered, implies_true, forall_const, true_and]
        · -- the master is lost, and nothing more is looked up
          have hnone : (ctxLookupSlot n k (replies k)).1.masterSock = none := by
            by_contra hsome
            exact hanswered (hmaster'.mp hsome).2
          rw [slotLoop_of_none _ _ hnone]
          exact iff_of_true (hone.mpr hquiet)
            ⟨fun _ => hquiet, fun hfirst => absurd (hfirst hused) hanswered⟩
      · exact iff_of_false (slotLoop_invariant (fun ctx => ¬ Idle ctx) not_idle_addPub _ _
          (fun hidle => hquiet (hone.mp hidle)) _) fun hall => hquiet (hall.1 hused)
    · rw [if_neg hused, ih h hlinked hmaster]
      simp only [hused, false_implies, forall_const, true_and, Bool.false_eq_true]

/-! ### A pass -/

/-- Connecting to all publishers is the loop over the slots with the master connected. -/
theorem ctxReconnectAllPubs_eq (n : Subscriber κ) {d : Redial} (hd : d.Succeeds)
    (replies : ℕ → Reply) :
    ∃ m : Subscriber κ, m.masterSock ≠ none ∧ (∃ opened, m.ctx = { n.ctx with opened := opened }) ∧
      (ctxReconnectAllPubs n d replies).1 =
        (slotLoop slotUsed replies m (List.range n.ctx.subSlots.length)).1 ∧
      ∀ s line, LookedUp s line (ctxReconnectAllPubs n d replies).2 ↔
        LookedUp s line (slotLoop slotUsed replies m (List.range n.ctx.subSlots.length)).2 := by
  by_cases hnone : n.masterSock = none
  · obtain ⟨hstate, hok, hevents⟩ := ctxReconnectMaster_of_succeeds n hd
    refine ⟨(ctxReconnectMaster n d).1, by simp [hstate], ⟨n.ctx.opened + 1, by rw [hstate]⟩,
      ?_, ?_⟩
    · simp only [ctxReconnectAllPubs, if_pos hnone, hok, hstate, ne_eq, not_true_eq_false, if_false]
    · intro s line
      simp only [ctxReconnectAllPubs, if_pos hnone, hok, ne_eq, not_true_eq_false, if_false, hstate]
      constructor
      · rintro ⟨sock, h⟩
        exact ⟨sock, (List.mem_append.mp h).resolve_left (hevents s sock line true)⟩
      · rintro ⟨sock, h⟩
        exact ⟨sock, List.mem_append_right _ h⟩
  · refine ⟨n, hnone, ⟨n.ctx.opened, rfl⟩, ?_, fun s line => ?_⟩
    · simp [ctxReconnectAllPubs, hnone]
    · simp [ctxReconnectAllPubs, hnone]

/-- **When connecting to all publishers comes to the request for a slot.** -/
theorem ctxReconnectAllPubs_lookup_iff (n : Subscriber κ) {d : Redial} (hd : d.Succeeds)
    (replies : ℕ → Reply) {s : ℕ} (hs : slotUsed n.ctx s = true) :
    LookedUp s (lookupLine n.ctx s) (ctxReconnectAllPubs n d replies).2 ↔
      Reaches (slotUsed n.ctx) replies s := by
  obtain ⟨m, hmaster, ⟨opened, hctx⟩, -, hevents⟩ := ctxReconnectAllPubs_eq n hd replies
  have hlt : s < m.ctx.subSlots.length := by
    rw [hctx]
    exact slotUsed_lt hs
  have hloop := slotLoop_range_iff local_slotUsed replies hlt (by rw [hctx]; exact hs)
  rw [hctx] at hloop
  rw [hevents]
  exact hloop.trans (and_iff_right hmaster)

/-- When it does not come to the request, the master is lost. -/
theorem ctxReconnectAllPubs_masterSock (n : Subscriber κ) {d : Redial} (hd : d.Succeeds)
    {replies : ℕ → Reply} {s : ℕ} (hs : slotUsed n.ctx s = true)
    (h : ¬ Reaches (slotUsed n.ctx) replies s) :
    (ctxReconnectAllPubs n d replies).1.masterSock = none := by
  obtain ⟨m, -, ⟨opened, hctx⟩, hstate, -⟩ := ctxReconnectAllPubs_eq n hd replies
  by_contra hmaster
  rw [hstate] at hmaster
  have hall := ((slotLoop_masterSock local_slotUsed replies List.nodup_range).mp hmaster).2
  rw [hctx] at hall
  have hlt := slotUsed_lt hs
  have htaken : (replies s).taken = true := by
    have hanswered := hall s (List.mem_range.mpr hlt) hs
    rw [Reply.answered, Bool.and_eq_true] at hanswered
    exact hanswered.1
  exact h ⟨fun i hi hu => hall i (List.mem_range.mpr (Nat.lt_trans hi hlt)) hu, htaken⟩

theorem ctxReconnectAllPubs_subSlots (n : Subscriber κ) {d : Redial} (hd : d.Succeeds)
    (replies : ℕ → Reply) :
    (ctxReconnectAllPubs n d replies).1.ctx.subSlots = n.ctx.subSlots := by
  obtain ⟨m, -, ⟨opened, hctx⟩, hstate, -⟩ := ctxReconnectAllPubs_eq n hd replies
  rw [hstate]
  refine slotLoop_invariant (fun ctx => ctx.subSlots = n.ctx.subSlots)
    (fun ctx s node connected h => ?_) slotUsed replies (by rw [hctx]) _
  exact (ctxAddPub_sameBut ctx s node connected).1.trans h

/-- Whether it connects to some publisher, when none is connected yet. -/
theorem ctxReconnectAllPubs_idle {n : Subscriber κ} (h : Idle n.ctx) (hlinked : Linked n.ctx)
    {d : Redial} (hd : d.Succeeds) (replies : ℕ → Reply) :
    Idle (ctxReconnectAllPubs n d replies).1.ctx ↔
      Quiet (slotUsed n.ctx) n.ctx.subSlots.length replies := by
  obtain ⟨m, hmaster, ⟨opened, hctx⟩, hstate, -⟩ := ctxReconnectAllPubs_eq n hd replies
  have hidle : Idle m.ctx := by rw [hctx]; exact h
  have hlink : Linked m.ctx := by rw [hctx]; exact hlinked
  rw [hstate, List.range_eq_range', idle_slotLoop replies hidle hlink hmaster, hctx, Quiet]
  simp only [Nat.zero_le, Nat.zero_add, forall_const]
  rfl

theorem lookedUp_append {s : ℕ} {line : Bytes} {es fs : List (SubscriberEvent κ)} :
    LookedUp s line (es ++ fs) ↔ LookedUp s line es ∨ LookedUp s line fs := by
  simp only [LookedUp, List.mem_append, exists_or]

/-- What is seen of the publishers is no request. -/
theorem not_lookedUp_conn (s : ℕ) (line : Bytes) (events : List (SubEvent κ)) :
    ¬ LookedUp s line (events.map .conn) := by
  rintro ⟨sock, h⟩
  simp at h

/-- The retry of a pass with a connection. -/
theorem spinConnected_lookup_iff (n : Subscriber κ) {p : Pass} {s : ℕ}
    (hs : slotMissing n.ctx s = true) (htime : p.now - n.lastReconnect ≥ 2) :
    LookedUp s (lookupLine n.ctx s) (spinConnected n p).2 ↔
      n.masterSock ≠ none ∧ Reaches (slotMissing n.ctx) p.replies' s := by
  have hlt : s < n.ctx.subSlots.length := slotUsed_lt (Bool.and_eq_true_iff.mp hs).1
  have hloop := slotLoop_range_iff (n := { n with lastReconnect := p.now }) local_slotMissing
    p.replies' hlt hs
  simp only [spinConnected, if_pos htime]
  rw [lookedUp_append, or_iff_left (not_lookedUp_conn _ _ _)]
  exact hloop

theorem not_lookedUp_spinConnected {n : Subscriber κ} (h : n.masterSock = none) (p : Pass) (s : ℕ)
    (line : Bytes) : ¬ LookedUp s line (spinConnected n p).2 := by
  simp only [spinConnected, lookedUp_append, not_or]
  refine ⟨?_, not_lookedUp_conn _ _ _⟩
  split_ifs
  · rw [slotLoop_of_none slotMissing p.replies' (n := { n with lastReconnect := p.now }) h]
    rintro ⟨sock, h⟩
    cases h
  · rintro ⟨sock, h⟩
    cases h

/-- **What a pass depends on.** In every reachable state, when a used slot has no active connection
and two seconds have passed, and the master is connected to whenever this is tried: the request for
the slot is sent on a connection that takes it if and only if either no connection is active and the
lookups of the slots before are answered, or else no publisher was connected in them and the same
lookups are answered the second time; or some connection is active, the master has not been lost and
the lookups of the slots before that have no connection are answered. -/
theorem lookup_retried_iff (nodeName : Bytes) (actions : List (SubscriberAction κ)) (p : Pass)
    (s : ℕ) :
    let n := subscriberMachine.state (cmosSubCreate nodeName) actions
    slotUsed n.ctx s = true → hasConn n.ctx s = false → p.now - n.lastReconnect ≥ 2 →
      p.redial.Succeeds → p.redial'.Succeeds →
      (LookedUp s (lookupLine n.ctx s) (spinPass n p).2 ↔ WillRetry n p s) := by
  intro n hs hfree htime hd hd'
  have hlinked : Linked n.ctx := linked nodeName actions
  have hmissing : slotMissing n.ctx s = true := by rw [slotMissing, hs, hfree]; rfl
  rw [spinPass, WillRetry]
  by_cases hcount : ctxActiveCount n.ctx = 0
  · have hidle := hlinked.activeCount_eq_zero.mp hcount
    have hfirst := ctxReconnectAllPubs_lookup_iff n hd p.replies hs
    rw [if_pos hcount, if_pos hcount]
    dsimp only
    rw [lookedUp_append, hfirst]
    by_cases hreach : Reaches (slotUsed n.ctx) p.replies s
    · exact iff_of_true (.inl hreach) (.inl hreach)
    -- the first round has lost the master, and the second half is the last chance
    have hlost := ctxReconnectAllPubs_masterSock n hd hs hreach
    have hquiet := ctxReconnectAllPubs_idle hidle hlinked hd p.replies
    have hlinked' := ctxReconnectAllPubs_invariant Linked linked_addPub (fun _ _ _ h => h) hlinked
      p.redial p.replies
    rw [← hlinked'.activeCount_eq_zero] at hquiet
    rw [or_iff_right hreach, or_iff_right hreach]
    split_ifs with hsecond
    · have hslots := ctxReconnectAllPubs_subSlots n hd p.replies
      have hused : slotUsed (ctxReconnectAllPubs n p.redial p.replies).1.ctx = slotUsed n.ctx := by
        funext i
        rw [slotUsed, slotUsed, hslots]
      have hline : lookupLine (ctxReconnectAllPubs n p.redial p.replies).1.ctx s =
          lookupLine n.ctx s := by rw [lookupLine, lookupLine, hslots]
      have hretry := ctxReconnectAllPubs_lookup_iff
        (ctxReconnectAllPubs n p.redial p.replies).1 hd' p.replies' (hused ▸ hs)
      rw [hline, hused] at hretry
      exact hretry.trans (and_iff_right (hquiet.mp hsecond)).symm
    · exact iff_of_false (not_lookedUp_spinConnected hlost p s _)
        fun h => hsecond (hquiet.mpr h.1)
  · rw [if_neg hcount, if_neg hcount]
    dsimp only
    rw [if_neg hcount, List.nil_append]
    exact spinConnected_lookup_iff n hmissing htime

/-- A master that names no publisher. -/
def noPublisher : Reply := ⟨true, [ascii "END\n"], []⟩

/-- A pass in which the master is there and names no publisher. -/
def calmPass : Pass where
  redial := ⟨true, fun _ => true⟩
  replies := fun _ => noPublisher
  redial' := ⟨true, fun _ => true⟩
  replies' := fun _ => noPublisher
  now := 10
  ready := []

/-- One of three slots has its publisher. A slot whose publisher is away is looked up again, behind
another one. -/
theorem lookup_retried_partial :
    let actions : List (SubscriberAction Unit) :=
      [.add (ascii "cmd") none none none (some ())
        ⟨true, [ascii "PUBINFO cmd 10.0.0.2 6001 hmi\nEND\n"], [true]⟩,
       .add (ascii "on") none none none (some ()) noPublisher,
       .add (ascii "off") none none none (some ()) noPublisher]
    let n := subscriberMachine.state (cmosSubCreate (ascii "ups")) actions
    ctxActiveCount n.ctx = 1 ∧ LookedUp 2 (lookupLine n.ctx 2) (spinPass n calmPass).2 := by
  intro actions n
  have hactive : ctxActiveCount n.ctx = 1 := by decide +kernel
  have hmaster : n.masterSock ≠ none := by decide +kernel
  have hretry := lookup_retried_iff (ascii "ups") actions calmPass 2
    (by decide +kernel) (by decide +kernel) (by decide +kernel) ⟨rfl, fun _ => rfl⟩
    ⟨rfl, fun _ => rfl⟩
  refine ⟨hactive, hretry.mpr ?_⟩
  rw [WillRetry, if_neg (by rw [hactive]; exact Nat.one_ne_zero)]
  exact ⟨hmaster, fun _ _ _ => show noPublisher.answered = true by decide, rfl⟩

/-- **A slot is not looked up again** when the master was lost in its first lookup and another slot
has a publisher. -/
theorem not_lookup_retried :
    ¬ ∀ (actions : List (SubscriberAction Unit)) (p : Pass) (s : ℕ),
      let n := subscriberMachine.state (cmosSubCreate (ascii "ups")) actions
      slotUsed n.ctx s = true → hasConn n.ctx s = false → p.now - n.lastReconnect ≥ 2 →
        p.redial.Succeeds → p.redial'.Succeeds →
        LookedUp s (lookupLine n.ctx s) (spinPass n p).2 := by
  intro h
  let actions : List (SubscriberAction Unit) :=
    [.add (ascii "cmd") none none none (some ())
      ⟨true, [ascii "PUBINFO cmd 10.0.0.2 6001 hmi\nEND\n"], [true]⟩,
     .add (ascii "time") none none none (some ()) ⟨true, [], []⟩]
  have hevents : (spinPass (subscriberMachine.state (cmosSubCreate (ascii "ups")) actions)
      calmPass).2 = [] := by decide +kernel
  obtain ⟨sock, hmem⟩ := h actions calmPass 1 (by decide +kernel) (by decide +kernel)
    (by decide +kernel) ⟨rfl, fun _ => rfl⟩ ⟨rfl, fun _ => rfl⟩
  rw [hevents] at hmem
  cases hmem

end LoopCharger.Cmos

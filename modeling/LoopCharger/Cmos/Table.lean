import LoopCharger.Lib.Slots
import LoopCharger.Cmos.Lookup

/-!
# The table of connections over a whole run

What holds of `pub_conns` and `pub_count` in every state of a subscriber. `ctx_find_conn` compares
the name that the master gives with the copy in the entry, which is cut off behind 63 chars: a
longer name is never found again, and a publisher that is named twice in one answer is connected
twice.

## Main definitions

* `PubConn.peer`: the subscription and the publisher of an active entry.
* `Tidy`: what holds of the table.
* `NamesApart`: an answer in which no name is mistaken for a new one.

## Main results

* `Tidy.step`: every step whose answers are so keeps the table tidy.
* `pubConns_tidy`: every run of such steps does.
-/

namespace LoopCharger.Cmos

open Lib

variable {κ : Type}

/-! ### What holds of the table -/

/-- The subscription and the publisher of an active entry. -/
def PubConn.peer (c : PubConn) : Option (Option ℕ × CStr 64) :=
  if c.active then some (c.subSlot, c.nodeName) else none

/-- What holds of an entry. -/
structure PubConn.Sound (subSlots : List (SubSlot κ)) (c : PubConn) : Prop where
  active_iff : c.active = true ↔ c.sock.isSome = true
  rxlen : c.active = false → c.rxlen = 0
  slot : c.active = true →
    ∃ s slot, c.subSlot = some s ∧ subSlots[s]? = some slot ∧ slot.used = true

/-- What holds of the table. -/
structure Tidy (ctx : SubCtx κ) : Prop where
  count : ctx.pubCount = ctx.pubConns.countP (·.active)
  sound : ∀ c ∈ ctx.pubConns, c.Sound ctx.subSlots
  distinct : KeysDistinct PubConn.peer ctx.pubConns

theorem PubConn.peer_eq_some {c : PubConn} {k : Option ℕ × CStr 64} :
    c.peer = some k ↔ c.active = true ∧ c.subSlot = k.1 ∧ c.nodeName = k.2 := by
  rw [peer]
  split_ifs with hactive
  · simp [hactive, Prod.ext_iff]
  · simp [hactive]

theorem PubConn.sound_close (subSlots : List (SubSlot κ)) (c : PubConn) :
    c.close.Sound subSlots :=
  ⟨by simp [close], fun _ => rfl, by simp [close]⟩

theorem slotUsed_iff {ctx : SubCtx κ} {s : ℕ} :
    slotUsed ctx s = true ↔ ∃ slot, ctx.subSlots[s]? = some slot ∧ slot.used = true := by
  simp [slotUsed, Option.any_eq_true]

/-- An entry is changed: it keeps its peer, or it takes one that no entry has, or gives it up. -/
theorem Tidy.set {ctx ctx' : SubCtx κ} (h : Tidy ctx) {i : ℕ} {c c' : PubConn}
    (hget : ctx.pubConns[i]? = some c) (hslots : ctx'.subSlots = ctx.subSlots)
    (hconns : ctx'.pubConns = ctx.pubConns.set i c') (hsound : c'.Sound ctx.subSlots)
    (hpeer : ∀ k, c'.peer = some k → c.peer = some k ∨ ∀ x ∈ ctx.pubConns, x.peer ≠ some k)
    (hcount : ctx'.pubCount + c.active.toNat = ctx.pubCount + c'.active.toNat) : Tidy ctx' where
  count := by
    have hset : (ctx.pubConns.set i c').countP (·.active) + c.active.toNat =
        ctx.pubConns.countP (·.active) + c'.active.toNat := countP_set_of_getElem? _ hget
    have hold := h.count
    rw [hconns]
    omega
  sound d hd := by
    rw [hslots]
    rw [hconns] at hd
    rcases List.mem_or_eq_of_mem_set hd with hd | rfl
    · exact h.sound d hd
    · exact hsound
  distinct := by
    rw [hconns]
    exact h.distinct.set hget hpeer

/-- What the table does not depend on. -/
theorem Tidy.congr {ctx ctx' : SubCtx κ} (h : Tidy ctx) (hslots : ctx'.subSlots = ctx.subSlots)
    (hconns : ctx'.pubConns = ctx.pubConns) (hcount : ctx'.pubCount = ctx.pubCount) :
    Tidy ctx' where
  count := by rw [hcount, hconns, h.count]
  sound := by rw [hslots, hconns]; exact h.sound
  distinct := by rw [hconns]; exact h.distinct

/-! ### A connection that is ready -/

theorem Tidy.spinEvent {ctx : SubCtx κ} (h : Tidy ctx) (i : ℕ) (delivered : Bytes) :
    Tidy (spinEvent ctx i delivered).1 := by
  obtain heq | ⟨c, sock, hget, hsock, hactive, ⟨got, -, heq⟩ | heq⟩ :=
    spinEvent_cases ctx i delivered
  · rwa [heq]
  · obtain ⟨hsock', hactive', hslot'⟩ := PubConn.receive_frame c got
    have hname : (c.receive got).1.nodeName = c.nodeName := by
      simp only [PubConn.receive, PubConn.discard, PubConn.compact]
      split_ifs <;> rfl
    have hsound := h.sound c (List.mem_of_getElem? hget)
    rw [heq]
    refine h.set hget rfl rfl ⟨?_, ?_, ?_⟩ (fun k hk => .inl ?_) (by rw [hactive'])
    · rw [hactive', hsock']
      exact hsound.active_iff
    · rw [hactive', hactive]
      exact fun hfalse => absurd hfalse (by simp)
    · rw [hactive', hslot']
      exact hsound.slot
    · rw [PubConn.peer_eq_some] at hk ⊢
      rwa [hactive', hslot', hname] at hk
  · rw [heq]
    refine h.set hget rfl rfl (PubConn.sound_close _ c) (fun k hk => ?_) ?_
    · exact absurd (PubConn.peer_eq_some.mp hk).1 (by simp [PubConn.close])
    · simp [hactive, PubConn.close]

theorem Tidy.spinEvents {ctx : SubCtx κ} (h : Tidy ctx) (events : List (ℕ × Bytes)) :
    Tidy (spinEvents ctx events).1 := by
  induction events generalizing ctx with
  | nil => exact h
  | cons e events ih => exact ih (h.spinEvent e.1 e.2)

/-! ### A publisher that is named -/

/-- The publisher is not connected for the slot, whatever `ctx_find_conn` says. -/
def Unconnected (ctx : SubCtx κ) (s : ℕ) (node : Bytes) : Prop :=
  ∀ c ∈ ctx.pubConns, c.active = true → c.subSlot = some s → c.nodeName ≠ CStr.copy 63 node

/-- A name that is stored as it is and is not found is not connected. -/
theorem unconnected_of_find {ctx : SubCtx κ} {s : ℕ} {node : Bytes}
    (hnode : (CStr.copy 63 node).val = node) (hfind : ctxFindConn ctx node s = none) :
    Unconnected ctx s node := by
  intro c hc hactive hslot hname
  have hmiss := List.findIdx?_eq_none_iff.mp hfind c hc
  rw [hname, hnode, hactive, hslot] at hmiss
  simp at hmiss

theorem Tidy.addPub {ctx : SubCtx κ} (h : Tidy ctx) {s : ℕ} (hs : slotUsed ctx s = true)
    {node : Bytes} (hnode : ctxFindConn ctx node s = none → Unconnected ctx s node)
    (connected : Bool) : Tidy (ctxAddPub ctx s node connected).1 := by
  obtain ⟨-, heq⟩ | ⟨-, -, heq⟩ | ⟨i, c, hfind, -, hget, hfree, heq⟩ :=
    ctxAddPub_cases ctx s node connected
  · rwa [heq]
  · rwa [heq]
  · obtain ⟨slot, hslot, hused⟩ := slotUsed_iff.mp hs
    rw [heq]
    refine h.set hget rfl rfl ⟨by simp [PubConn.open], by simp [PubConn.open], fun _ => ?_⟩
      (fun k hk => .inr fun x hx hxk => ?_) ?_
    · exact ⟨s, slot, rfl, hslot, hused⟩
    · obtain ⟨-, hk₁, hk₂⟩ := PubConn.peer_eq_some.mp hk
      obtain ⟨hactive, hx₁, hx₂⟩ := PubConn.peer_eq_some.mp hxk
      exact hnode hfind x hx hactive (hx₁.trans hk₁.symm) (hx₂.trans hk₂.symm)
    · simp [hfree, PubConn.open]

/-- A name that is too long for an entry does not stand behind one that begins in the same way. -/
def Reply.NamesApart (r : Reply) : Prop :=
  r.publishers.Pairwise fun pub pub' =>
    pub'.2.2.length ≤ 63 ∨ pub.2.2.take 63 ≠ pub'.2.2.take 63

instance (r : Reply) : Decidable r.NamesApart := inferInstanceAs (Decidable (List.Pairwise _ _))

theorem zero_notMem_of_mem_publishers {r : Reply} {pub : Bytes × Bytes × Bytes}
    (h : pub ∈ r.publishers) : 0 ∉ pub.2.2 := by
  obtain ⟨line, -, hline⟩ := List.mem_filterMap.mp h
  exact zero_notMem_of_pubInfo hline

/-- A name as it is stored. -/
theorem copy_val_of_mem_publishers {r : Reply} {pub : Bytes × Bytes × Bytes}
    (h : pub ∈ r.publishers) : (CStr.copy 63 pub.2.2).val = pub.2.2.take 63 :=
  congrArg (List.take 63) (cString_of_notMem (zero_notMem_of_mem_publishers h))

/-- **The publishers of an answer are connected once each**, for a slot that has none yet. -/
theorem Tidy.lookupPubs {ctx : SubCtx κ} (h : Tidy ctx) {s : ℕ} (hs : slotUsed ctx s = true)
    (hfree : hasConn ctx s = false) {r : Reply} (hnames : r.NamesApart) :
    Tidy (lookupPubs ctx s r).ctx := by
  -- the connections of the slot are to publishers that were named before
  let I (done : List (Bytes × Bytes × Bytes)) (ctx' : SubCtx κ) : Prop :=
    Tidy ctx' ∧ slotUsed ctx' s = true ∧ ∀ c ∈ ctx'.pubConns, c.active = true →
      c.subSlot = some s → ∃ pub ∈ done, c.nodeName = CStr.copy 63 pub.2.2
  have hI : I r.publishers (Cmos.lookupPubs ctx s r).ctx := by
    refine lookupPubs_induction I ⟨h, hs, fun c hc hactive hslot => ?_⟩ ?_
    · exact absurd hslot (hasConn_eq_false.mp hfree c hc hactive)
    intro done pub ctx' connected hpre ⟨htidy, hused, hdone⟩
    have hmem : ∀ p ∈ done ++ [pub], p ∈ r.publishers := fun p hp => hpre.subset hp
    have hpub : pub ∈ r.publishers := hmem pub (by simp)
    have hfresh : ctxFindConn ctx' pub.2.2 s = none → Unconnected ctx' s pub.2.2 := by
      intro hfind
      by_cases hlen : pub.2.2.length ≤ 63
      · refine unconnected_of_find ?_ hfind
        rw [copy_val_of_mem_publishers hpub, List.take_of_length_le hlen]
      · intro c hc hactive hslot hname
        obtain ⟨p, hp, hcopy⟩ := hdone c hc hactive hslot
        have hpair := (List.pairwise_append.mp (hnames.sublist hpre.sublist)).2.2 p hp pub (by simp)
        have heq := congrArg CStr.val (hcopy.symm.trans hname)
        rw [copy_val_of_mem_publishers hpub,
          copy_val_of_mem_publishers (hmem p (List.mem_append_left _ hp))] at heq
        exact hpair.elim hlen (· heq)
    have hsame := ctxAddPub_sameBut ctx' s pub.2.2 connected
    have hbefore : ∀ c ∈ ctx'.pubConns, c.active = true → c.subSlot = some s →
        ∃ p ∈ done ++ [pub], c.nodeName = CStr.copy 63 p.2.2 := by
      intro c hc hactive hslot
      obtain ⟨p, hp, hname⟩ := hdone c hc hactive hslot
      exact ⟨p, List.mem_append_left _ hp, hname⟩
    refine ⟨htidy.addPub hused hfresh connected, ?_, fun c hc hactive hslot => ?_⟩
    · rwa [slotUsed, hsame.1]
    obtain ⟨-, heq⟩ | ⟨-, -, heq⟩ | ⟨i, d, -, -, hget, -, heq⟩ :=
      ctxAddPub_cases ctx' s pub.2.2 connected
    · rw [heq] at hc
      exact hbefore c hc hactive hslot
    · rw [heq] at hc
      exact hbefore c hc hactive hslot
    · rw [heq] at hc
      rcases List.mem_or_eq_of_mem_set hc with hc | rfl
      · exact hbefore c hc hactive hslot
      · exact ⟨pub, by simp, rfl⟩
  exact hI.1

theorem Tidy.lookupSlot {n : Subscriber κ} (h : Tidy n.ctx) {s : ℕ}
    (hs : slotUsed n.ctx s = true) (hfree : hasConn n.ctx s = false) {r : Reply}
    (hnames : r.NamesApart) : Tidy (ctxLookupSlot n s r).1.ctx := by
  cases hsock : n.masterSock with
  | none => rwa [ctxLookupSlot_of_none hsock]
  | some sock =>
    rw [(ctxLookupSlot_of_some hsock s r).1]
    dsimp only
    split_ifs
    · exact h.lookupPubs hs hfree hnames
    · exact h

/-! ### A pass -/

/-- The slots of a loop have no connection when their turn comes. -/
theorem Tidy.slotLoop {wanted : SubCtx κ → ℕ → Bool} {replies : ℕ → Reply} {n : Subscriber κ}
    (h : Tidy n.ctx) {slots : List ℕ} (hnodup : slots.Nodup)
    (hused : ∀ ctx s, wanted ctx s = true → slotUsed ctx s = true)
    (hfree : ∀ s ∈ slots, hasConn n.ctx s = false ∨
      ∀ ctx, wanted ctx s = true → hasConn ctx s = false)
    (hnames : ∀ s, (replies s).NamesApart) : Tidy (slotLoop wanted replies n slots).1.ctx := by
  induction slots generalizing n with
  | nil => exact h
  | cons s slots ih =>
    obtain ⟨hs, hnodup⟩ := List.nodup_cons.mp hnodup
    rw [Cmos.slotLoop]
    split_ifs with hwanted
    · have hconn : hasConn n.ctx s = false :=
        (hfree s List.mem_cons_self).elim id fun hw => hw n.ctx hwanted
      have hsame := ctxLookupSlot_sameBut n s (replies s)
      refine ih (h.lookupSlot (hused _ s hwanted) hconn (hnames s)) hnodup fun s' hs' => ?_
      have hne : s' ≠ s := fun heq => hs (heq ▸ hs')
      rw [hsame.2 s' hne]
      exact hfree s' (List.mem_cons_of_mem s hs')
    · exact ih h hnodup fun s' hs' => hfree s' (List.mem_cons_of_mem s hs')

/-- Without an active connection no slot has one. -/
theorem Tidy.hasConn_eq_false {ctx : SubCtx κ} (h : Tidy ctx) (hnone : ctxActiveCount ctx = 0)
    (s : ℕ) : hasConn ctx s = false := by
  refine Cmos.hasConn_eq_false.mpr fun c hc hactive => ?_
  have hcount := List.countP_eq_zero.mp hnone c hc
  exact absurd (by simp [hactive, (h.sound c hc).active_iff.mp hactive]) hcount

theorem Tidy.reconnectAllPubs {n : Subscriber κ} (h : Tidy n.ctx) (hnone : ctxActiveCount n.ctx = 0)
    (d : Redial) {replies : ℕ → Reply} (hnames : ∀ s, (replies s).NamesApart) :
    Tidy (ctxReconnectAllPubs n d replies).1.ctx := by
  rw [ctxReconnectAllPubs]
  have hctx : ∃ opened, (if n.masterSock = none then ctxReconnectMaster n d
      else (n, 0, [])).1.ctx = { n.ctx with opened := opened } := by
    split_ifs
    · exact ctxReconnectMaster_ctx n d
    · exact ⟨n.ctx.opened, rfl⟩
  generalize (if n.masterSock = none then ctxReconnectMaster n d else (n, 0, [])) = m at hctx ⊢
  obtain ⟨opened, hm⟩ := hctx
  have htidy : Tidy m.1.ctx := by
    rw [hm]
    exact h.congr rfl rfl rfl
  have hfree : ∀ s, hasConn m.1.ctx s = false := by
    rw [hm]
    exact h.hasConn_eq_false hnone
  dsimp only
  split_ifs
  · exact htidy
  · exact htidy.slotLoop List.nodup_range (fun _ _ => id) (fun s _ => .inl (hfree s)) hnames

theorem Tidy.spinConnected {n : Subscriber κ} (h : Tidy n.ctx) {p : Pass}
    (hnames : ∀ s, (p.replies' s).NamesApart) : Tidy (spinConnected n p).1.ctx := by
  rw [Cmos.spinConnected]
  refine Tidy.spinEvents ?_ p.ready
  split_ifs
  · refine Tidy.slotLoop (n := { n with lastReconnect := p.now }) h List.nodup_range
      (fun ctx s hs => ?_) (fun s _ => .inr fun ctx hs => ?_) hnames
    · exact (Bool.and_eq_true_iff.mp hs).1
    · simpa using (Bool.and_eq_true_iff.mp hs).2
  · exact h

/-- The names in the answers of an action do not stand behind ones that they are taken for. -/
def SubscriberAction.NamesApart : SubscriberAction κ → Prop
  | .add _ _ _ _ _ r => r.NamesApart
  | .pass p => ∀ s, (p.replies s).NamesApart ∧ (p.replies' s).NamesApart

/-- A subscription is added, and its publishers are looked up. -/
theorem Tidy.subAdd {n : Subscriber κ} (h : Tidy n.ctx) (topic : Bytes)
    (filterState filterType filterKey : Option Bytes) (cb : Option κ) {r : Reply}
    (hnames : r.NamesApart) :
    Tidy (cmosSubAdd n topic filterState filterType filterKey cb r).1.ctx := by
  rw [cmosSubAdd]
  split_ifs with hfull
  · exact h
  dsimp only
  generalize hslot : (⟨CStr.copy 63 topic, CStr.copy 31 (filterState.getD []),
    CStr.copy 31 (filterType.getD []), CStr.copy 31 (filterKey.getD []), cb, true⟩ : SubSlot κ) =
      slot
  have hgrow : ∀ c ∈ n.ctx.pubConns, c.Sound (n.ctx.subSlots ++ [slot]) := fun c hc => by
    obtain ⟨hactive, hrxlen, hsub⟩ := h.sound c hc
    refine ⟨hactive, hrxlen, fun ha => ?_⟩
    obtain ⟨s, slot', hs, hget, hused⟩ := hsub ha
    have hold : (n.ctx.subSlots ++ [slot])[s]? = n.ctx.subSlots[s]? :=
      List.getElem?_append_left (List.getElem?_eq_some_iff.mp hget).1
    exact ⟨s, slot', hs, hold.trans hget, hused⟩
  have hfree : hasConn n.ctx n.ctx.subSlots.length = false := by
    refine Cmos.hasConn_eq_false.mpr fun c hc hactive hs => ?_
    obtain ⟨s, slot', hs', hget, -⟩ := (h.sound c hc).slot hactive
    obtain rfl := Option.some.inj (hs.symm.trans hs')
    exact absurd (List.getElem?_eq_some_iff.mp hget).1 (Nat.lt_irrefl _)
  refine Tidy.lookupSlot
    (n := { n with ctx := { n.ctx with subSlots := n.ctx.subSlots ++ [slot] } })
    ⟨h.count, hgrow, h.distinct⟩ ?_ hfree hnames
  rw [slotUsed_iff]
  exact ⟨slot, by simp, by rw [← hslot]⟩

/-- **Every step keeps the table tidy**, when the names in its answers are apart. -/
theorem Tidy.step {n : Subscriber κ} (h : Tidy n.ctx) {a : SubscriberAction κ}
    (ha : a.NamesApart) : Tidy (subscriberMachine.step n a).1.ctx := by
  cases a with
  | add topic filterState filterType filterKey cb r =>
    exact h.subAdd topic filterState filterType filterKey cb ha
  | pass p =>
    have hfirst : Tidy (if ctxActiveCount n.ctx = 0 then ctxReconnectAllPubs n p.redial p.replies
        else (n, [])).1.ctx := by
      split_ifs with hnone
      · exact h.reconnectAllPubs hnone p.redial fun s => (ha s).1
      · exact h
    simp only [subscriberMachine, spinPass]
    generalize (if ctxActiveCount n.ctx = 0 then ctxReconnectAllPubs n p.redial p.replies
      else (n, [])) = b at hfirst ⊢
    split_ifs with hnone
    · exact hfirst.reconnectAllPubs hnone p.redial' fun s => (ha s).2
    · exact hfirst.spinConnected fun s => (ha s).2

/-- The context that `cmos_sub_create` returns. -/
theorem tidy_cmosSubCreate (nodeName : Bytes) :
    Tidy (cmosSubCreate nodeName : Subscriber κ).ctx where
  count := by
    refine (congrArg Nat.cast (List.countP_eq_zero.mpr fun c hc => ?_)).symm
    rw [List.eq_of_mem_replicate hc]
    exact Bool.false_ne_true
  sound c hc := by
    rw [List.eq_of_mem_replicate hc]
    have hfalse : ¬ PubConn.unused.active = true := Bool.false_ne_true
    exact ⟨⟨(absurd · hfalse), (absurd · Bool.false_ne_true)⟩, fun _ => rfl, (absurd · hfalse)⟩
  distinct := keysDistinct_of_free fun c hc => by
    rw [List.eq_of_mem_replicate hc]
    rfl

/-- Every run keeps the table tidy, when the names in its answers are apart. -/
theorem tidy (nodeName : Bytes) (actions : List (SubscriberAction κ))
    (hnames : ∀ a ∈ actions, a.NamesApart) :
    Tidy (subscriberMachine.state (cmosSubCreate nodeName) actions).ctx := by
  refine subscriberMachine.history_invariant
    (fun as n _ => (∀ a ∈ as, a.NamesApart) → Tidy n.ctx) (fun _ => tidy_cmosSubCreate nodeName)
    (fun as n _ a ih h => ?_) actions hnames
  exact (ih fun b hb => h b (List.mem_append_left _ hb)).step (h a (by simp))

/-- **The table of connections.** In every run whose answers name no publisher by a name that is too
long for an entry and stands behind one that begins in the same way: `pub_count` is the number of
active entries, an entry is active when it has a socket, an active entry is for a subscription, an
entry that is not active has nothing in its buffer, and no two active entries are for the same
subscription and the same publisher. -/
theorem pubConns_tidy (nodeName : Bytes) (actions : List (SubscriberAction κ))
    (hnames : ∀ a ∈ actions, a.NamesApart) :
    let ctx := (subscriberMachine.state (cmosSubCreate nodeName) actions).ctx
    ctx.pubCount = ctx.pubConns.countP (·.active) ∧
    (∀ c ∈ ctx.pubConns, (c.active = true ↔ c.sock.isSome = true) ∧
      (c.active = true →
        ∃ s slot, c.subSlot = some s ∧ ctx.subSlots[s]? = some slot ∧ slot.used = true) ∧
      (c.active = false → c.rxlen = 0)) ∧
    ∀ (i j : ℕ) (c c' : PubConn), ctx.pubConns[i]? = some c → ctx.pubConns[j]? = some c' →
      c.active = true → c'.active = true → c.nodeName = c'.nodeName → c.subSlot = c'.subSlot →
      i = j := by
  intro ctx
  have h : Tidy ctx := tidy nodeName actions hnames
  refine ⟨h.count, fun c hc => ?_, fun i j c c' hi hj hactive hactive' hname hslot => ?_⟩
  · exact ⟨(h.sound c hc).active_iff, (h.sound c hc).slot, (h.sound c hc).rxlen⟩
  · exact h.distinct i j c c' (c.subSlot, c.nodeName) hi hj
      (PubConn.peer_eq_some.mpr ⟨hactive, rfl, rfl⟩)
      (PubConn.peer_eq_some.mpr ⟨hactive', hslot.symm, hname.symm⟩)

/-- A publisher that is named twice, after it was started again on another port. -/
def restartedReply (node : Bytes) : Reply where
  taken := true
  chunks := [ascii "PUBINFO cmd 10.0.0.2 6001 " ++ node ++ ascii "\n",
    ascii "PUBINFO cmd 10.0.0.2 6002 " ++ node ++ ascii "\nEND\n"]
  connects := [true, true]

/-- A run in which a publisher with a short name is named twice: it has one connection in the
end. -/
theorem pubConns_tidy_restarted :
    let actions : List (SubscriberAction Unit) :=
      [.add (ascii "cmd") none none none (some ()) (restartedReply (ascii "hmi"))]
    let ctx := (subscriberMachine.state (cmosSubCreate (ascii "ups")) actions).ctx
    ctx.pubConns.countP (·.active) = 1 ∧
      (∀ c ∈ ctx.pubConns, c.active = true → c.sock.isSome = true ∧ c.subSlot = some 0) ∧
      ∀ (i j : ℕ) (c c' : PubConn), ctx.pubConns[i]? = some c → ctx.pubConns[j]? = some c' →
        c.active = true → c'.active = true → c.nodeName = c'.nodeName → i = j := by
  intro actions ctx
  have hnames : ∀ a ∈ actions, a.NamesApart := by
    intro a ha
    obtain rfl := List.mem_singleton.mp ha
    have hreply : (restartedReply (ascii "hmi")).NamesApart := by decide +kernel
    exact hreply
  have hone : ctx.pubCount = 1 := by decide +kernel
  have hslots : ctx.subSlots.length = 1 := by decide +kernel
  obtain ⟨hcount, hconns, hdistinct⟩ := pubConns_tidy (ascii "ups") actions hnames
  have hslot : ∀ c ∈ ctx.pubConns, c.active = true → c.subSlot = some 0 := by
    intro c hc hactive
    obtain ⟨s, slot, hs, hget, -⟩ := (hconns c hc).2.1 hactive
    have hlt : s < ctx.subSlots.length := (List.getElem?_eq_some_iff.mp hget).1
    rw [hslots] at hlt
    rw [hs, Nat.lt_one_iff.mp hlt]
  refine ⟨?_, fun c hc hactive => ?_, ?_⟩
  · exact Int.ofNat_inj.mp (hcount.symm.trans hone)
  · exact ⟨(hconns c hc).1.mp hactive, hslot c hc hactive⟩
  · intro i j c c' hi hj hactive hactive' hname
    have hfirst := hslot c (List.mem_of_getElem? hi) hactive
    have hsecond := hslot c' (List.mem_of_getElem? hj) hactive'
    exact hdistinct i j c c' hi hj hactive hactive' hname (hfirst.trans hsecond.symm)

/-- **A publisher with a name of 64 chars is connected twice.** -/
theorem not_pubConns_tidy :
    ¬ ∀ (actions : List (SubscriberAction Unit)) (i j : ℕ) (c c' : PubConn),
      let ctx := (subscriberMachine.state (cmosSubCreate (ascii "ups")) actions).ctx
      ctx.pubConns[i]? = some c → ctx.pubConns[j]? = some c' →
      c.active = true → c'.active = true → c.nodeName = c'.nodeName → c.subSlot = c'.subSlot →
      i = j := by
  intro h
  let actions : List (SubscriberAction Unit) :=
    [.add (ascii "cmd") none none none (some ()) (restartedReply (List.replicate 64 97))]
  let ctx := (subscriberMachine.state (cmosSubCreate (ascii "ups")) actions).ctx
  have hpeer : ∀ i ∈ [0, 1], (ctx.pubConns[i]?).bind PubConn.peer =
      some (some 0, CStr.copy 63 (List.replicate 64 97)) := by
    decide +kernel
  obtain ⟨c, hc, hcpeer⟩ := Option.bind_eq_some_iff.mp (hpeer 0 (by simp))
  obtain ⟨c', hc', hcpeer'⟩ := Option.bind_eq_some_iff.mp (hpeer 1 (by simp))
  obtain ⟨hactive, hslot, hname⟩ := PubConn.peer_eq_some.mp hcpeer
  obtain ⟨hactive', hslot', hname'⟩ := PubConn.peer_eq_some.mp hcpeer'
  have heq := h actions 0 1 c c' hc hc' hactive hactive' (hname.trans hname'.symm)
    (hslot.trans hslot'.symm)
  exact absurd heq (by decide)

end LoopCharger.Cmos

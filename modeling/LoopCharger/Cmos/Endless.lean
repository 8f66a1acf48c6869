import LoopCharger.Cmos.Lookup
import LoopCharger.Lib.Loop

/-!
# A master that does not stop

`ctx_lookup_slot` over any master, also one that sends for ever: what each `recv` delivers is given
by the number of the call, and no bytes are a timeout, an error or the end of the stream.

## Main definitions

* `lookupBody`, `LookupReturns`: one pass of the loop, and what the function returns.
* `arrived`: the bytes that have come after a number of calls.
* `Answers`: the condition on the master.

## Main results

* `lookupReturns_of_chunks`: over a master that stops, the function is `ctxLookupSlot`.
* `exists_lookupReturns_iff`: the lookups that return.
-/

namespace LoopCharger.Cmos

open Lib

variable {κ : Type}

/-! ### The loop -/

/-- The variables of the loop, and the number of the calls of `recv`. -/
structure LookupVars (κ : Type) where
  lookup : Lookup κ
  rxbuf : Bytes
  rxlen : ℕ
  calls : ℕ

/-- A pass of the loop, and whether it ends with `END`. -/
def lookupBody (s : ℕ) (recv : ℕ → Bytes) (v : LookupVars κ) :
    LookupVars κ ⊕ (Lookup κ × Bool) :=
  let got := (recv v.calls).take (2047 - v.rxlen)
  if got = [] then .inr (v.lookup, false)
  else
    let rxbuf := storeAt (storeAt v.rxbuf v.rxlen got) (v.rxlen + got.length) [0]
    let rxlen := v.rxlen + got.length
    let r := scanLines rxbuf 0 0 rxlen
    let h := v.lookup.lines s r.1
    if h.2 then .inr h
    else
      let b := compactReply rxbuf rxlen r.2
      .inl ⟨h.1, b.1, if b.2 ≥ 2047 then 0 else b.2, v.calls + 1⟩

/-- What `ctx_lookup_slot` returns, if it returns. -/
def LookupReturns (n : Subscriber κ) (s : ℕ) (taken : Bool) (connects : List Bool)
    (recv : ℕ → Bytes) (r : Subscriber κ × ℤ × List (SubscriberEvent κ)) : Prop :=
  match n.masterSock with
  | none => r = (n, -1, [])
  | some sock =>
    let request := .lookup s sock (lookupLine n.ctx s) taken
    if ¬ taken then r = ({ n with masterSock := none }, -1, [request])
    else
      ∃ l, Returns (lookupBody s recv)
          ⟨⟨n.ctx, false, connects, []⟩, List.replicate 2048 0, 0, 0⟩ l ∧
        let events := request :: l.1.events.map .conn
        r = if l.2 then ({ n with ctx := l.1.ctx }, if l.1.found then 0 else -1, events)
          else ({ n with ctx := l.1.ctx, masterSock := none }, -1, events)

/-- Over a master that stops, the loop is `lookupLoop`. -/
theorem returns_lookupLoop (s : ℕ) (l : Lookup κ) (rxbuf : Bytes) (rxlen : ℕ) (recv : ℕ → Bytes)
    (chunks : List Bytes) (k : ℕ) (h : ∀ i, recv (k + i) = chunks.getD i []) :
    Returns (lookupBody s recv) ⟨l, rxbuf, rxlen, k⟩ (lookupLoop s l rxbuf rxlen chunks) := by
  induction chunks generalizing l rxbuf rxlen k with
  | nil =>
    have hrecv : recv k = [] := h 0
    refine (returns_of_inr ?_).mpr rfl
    rw [lookupBody, hrecv]
    exact if_pos List.take_nil
  | cons delivered chunks ih =>
    have hrecv : recv k = delivered := h 0
    have hrest : ∀ i, recv (k + 1 + i) = chunks.getD i [] := fun i => by
      rw [Nat.add_assoc, Nat.add_comm 1 i]
      exact h (i + 1)
    rw [lookupLoop]
    by_cases hgot : delivered.take (2047 - rxlen) = []
    · refine (returns_of_inr ?_).mpr (if_pos hgot).symm
      simp only [lookupBody, hrecv]
      exact if_pos hgot
    · simp only [if_neg hgot]
      split_ifs with hend hfull
      · refine (returns_of_inr ?_).mpr rfl
        simp only [lookupBody, hrecv, if_neg hgot, if_pos hend]
      · refine (returns_of_inl ?_).mpr (ih _ _ _ _ hrest)
        simp only [lookupBody, hrecv, if_neg hgot, if_neg hend, if_pos hfull]
      · refine (returns_of_inl ?_).mpr (ih _ _ _ _ hrest)
        simp only [lookupBody, hrecv, if_neg hgot, if_neg hend, if_neg hfull]

/-- Over a master that stops, the function is `ctxLookupSlot`. -/
theorem lookupReturns_of_chunks (n : Subscriber κ) (s : ℕ) (r : Reply) :
    LookupReturns n s r.taken r.connects (fun k => r.chunks.getD k []) (ctxLookupSlot n s r) := by
  simp only [LookupReturns, ctxLookupSlot]
  cases n.masterSock with
  | none => rfl
  | some sock =>
    have hloop := returns_lookupLoop s ⟨n.ctx, false, r.connects, []⟩ (List.replicate 2048 0) 0
      (fun k => r.chunks.getD k []) r.chunks 0 fun i =>
        congrArg (r.chunks.getD · []) (Nat.zero_add i)
    by_cases htaken : r.taken = true
    · simp only [htaken, not_true_eq_false, if_false]
      exact ⟨_, hloop, rfl⟩
    · simp [htaken]

/-! ### The stream -/

/-- The bytes that have arrived after `k` calls, each of which has room for what the buffer does not
hold. -/
def arrived (recv : ℕ → Bytes) : ℕ → Bytes
  | 0 => []
  | k + 1 =>
    arrived recv k ++ (recv k).take (2047 - (feed newline 2047 [] (arrived recv k)).2.length)

/-- A call of `recv` fails, or the line `END` comes. Lines are read from the end of the line before,
and a part of 2047 bytes without the end of a line is given up. -/
def Answers (recv : ℕ → Bytes) : Prop :=
  ∃ k, recv k = [] ∨ ascii "END\n" ∈ (feed newline 2047 [] (arrived recv k)).1

theorem cString_append_zero_eq (s rest : Bytes) : cString (s ++ 0 :: rest) = cString s := by
  induction s with
  | nil => rfl
  | cons b s ih => rw [List.cons_append, cString_cons, cString_cons, ih]

/-- The line that is read as `END`. -/
theorem cString_lineBuffer_eq_end {l : Bytes} (hl : newline ∉ l) :
    cString (lineBuffer (l ++ [newline])) = ascii "END\n" ↔ l ++ [newline] = ascii "END\n" := by
  constructor
  · intro h
    rw [lineBuffer_eq, cString_append_zero_eq] at h
    have hpre : ascii "END\n" <+: l ++ [newline] := by
      rw [← h]
      exact (List.takeWhile_prefix _).trans (List.take_prefix _ _)
    rcases List.prefix_concat_iff.mp hpre with heq | hinside
    · exact heq.symm
    · exact absurd (hinside.subset (by decide)) hl
  · intro h
    rw [h]
    decide

/-- `END` is among the lines. -/
theorem upToEnd_eq_true {lines : List Bytes} :
    (upToEnd lines).2 = true ↔ ∃ line ∈ lines, cString line = ascii "END\n" := by
  induction lines with
  | nil => simp [upToEnd]
  | cons line rest ih =>
    rw [upToEnd]
    by_cases hend : cString line = ascii "END\n"
    · simp [hend]
    · simp [hend, ih]

theorem upToEnd_feed {cur : Bytes} (bs : Bytes) (hnl : newline ∉ cur) :
    (upToEnd ((feed newline 2047 cur bs).1.map lineBuffer)).2 = true ↔
      ascii "END\n" ∈ (feed newline 2047 cur bs).1 := by
  rw [upToEnd_eq_true]
  constructor
  · rintro ⟨line, hline, hend⟩
    obtain ⟨l, hl, rfl⟩ := List.mem_map.mp hline
    obtain ⟨l', rfl, hl'⟩ := mem_feed_lines hnl hl
    rwa [(cString_lineBuffer_eq_end hl').mp hend] at hl
  · exact fun h => ⟨_, List.mem_map_of_mem h, by decide⟩

/-! ### The lookups that return -/

/-- After `k` calls the buffer stores what is left of the bytes that have arrived, and `END` has not
come. -/
structure LookupVars.Reads (recv : ℕ → Bytes) (k : ℕ) (v : LookupVars κ) : Prop where
  calls : v.calls = k
  size : v.rxbuf.length = 2048
  rxlen : v.rxlen = (feed newline 2047 [] (arrived recv k)).2.length
  bytes : v.rxbuf.take v.rxlen = (feed newline 2047 [] (arrived recv k)).2
  no_end : ascii "END\n" ∉ (feed newline 2047 [] (arrived recv k)).1

/-- The lines up to the next call. -/
theorem feed_arrived_succ (recv : ℕ → Bytes) (k : ℕ) :
    let cur := (feed newline 2047 [] (arrived recv k)).2
    let f := feed newline 2047 cur ((recv k).take (2047 - cur.length))
    feed newline 2047 [] (arrived recv (k + 1)) =
      ((feed newline 2047 [] (arrived recv k)).1 ++ f.1, f.2) := by
  rw [arrived, feed_append]

/-- One pass of the loop. -/
theorem lookupBody_cases {s k : ℕ} {recv : ℕ → Bytes} {v : LookupVars κ} (h : v.Reads recv k) :
    ((∃ r, lookupBody s recv v = .inr r) ∧
        (recv k = [] ∨ ascii "END\n" ∈ (feed newline 2047 [] (arrived recv (k + 1))).1)) ∨
      recv k ≠ [] ∧ ∃ v', lookupBody s recv v = .inl v' ∧ v'.Reads recv (k + 1) := by
  obtain ⟨l, rxbuf, rxlen, calls⟩ := v
  obtain ⟨hcalls, hsize, hrxlen, hbytes, hno⟩ := h
  dsimp only at hcalls hsize hrxlen hbytes
  subst hcalls hrxlen
  have hsucc := feed_arrived_succ recv calls
  have hcap : ([] : Bytes).length < 2047 := by decide
  obtain ⟨hnl, hcur⟩ := feed_rest (List.not_mem_nil (a := newline)) hcap (arrived recv calls)
  generalize (feed newline 2047 [] (arrived recv calls)).1 = before at hsucc hno
  generalize (feed newline 2047 [] (arrived recv calls)).2 = cur at *
  dsimp only at hsucc
  by_cases hrecv : recv calls = []
  · refine .inl ⟨⟨(l, false), ?_⟩, .inl hrecv⟩
    simp only [lookupBody, hrecv, List.take_nil, if_true]
  have hgot : (recv calls).take (2047 - cur.length) ≠ [] := by
    rw [ne_eq, List.take_eq_nil_iff, not_or]
    exact ⟨by omega, hrecv⟩
  have hroom : cur.length + ((recv calls).take (2047 - cur.length)).length ≤ 2047 := by
    have := List.length_take_le (2047 - cur.length) (recv calls)
    omega
  obtain ⟨hlines, hsize', hlen', hbytes'⟩ := scanLines_reply hsize hbytes hnl hcur hroom
  have hend := upToEnd_feed ((recv calls).take (2047 - cur.length)) hnl
  obtain ⟨next, hnext⟩ : ∃ next, lookupBody s recv ⟨l, rxbuf, cur.length, calls⟩ = next := ⟨_, rfl⟩
  have hbody := hnext
  simp only [lookupBody, if_neg hgot, hlines, hlen', Lookup.lines_eq] at hbody
  by_cases hmem : ascii "END\n" ∈
      (feed newline 2047 cur ((recv calls).take (2047 - cur.length))).1
  · rw [if_pos (hend.mpr hmem)] at hbody
    refine .inl ⟨⟨_, hnext.trans hbody.symm⟩, .inr ?_⟩
    rw [hsucc]
    exact List.mem_append_right _ hmem
  · rw [if_neg (mt hend.mp hmem)] at hbody
    refine .inr ⟨hrecv, _, hnext.trans hbody.symm, rfl, hsize', ?_, ?_, ?_⟩
    · rw [hsucc]
    · rw [hsucc]
      exact hbytes'
    · rw [hsucc]
      exact fun h => (List.mem_append.mp h).elim hno hmem

theorem LookupVars.Reads.next {s k : ℕ} {recv : ℕ → Bytes} {v v' : LookupVars κ}
    (h : v.Reads recv k) (hbody : lookupBody s recv v = .inl v') : v'.Reads recv (k + 1) := by
  rcases lookupBody_cases (s := s) h with ⟨⟨r, hinr⟩, -⟩ | ⟨-, w, hw, hreads⟩
  · rw [hbody] at hinr
    cases hinr
  · rw [hbody, Sum.inl.injEq] at hw
    exact hw ▸ hreads

theorem reads_start (l : Lookup κ) (recv : ℕ → Bytes) :
    LookupVars.Reads recv 0 ⟨l, List.replicate 2048 0, 0, 0⟩ where
  calls := rfl
  size := List.length_replicate
  rxlen := rfl
  bytes := rfl
  no_end := List.not_mem_nil

/-- **The loop ends** exactly with a master that answers. -/
theorem exists_returns_iff_answers (s : ℕ) (l : Lookup κ) (recv : ℕ → Bytes) :
    (∃ r, Returns (lookupBody s recv) ⟨l, List.replicate 2048 0, 0, 0⟩ r) ↔ Answers recv := by
  constructor
  · rintro ⟨r, hr⟩
    obtain ⟨v, ⟨k, hk⟩, hbody⟩ := hr.exists_exit (I := fun v => ∃ k, v.Reads recv k)
      (fun _ _ ⟨k, hk⟩ hbody => ⟨k + 1, hk.next hbody⟩) ⟨0, reads_start l recv⟩
    rcases lookupBody_cases (s := s) hk with ⟨-, hnil | hend⟩ | ⟨-, w, hw, -⟩
    · exact ⟨k, .inl hnil⟩
    · exact ⟨k + 1, .inr hend⟩
    · rw [hbody] at hw
      cases hw
  · rintro ⟨k, hk⟩
    refine exists_returns_of_stop (I := fun i (v : LookupVars κ) => v.Reads recv i) (n := k)
      (fun _ _ _ hv hbody => hv.next hbody) (fun v hv => ?_) (Nat.zero_le k) (reads_start l recv)
    rcases lookupBody_cases (s := s) hv with ⟨hstop, -⟩ | ⟨hrecv, -⟩
    · exact hstop
    · exact absurd (hk.resolve_left hrecv) hv.no_end

/-- **A lookup returns** exactly if there is no connection to the master, or the request is not
sent, or the master answers. -/
theorem exists_lookupReturns_iff (n : Subscriber κ) (s : ℕ) (taken : Bool) (connects : List Bool)
    (recv : ℕ → Bytes) :
    (∃ r, LookupReturns n s taken connects recv r) ↔
      n.masterSock = none ∨ taken = false ∨ Answers recv := by
  simp only [LookupReturns]
  cases n.masterSock with
  | none => simp
  | some sock =>
    cases taken with
    | false => simp
    | true =>
      have hloop := exists_returns_iff_answers s ⟨n.ctx, false, connects, []⟩ recv
      simp only [not_true_eq_false, if_false, reduceCtorEq, false_or, ← hloop]
      constructor
      · rintro ⟨-, l, hl, -⟩
        exact ⟨l, hl⟩
      · rintro ⟨l, hl⟩
        exact ⟨_, l, hl, rfl⟩

/-- A master that sends the same byte for ever, and no line. -/
theorem not_exists_lookupReturns :
    ¬ ∀ (n : Subscriber Unit) (s : ℕ) (taken : Bool) (connects : List Bool) (recv : ℕ → Bytes),
      ∃ r, LookupReturns n s taken connects recv r := by
  intro h
  have harrived : ∀ k, newline ∉ arrived (fun _ => [88]) k := by
    intro k
    induction k with
    | zero => exact List.not_mem_nil
    | succ k ih =>
      rw [arrived, List.mem_append, not_or]
      exact ⟨ih, fun hmem => absurd (List.mem_of_mem_take hmem) (by decide)⟩
  let slot : SubSlot Unit := ⟨CStr.copy 63 (ascii "ups"), CStr.copy 31 [], CStr.copy 31 [],
    CStr.copy 31 [], some (), true⟩
  let n : Subscriber Unit :=
    ⟨some 0, CStr.copy 63 (ascii "node"), { SubCtx.init [slot] with opened := 1 }, 0⟩
  obtain ⟨-, l, hl, -⟩ := h n 0 true [] fun _ => [88]
  obtain ⟨k, hnil | hend⟩ := (exists_returns_iff_answers 0 _ _).mp ⟨l, hl⟩
  · exact List.cons_ne_nil _ _ hnil
  · rw [feed_lines_of_notMem (harrived k)] at hend
    exact List.not_mem_nil hend

end LoopCharger.Cmos

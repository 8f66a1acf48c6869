import Mathlib.Data.List.MinMax
import Mathlib.Data.List.Nodup
import Mathlib.Data.List.Perm.Subperm
import Mathlib.Data.Prod.Lex
import LoopCharger.Lib.Machine
import LoopCharger.Lib.Ring

/-!
# Tables that overwrite their oldest row

A table of at most `cap` rows. While it is not full, a row is inserted with the next id. A full
table writes over its oldest row, which keeps its id: the first one in the order of the times, and
among the rows of one time in the order of the ids.

The `k`-th write, counted from zero, begins a new round where `k` is a multiple of `cap`. As long as
the row overwritten is the one written first, every round goes through the ids in their order. Then
the row to be overwritten by the `k`-th write has the number `k - cap`, and what stands before it in
the order of the ids is of the present round. So it is overwritten in time exactly if its time is
before the time at which the present round began.

## Main definitions

* `Row`, `storeRow`, `storeMachine`: the rows, one write, and the runs.
* `KeepsRecent`: at any time the rows are the last `cap` rows written.
* `RoundsApart`: the condition on the times.

## Main results

* `keepsRecent_iff`: with times that do not decrease, the two are equivalent.
-/

namespace LoopCharger.Lib

/-! ### Writes -/

structure Row (τ α : Type*) where
  id : ℕ
  time : τ
  content : α
  deriving DecidableEq

section Defs

variable {τ α : Type*}

/-- The id of a row that is inserted. -/
def nextId (rows : List (Row τ α)) : ℕ := (rows.map Row.id).foldl max 0 + 1

/-- Replace the row with the id of the new one. -/
def updateRow (rows : List (Row τ α)) (row : Row τ α) : List (Row τ α) :=
  rows.map fun r => if r.id = row.id then row else r

variable [LinearOrder τ]

/-- The first row in the order of the times, then of the ids. -/
def oldest (rows : List (Row τ α)) : Option (Row τ α) :=
  rows.argmin fun r => toLex (r.time, r.id)

/-- One write: the table, and the row that is written. -/
def storeRow (cap : ℕ) (rows : List (Row τ α)) (e : τ × α) : List (Row τ α) × List (Row τ α) :=
  if rows.length < cap then
    let row := ⟨nextId rows, e.1, e.2⟩
    (rows ++ [row], [row])
  else
    match oldest rows with
    | none => (rows, [])
    | some old =>
      let row := ⟨old.id, e.1, e.2⟩
      (updateRow rows row, [row])

def storeMachine (cap : ℕ) : Machine (List (Row τ α)) (τ × α) (Row τ α) where
  step := storeRow cap

/-- At any time the rows are the last `cap` rows written. -/
def KeepsRecent (cap : ℕ) (es : List (τ × α)) : Prop :=
  ∀ run, run <+: es → ((storeMachine cap).state [] run).Perm
    (((storeMachine cap).trace [] run).drop (run.length - cap))

/-- The entry that the `k`-th write must replace is of an earlier time than the entry with which the
round of the `k`-th write began. -/
def RoundsApart (cap : ℕ) (es : List (τ × α)) : Prop :=
  ∀ k < es.length, cap ≤ k → k % cap ≠ 0 →
    ∀ a ∈ es[k - cap]?, ∀ b ∈ es[cap * (k / cap)]?, a.1 < b.1

end Defs

/-! ### One write -/

section Write

variable {τ α : Type*} [LinearOrder τ] {cap : ℕ} {rows : List (Row τ α)} {e : τ × α}

theorem storeRow_of_lt (h : rows.length < cap) :
    storeRow cap rows e = (rows ++ [⟨nextId rows, e.1, e.2⟩], [⟨nextId rows, e.1, e.2⟩]) :=
  if_pos h

/-- A write to a full table. -/
theorem storeRow_of_le (hcap : 0 < cap) (h : cap ≤ rows.length) :
    ∃ old, oldest rows = some old ∧
      storeRow cap rows e = (updateRow rows ⟨old.id, e.1, e.2⟩, [⟨old.id, e.1, e.2⟩]) := by
  rcases hold : oldest rows with _ | old
  · rw [oldest, List.argmin_eq_none] at hold
    rw [hold, List.length_nil] at h
    omega
  · exact ⟨old, rfl, by simp only [storeRow, if_neg (Nat.not_lt.mpr h), hold]⟩

/-- A write writes one row, with its time and its content. -/
theorem storeRow_written (hcap : 0 < cap) (rows : List (Row τ α)) (e : τ × α) :
    ∃ id, (storeRow cap rows e).2 = [⟨id, e.1, e.2⟩] := by
  rcases Nat.lt_or_ge rows.length cap with h | h
  · exact ⟨_, congrArg Prod.snd (storeRow_of_lt h)⟩
  · obtain ⟨old, -, hstore⟩ := storeRow_of_le (e := e) hcap h
    exact ⟨_, congrArg Prod.snd hstore⟩

/-- The rows written are the entries, in their order. -/
theorem map_trace_storeMachine (hcap : 0 < cap) (es : List (τ × α)) (rows : List (Row τ α)) :
    ((storeMachine cap).trace rows es).map (fun r => (r.time, r.content)) = es := by
  induction es generalizing rows with
  | nil => rfl
  | cons e es ih =>
    obtain ⟨id, hid⟩ := storeRow_written hcap rows e
    have hstep : ((storeMachine cap).step rows e).2 = [⟨id, e.1, e.2⟩] := hid
    rw [Machine.trace_cons, List.map_append, ih, hstep]
    rfl

end Write

/-! ### Rounds -/

section Rounds

variable {τ α : Type*} {cap : ℕ} {rows written : List (Row τ α)}

/-- Each round goes through the ids: the `i`-th row written is the row `i % cap + 1`, and it stays
for the next writes. -/
structure GoesRound (cap : ℕ) (rows written : List (Row τ α)) : Prop where
  length : rows.length = min written.length cap
  ids : ∀ j r, rows[j]? = some r → r.id = j + 1
  stored : ∀ i < written.length, written.length ≤ i + cap → rows[i % cap]? = written[i]?

theorem GoesRound.nil (cap : ℕ) : GoesRound cap ([] : List (Row τ α)) [] where
  length := (Nat.zero_min cap).symm
  ids j r h := by simp at h
  stored i hi := absurd hi (Nat.not_lt_zero i)

theorem length_recent (cap : ℕ) (written : List (Row τ α)) :
    (written.drop (written.length - cap)).length = min written.length cap := by
  rw [List.length_drop]
  omega

/-- The writes of one round do not reach the row of a write. -/
theorem mod_ne_of_lt {i k : ℕ} (hik : i < k) (hk : k < i + cap) : i % cap ≠ k % cap := by
  have h := @Ring.offset_ne cap i 0 (k - i) (by omega) (by omega)
  rwa [Nat.add_zero, Nat.add_sub_cancel' hik.le] at h

namespace GoesRound

variable (h : GoesRound cap rows written)

include h

theorem map_id : rows.map Row.id = (List.range rows.length).map (· + 1) := by
  refine List.ext_getElem (by simp) fun j hj _ => ?_
  rw [List.length_map] at hj
  simp only [List.getElem_map, List.getElem_range]
  exact h.ids j _ (List.getElem?_eq_getElem hj)

/-- The id of a row that is still stored. -/
theorem id_eq {i : ℕ} {r : Row τ α} (hi : i < written.length) (hle : written.length ≤ i + cap)
    (hr : written[i]? = some r) : r.id = i % cap + 1 :=
  h.ids _ r ((h.stored i hi hle).trans hr)

/-- The last rows written have different ids. -/
theorem nodup_recent : ((written.drop (written.length - cap)).map Row.id).Nodup := by
  refine List.pairwise_map.mpr (List.pairwise_iff_getElem.mpr fun i j hi hj hij heq => ?_)
  rw [length_recent] at hi hj
  rw [List.getElem_drop, List.getElem_drop] at heq
  rw [h.id_eq (by omega) (by omega) (List.getElem?_eq_getElem (by omega)),
    h.id_eq (by omega) (by omega) (List.getElem?_eq_getElem (by omega))] at heq
  exact mod_ne_of_lt (by omega) (by omega) (Nat.succ_injective heq)

theorem nodup_id : (rows.map Row.id).Nodup := by
  rw [h.map_id]
  exact List.nodup_range.map Nat.succ_injective

/-- The rows are the last ones written. -/
theorem perm : rows.Perm (written.drop (written.length - cap)) := by
  have hnodup := List.Nodup.of_map _ h.nodup_recent
  refine (List.Subperm.perm_of_length_le (List.subperm_of_subset hnodup ?_) ?_).symm
  · intro r hr
    obtain ⟨i, hi, rfl⟩ := List.getElem_of_mem hr
    rw [length_recent] at hi
    rw [List.getElem_drop]
    exact List.mem_of_getElem? ((h.stored _ (by omega) (by omega)).trans
      (List.getElem?_eq_getElem (by omega)))
  · rw [length_recent, h.length]

/-! The row for the next write -/

theorem nextId_eq : nextId rows = rows.length + 1 := by
  have hmax : ∀ n, ((List.range n).map (· + 1)).foldl max 0 = n := by
    intro n
    induction n with
    | zero => rfl
    | succ n ih => simp [List.range_succ, ih]
  rw [nextId, h.map_id, hmax]

/-- The row with an id is at its place. -/
theorem updateRow_eq {j : ℕ} {row : Row τ α} (hrow : row.id = j + 1) :
    updateRow rows row = rows.set j row := by
  refine List.ext_getElem? fun i => ?_
  rw [updateRow, List.getElem?_map, List.getElem?_set]
  rcases hr : rows[i]? with _ | r
  · have hi := List.getElem?_eq_none_iff.mp hr
    split_ifs with hj hlt
    · omega
    · rfl
    · rfl
  · obtain ⟨hi, -⟩ := List.getElem?_eq_some_iff.mp hr
    rw [Option.map_some, h.ids i r hr, hrow]
    by_cases hj : j = i
    · rw [if_pos (congrArg (· + 1) hj.symm), if_pos hj, if_pos (hj ▸ hi)]
    · rw [if_neg fun heq => hj (Nat.succ_injective heq).symm, if_neg hj]

/-- The rows after the next write, if it goes on with the round. -/
theorem concat {row : Row τ α} (hrow : row.id = written.length % cap + 1)
    {rows' : List (Row τ α)} (hlength : rows'.length = min (written.length + 1) cap)
    (hget : ∀ j, rows'[j]? = if j = written.length % cap then some row else rows[j]?) :
    GoesRound cap rows' (written ++ [row]) where
  length := by rw [hlength, List.length_append, List.length_singleton]
  ids j r hr := by
    rw [hget] at hr
    split_ifs at hr with hj
    · obtain rfl := Option.some.inj hr
      rw [hrow, hj]
    · exact h.ids j r hr
  stored i hi hle := by
    rw [List.length_append, List.length_singleton] at hi hle
    rw [hget]
    rcases Nat.lt_succ_iff_lt_or_eq.mp hi with hlt | rfl
    · rw [if_neg (mod_ne_of_lt hlt (by omega)), List.getElem?_append_left hlt,
        h.stored i hlt (by omega)]
    · rw [if_pos rfl, List.getElem?_concat_length]

end GoesRound

end Rounds

/-! ### The oldest row -/

section Oldest

/-- What is behind in its round, and is not of the round before, is of the present round. -/
theorem le_of_mod_lt {cap i k : ℕ} (hi : k < i + cap) (hmod : i % cap < k % cap) :
    cap * (k / cap) ≤ i := by
  have hidiv := Nat.div_add_mod i cap
  have hkdiv := Nat.div_add_mod k cap
  by_contra hlt
  have hdiv : i / cap < k / cap := by
    by_contra hge
    have := Nat.mul_le_mul_left cap (Nat.not_lt.mp hge)
    omega
  have := Nat.mul_le_mul_left cap hdiv
  rw [Nat.mul_succ] at this
  omega

variable {τ α : Type*} [LinearOrder τ] {cap : ℕ} {rows written : List (Row τ α)} {e : τ × α}

theorem time_le (hsorted : (written.map Row.time).Pairwise (· ≤ ·)) {i j : ℕ} {a b : Row τ α}
    (hij : i ≤ j) (ha : written[i]? = some a) (hb : written[j]? = some b) : a.time ≤ b.time := by
  obtain ⟨hi, rfl⟩ := List.getElem?_eq_some_iff.mp ha
  obtain ⟨hj, rfl⟩ := List.getElem?_eq_some_iff.mp hb
  rcases Nat.eq_or_lt_of_le hij with rfl | hlt
  · exact le_rfl
  · exact List.pairwise_iff_getElem.mp (List.pairwise_map.mp hsorted) i j hi hj hlt

namespace GoesRound

variable (h : GoesRound cap rows written) (hcap : 0 < cap)
  (hsorted : (written.map Row.time).Pairwise (· ≤ ·)) (hfull : cap ≤ written.length)

include h hcap hsorted hfull

/-- The row that was written first is the oldest one exactly if its time is before the time at which
the round began. -/
theorem oldest_eq_some_iff {head : Row τ α} (hhead : written[written.length - cap]? = some head) :
    oldest rows = some head ↔ (written.length % cap ≠ 0 →
      ∀ first ∈ written[cap * (written.length / cap)]?, head.time < first.time) := by
  have hdiv := Nat.div_add_mod written.length cap
  have hlt := Nat.mod_lt written.length hcap
  have hmod : (written.length - cap) % cap = written.length % cap := (Nat.mod_eq_sub_mod hfull).symm
  have hid : head.id = written.length % cap + 1 := hmod ▸ h.id_eq (by omega) (by omega) hhead
  have hmem : head ∈ rows :=
    List.mem_of_getElem? ((h.stored _ (by omega) (by omega)).trans hhead)
  constructor
  · intro hold hne first hfirst
    have hfirstId := h.id_eq (by omega) (by omega) (Option.mem_def.mp hfirst)
    rw [Nat.mul_mod_right] at hfirstId
    have hfirstMem : first ∈ rows :=
      List.mem_of_getElem? ((h.stored _ (by omega) (by omega)).trans hfirst)
    rcases Prod.Lex.toLex_le_toLex.mp (List.le_of_mem_argmin hfirstMem hold) with htime | ⟨-, hle⟩
    · exact htime
    · simp only [hid, hfirstId] at hle
      omega
  · intro hround
    rcases hold : oldest rows with _ | old
    · rw [oldest, List.argmin_eq_none] at hold
      rw [hold] at hmem
      cases hmem
    -- whatever row is the oldest, it is one of the last ones written
    obtain ⟨i, hi, hget⟩ := List.getElem_of_mem (h.perm.mem_iff.mp (List.argmin_mem hold))
    rw [length_recent] at hi
    rw [List.getElem_drop] at hget
    have hget : written[written.length - cap + i]? = some old :=
      List.getElem?_eq_some_iff.mpr ⟨_, hget⟩
    rcases Nat.eq_zero_or_pos i with rfl | hpos
    · rw [← hget, Nat.add_zero, hhead]
    exfalso
    have hle := time_le hsorted (Nat.le_add_right _ i) hhead hget
    rcases Prod.Lex.toLex_le_toLex.mp (List.le_of_mem_argmin hmem hold) with htime | ⟨htime, hids⟩
    · exact absurd htime (not_lt.mpr hle)
    -- of the same time as the one written first, it must be of the present round
    simp only [hid, h.id_eq (by omega) (by omega) hget] at hids htime
    have hne := @mod_ne_of_lt cap (written.length - cap + i) written.length (by omega) (by omega)
    have hstart := @le_of_mod_lt cap (written.length - cap + i) written.length (by omega) (by omega)
    have hfirst : ∃ first, written[cap * (written.length / cap)]? = some first :=
      ⟨_, List.getElem?_eq_getElem (by omega)⟩
    obtain ⟨first, hfirst⟩ := hfirst
    have hbefore := hround (by omega) first hfirst
    exact absurd (time_le hsorted hstart hfirst hget) (not_le.mpr (htime ▸ hbefore))

end GoesRound

end Oldest

/-! ### Runs -/

section Runs

variable {τ α : Type*} [LinearOrder τ] {cap : ℕ} {rows written : List (Row τ α)}

/-- The condition of `RoundsApart` for the next write. -/
def NextApart (cap : ℕ) (times : List τ) : Prop :=
  cap ≤ times.length → times.length % cap ≠ 0 →
    ∀ a ∈ times[times.length - cap]?, ∀ b ∈ times[cap * (times.length / cap)]?, a < b

namespace GoesRound

variable (h : GoesRound cap rows written) (hcap : 0 < cap)
  (hsorted : (written.map Row.time).Pairwise (· ≤ ·)) (e : τ × α)

include h hcap hsorted

/-- For the next write, the oldest row of a full table is the one written first. -/
theorem oldest_iff_nextApart (hfull : cap ≤ written.length) :
    (∃ head, written[written.length - cap]? = some head ∧ oldest rows = some head) ↔
      NextApart cap (written.map Row.time) := by
  obtain ⟨head, hhead⟩ : ∃ head, written[written.length - cap]? = some head :=
    ⟨_, List.getElem?_eq_getElem (by omega)⟩
  simp only [hhead, Option.some.injEq, exists_eq_left',
    h.oldest_eq_some_iff hcap hsorted hfull hhead, NextApart, List.length_map, List.getElem?_map,
    Option.map_some, Option.mem_def, Option.map_eq_some_iff, forall_exists_index, and_imp,
    forall_apply_eq_imp_iff₂, forall_eq', hfull, forall_const]

/-- **One write**: the table goes on with the round. -/
theorem step (hnext : NextApart cap (written.map Row.time)) :
    GoesRound cap (storeRow cap rows e).1 (written ++ (storeRow cap rows e).2) := by
  have hlength := h.length
  rcases Nat.lt_or_ge rows.length cap with hlt | hge
  · rw [storeRow_of_lt hlt]
    have hmod : written.length % cap = rows.length := by
      rw [Nat.mod_eq_of_lt (by omega)]
      omega
    refine h.concat (by rw [h.nextId_eq, hmod]) (by simp; omega) fun j => ?_
    rw [hmod]
    rcases Nat.lt_trichotomy j rows.length with hj | rfl | hj
    · rw [if_neg hj.ne, List.getElem?_append_left hj]
    · rw [if_pos rfl, List.getElem?_concat_length]
    · rw [if_neg hj.ne', List.getElem?_eq_none (by simp; omega), List.getElem?_eq_none (by omega)]
  · obtain ⟨old, hold, hstore⟩ := storeRow_of_le (e := e) hcap hge
    have hfull : cap ≤ written.length := by omega
    obtain ⟨head, hhead, holdest⟩ := (h.oldest_iff_nextApart hcap hsorted hfull).mpr hnext
    obtain rfl := Option.some.inj (hold.symm.trans holdest)
    have hid := h.id_eq (by omega) (by omega) hhead
    rw [← Nat.mod_eq_sub_mod hfull] at hid
    have hrow : (⟨old.id, e.1, e.2⟩ : Row τ α).id = written.length % cap + 1 := hid
    have hset := h.updateRow_eq hrow
    rw [hstore]
    refine h.concat hrow ?_ fun j => ?_
    · rw [hset, List.length_set]
      omega
    have hmod := Nat.mod_lt written.length hcap
    rw [hset, List.getElem?_set]
    rcases eq_or_ne j (written.length % cap) with rfl | hj
    · rw [if_pos rfl, if_pos (by omega), if_pos rfl]
    · rw [if_neg hj.symm, if_neg hj]

/-- After a write that goes to another row, the table is not that of the last rows written. -/
theorem nextApart_of_perm (hperm : (storeRow cap rows e).1.Perm
      ((written ++ (storeRow cap rows e).2).drop (written.length + 1 - cap))) :
    NextApart cap (written.map Row.time) := by
  intro hle
  have hfull : cap ≤ written.length := by rwa [List.length_map] at hle
  have hlength := h.length
  refine (h.oldest_iff_nextApart hcap hsorted hfull).mp ?_ hle
  obtain ⟨old, hold, hstore⟩ := storeRow_of_le (e := e) hcap (by omega : cap ≤ rows.length)
  obtain ⟨head, hhead⟩ : ∃ head, written[written.length - cap]? = some head :=
    ⟨_, List.getElem?_eq_getElem (by omega)⟩
  obtain ⟨hlt, hget⟩ := List.getElem?_eq_some_iff.mp hhead
  refine ⟨head, hhead, ?_⟩
  have hdrop : written.drop (written.length - cap) =
      head :: written.drop (written.length + 1 - cap) := by
    rw [List.drop_eq_getElem_cons hlt, hget, Nat.sub_add_comm hfull]
  -- the ids of the table stay different, so the row written is not one of the last ones
  have hids : (updateRow rows ⟨old.id, e.1, e.2⟩).map Row.id = rows.map Row.id := by
    rw [updateRow, List.map_map]
    refine List.map_congr_left fun r _ => ?_
    rw [Function.comp_apply]
    split_ifs with hr
    · exact hr.symm
    · rfl
  rw [hstore, List.drop_append_of_le_length (by omega)] at hperm
  have hnodup := (hperm.map Row.id).nodup_iff.mp (hids ▸ h.nodup_id)
  rw [List.map_append, List.nodup_append] at hnodup
  have hmem := h.perm.mem_iff.mp (List.argmin_mem hold)
  rw [hdrop] at hmem
  rcases List.mem_cons.mp hmem with rfl | hmem
  · exact hold
  · exact absurd rfl (hnodup.2.2 _ (List.mem_map_of_mem hmem) _ (by simp))

end GoesRound

theorem nextApart_map {es : List (τ × α)} : NextApart cap (es.map Prod.fst) ↔
    (cap ≤ es.length → es.length % cap ≠ 0 →
      ∀ a ∈ es[es.length - cap]?, ∀ b ∈ es[cap * (es.length / cap)]?, a.1 < b.1) := by
  simp only [NextApart, List.length_map, List.getElem?_map, Option.mem_def,
    Option.map_eq_some_iff, forall_exists_index, and_imp, forall_apply_eq_imp_iff₂]

theorem roundsApart_concat (hcap : 0 < cap) {es : List (τ × α)} {e : τ × α} :
    RoundsApart cap (es ++ [e]) ↔ RoundsApart cap es ∧ NextApart cap (es.map Prod.fst) := by
  have hleft : ∀ i < es.length, (es ++ [e])[i]? = es[i]? := fun i => List.getElem?_append_left
  have hold : ∀ k ≤ es.length, cap ≤ k → (es ++ [e])[k - cap]? = es[k - cap]? :=
    fun k hk hcapk => hleft _ (by omega)
  have hfirst : ∀ k ≤ es.length, k % cap ≠ 0 →
      (es ++ [e])[cap * (k / cap)]? = es[cap * (k / cap)]? := by
    intro k hk hne
    have := Nat.div_add_mod k cap
    exact hleft _ (by omega)
  rw [nextApart_map]
  constructor
  · intro h
    refine ⟨fun k hk hcapk hne => ?_, fun hcapk hne => ?_⟩
    · rw [← hold k hk.le hcapk, ← hfirst k hk.le hne]
      exact h k (by simp; omega) hcapk hne
    · rw [← hold _ le_rfl hcapk, ← hfirst _ le_rfl hne]
      exact h _ (by simp) hcapk hne
  · rintro ⟨h, hlast⟩ k hk hcapk hne
    have hle : k ≤ es.length := by
      rw [List.length_append, List.length_singleton] at hk
      omega
    rw [hold k hle hcapk, hfirst k hle hne]
    rcases Nat.eq_or_lt_of_le hle with rfl | hlt
    · exact hlast hcapk hne
    · exact h k hlt hcapk hne

theorem keepsRecent_concat {es : List (τ × α)} {e : τ × α} :
    KeepsRecent cap (es ++ [e]) ↔ KeepsRecent cap es ∧
      ((storeMachine cap).state [] (es ++ [e])).Perm
        (((storeMachine cap).trace [] (es ++ [e])).drop (es.length + 1 - cap)) := by
  simp only [KeepsRecent, List.prefix_concat_iff]
  constructor
  · refine fun h => ⟨fun run hrun => h run (.inr hrun), ?_⟩
    simpa using h _ (.inl rfl)
  · rintro ⟨h, hlast⟩ run (rfl | hrun)
    · simpa using hlast
    · exact h run hrun

/-- **A table keeps its last rows.** With times that do not decrease, the rows are at any time the
last `cap` rows written if and only if the entry that a write must replace is always of an earlier
time than the entry with which the round of the write began. -/
theorem keepsRecent_iff (hcap : 0 < cap) {es : List (τ × α)}
    (hsorted : (es.map Prod.fst).Pairwise (· ≤ ·)) : KeepsRecent cap es ↔ RoundsApart cap es := by
  suffices h : (KeepsRecent cap es ↔ RoundsApart cap es) ∧ (RoundsApart cap es →
      GoesRound cap ((storeMachine cap).state [] es) ((storeMachine cap).trace [] es)) from h.1
  induction es using List.reverseRecOn with
  | nil =>
    refine ⟨iff_of_true (fun run hrun => ?_) fun k hk => ?_, fun _ => GoesRound.nil cap⟩
    · simp [List.prefix_nil.mp hrun]
    · cases hk
  | append_singleton es e ih =>
    rw [List.map_append, List.pairwise_append] at hsorted
    obtain ⟨hiff, hround⟩ := ih hsorted.1
    have hrecords := map_trace_storeMachine hcap es []
    have hlength : ((storeMachine cap).trace [] es).length = es.length := by
      simpa using congrArg List.length hrecords
    have htimes : ((storeMachine cap).trace [] es).map Row.time = es.map Prod.fst := by
      have h := congrArg (List.map Prod.fst) hrecords
      rwa [List.map_map] at h
    have hsortedRows := htimes ▸ hsorted.1
    have hstate : (storeMachine cap).state [] (es ++ [e]) =
        (storeRow cap ((storeMachine cap).state [] es) e).1 := Machine.state_append _ _ _ _
    have htrace : (storeMachine cap).trace [] (es ++ [e]) = (storeMachine cap).trace [] es ++
        (storeRow cap ((storeMachine cap).state [] es) e).2 := by
      rw [Machine.trace_append, Machine.trace_cons, Machine.trace_nil, List.append_nil]
      rfl
    rw [keepsRecent_concat, roundsApart_concat hcap, hstate, htrace, hiff, ← htimes, ← hlength]
    refine ⟨and_congr_right fun hapart => ⟨fun hperm => ?_, fun hnext => ?_⟩, fun h => ?_⟩
    · exact (hround hapart).nextApart_of_perm hcap hsortedRows e hperm
    · have h := ((hround hapart).step hcap hsortedRows e hnext).perm
      obtain ⟨id, hid⟩ := storeRow_written hcap ((storeMachine cap).state [] es) e
      rwa [hid, List.length_append, List.length_singleton, ← hid] at h
    · exact (hround h.1).step hcap hsortedRows e h.2

end Runs

end LoopCharger.Lib

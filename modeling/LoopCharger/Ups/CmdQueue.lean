import Mathlib.Tactic.SplitIfs
import Mathlib.Tactic.Set
import LoopCharger.Lib.Machine
import LoopCharger.Lib.Ring
import LoopCharger.Modbus.Defines

/-!
# The command queue of a unit

The per-unit ring of pending register writes of `src/ups_module.c` (`queue_init`, `queue_push`,
`queue_pop`), and the bounded first-in first-out list it implements. Every operation runs under
the queue mutex, so an interleaving of several threads is a sequence of whole operations.

## Main definitions

* `UpsCmdQueue`, `queueInit`, `queuePush`, `queuePop`: the queue as the code has it.
* `PendingCmd`, `UpsWriteCmd.pending`: the part of a slot that belongs to the command in it. A
  slot keeps the values of earlier, longer commands behind it.
* `queueMachine`, `fifoMachine`: the runs of the queue and of the bounded list.

## Main results

* `UpsCmdQueue.WellFormed.push_pending`, `UpsCmdQueue.WellFormed.pop_pending`: what the two
  operations do to the list of pending commands.
* `queue_refines_fifo`: the queue is a bounded first-in first-out list in every run.
-/

namespace LoopCharger.Ups

open Modbus

/-! ### The queue of the code -/

/-- The function code a queued write is sent with. -/
inductive UpsWriteMode
  | auto
  | fc06
  | fc16
  deriving DecidableEq, Repr

/-- One slot of the queue, `ups_write_cmd_t`. -/
structure UpsWriteCmd where
  addr : UInt16
  values : Vector UInt16 MODBUS_MAX_WRITE_REGISTERS
  count : UInt16
  mode : UpsWriteMode
  deriving DecidableEq

def UPS_CMD_QUEUE_CAPACITY : ℕ := 16

/-- `ups_cmd_queue_t` without its mutex. -/
structure UpsCmdQueue where
  entries : Vector UpsWriteCmd UPS_CMD_QUEUE_CAPACITY
  head : ℕ
  tail : ℕ
  count : ℕ
  deriving DecidableEq

/-- A slot filled with zero bytes; `UPS_WRITE_MODE_AUTO` is zero. -/
def UpsWriteCmd.zero : UpsWriteCmd := ⟨0, Vector.replicate _ 0, 0, .auto⟩

/-- The queue after `memset`. -/
def queueInit : UpsCmdQueue := ⟨Vector.replicate _ .zero, 0, 0, 0⟩

/-- `memcpy` of the first `count` registers at `values` over the array `old`. -/
def copyRegisters (old : Vector UInt16 MODBUS_MAX_WRITE_REGISTERS) (values : ℕ → UInt16)
    (count : UInt16) : Vector UInt16 MODBUS_MAX_WRITE_REGISTERS :=
  Vector.ofFn fun i => if i.val < count.toNat then values i else old[i]

/-- Push one write command: `0` on success, `-1` if the queue is full or the count out of
range. -/
def queuePush (q : UpsCmdQueue) (addr : UInt16) (values : ℕ → UInt16) (count : UInt16)
    (mode : UpsWriteMode) : ℤ × UpsCmdQueue :=
  if count = 0 ∨ count.toNat > MODBUS_MAX_WRITE_REGISTERS then (-1, q)
  else if q.count ≥ UPS_CMD_QUEUE_CAPACITY then (-1, q)
  else
    let entry := q.entries.toList.getD q.tail .zero
    let entry := { entry with addr, count, mode, values := copyRegisters entry.values values count }
    (0, { q with
      entries := q.entries.setIfInBounds q.tail entry
      tail := (q.tail + 1) % UPS_CMD_QUEUE_CAPACITY
      count := q.count + 1 })

/-- Pop the command at the head; `none` when the queue is empty. -/
def queuePop (q : UpsCmdQueue) : Option UpsWriteCmd × UpsCmdQueue :=
  if q.count = 0 then (none, q)
  else
    (some (q.entries.toList.getD q.head .zero),
      { q with head := (q.head + 1) % UPS_CMD_QUEUE_CAPACITY, count := q.count - 1 })

/-! ### The commands in the queue -/

/-- A pending command: address, mode, count and exactly `count` values. -/
structure PendingCmd where
  addr : UInt16
  mode : UpsWriteMode
  count : UInt16
  values : List UInt16
  deriving DecidableEq, Repr

/-- The pending command in a slot, without the values left behind by earlier commands. -/
def UpsWriteCmd.pending (c : UpsWriteCmd) : PendingCmd :=
  ⟨c.addr, c.mode, c.count, c.values.toList.take c.count.toNat⟩

/-- The command that a call of `queue_push` asks for. -/
def PendingCmd.ofArgs (addr : UInt16) (values : ℕ → UInt16) (count : UInt16)
    (mode : UpsWriteMode) : PendingCmd :=
  ⟨addr, mode, count, (List.range count.toNat).map values⟩

namespace UpsCmdQueue

/-- The slot at an index of the circular array. -/
def slot (q : UpsCmdQueue) (i : ℕ) : UpsWriteCmd := q.entries.toList.getD i .zero

/-- The commands in the queue, the oldest first. -/
def pending (q : UpsCmdQueue) : List PendingCmd :=
  (Lib.Ring.contents q.slot UPS_CMD_QUEUE_CAPACITY q.head q.count).map UpsWriteCmd.pending

/-- The index invariant of the queue. -/
structure WellFormed (q : UpsCmdQueue) : Prop where
  head_lt : q.head < UPS_CMD_QUEUE_CAPACITY
  count_le : q.count ≤ UPS_CMD_QUEUE_CAPACITY
  tail_eq : q.tail = (q.head + q.count) % UPS_CMD_QUEUE_CAPACITY

theorem WellFormed.tail_lt {q : UpsCmdQueue} (h : q.WellFormed) :
    q.tail < UPS_CMD_QUEUE_CAPACITY :=
  h.tail_eq ▸ Nat.mod_lt _ (by decide)

@[simp] theorem length_pending (q : UpsCmdQueue) : q.pending.length = q.count := by
  simp [pending]

/-- Storing a slot inside the array changes that slot only. -/
theorem slot_setIfInBounds (q : UpsCmdQueue) (e : UpsWriteCmd) {i : ℕ}
    (hi : i < UPS_CMD_QUEUE_CAPACITY) (head tail count : ℕ) :
    slot { q with entries := q.entries.setIfInBounds i e, head, tail, count } =
      Function.update q.slot i e := by
  funext j
  rcases eq_or_ne j i with rfl | hj
  · simp [slot, List.getD_eq_getElem?_getD, hi]
  · simp [slot, List.getD_eq_getElem?_getD, Function.update_of_ne hj, hj.symm]

end UpsCmdQueue

/-- The values copied into a slot are the first `count` values at the pointer. -/
theorem take_copyRegisters (old : Vector UInt16 MODBUS_MAX_WRITE_REGISTERS)
    (values : ℕ → UInt16) {count : UInt16} (h : count.toNat ≤ MODBUS_MAX_WRITE_REGISTERS) :
    (copyRegisters old values count).toList.take count.toNat =
      (List.range count.toNat).map values := by
  refine List.ext_getElem (by simpa using h) fun i h₁ h₂ => ?_
  have hi : i < count.toNat := by simpa using h₂
  simp [copyRegisters, hi]

/-! ### What one operation does -/

theorem wellFormed_queueInit : queueInit.WellFormed := ⟨by decide, by decide, by decide⟩

@[simp] theorem pending_queueInit : queueInit.pending = [] := rfl

/-- A push is accepted exactly when its count is within the limits of FC16 and a slot is free. -/
theorem queuePush_eq_zero_iff (q : UpsCmdQueue) (addr : UInt16) (values : ℕ → UInt16)
    (count : UInt16) (mode : UpsWriteMode) :
    (queuePush q addr values count mode).1 = 0 ↔
      1 ≤ count.toNat ∧ count.toNat ≤ MODBUS_MAX_WRITE_REGISTERS ∧
        q.count < UPS_CMD_QUEUE_CAPACITY := by
  have hcount : count = 0 ↔ count.toNat = 0 := by rw [← UInt16.toNat_inj]; rfl
  unfold queuePush
  split_ifs with h₁ h₂ <;> grind

/-- A rejected push leaves the queue as it was. -/
theorem queuePush_of_ne_zero (q : UpsCmdQueue) (addr : UInt16) (values : ℕ → UInt16)
    (count : UInt16) (mode : UpsWriteMode) (h : (queuePush q addr values count mode).1 ≠ 0) :
    queuePush q addr values count mode = (-1, q) := by
  unfold queuePush at h ⊢
  split_ifs at h ⊢ with h₁ h₂ <;> first | rfl | exact absurd rfl h

namespace UpsCmdQueue.WellFormed

variable {q : UpsCmdQueue}

/-- An accepted push appends its command to the pending ones. -/
theorem push_pending (hq : q.WellFormed) {addr : UInt16} {values : ℕ → UInt16} {count : UInt16}
    {mode : UpsWriteMode} (h : (queuePush q addr values count mode).1 = 0) :
    (queuePush q addr values count mode).2.pending =
      q.pending ++ [.ofArgs addr values count mode] := by
  obtain ⟨hpos, hmax, hfree⟩ := (queuePush_eq_zero_iff q addr values count mode).mp h
  have hcount : ¬ (count = 0 ∨ count.toNat > MODBUS_MAX_WRITE_REGISTERS) := by
    rintro (rfl | hgt)
    · exact absurd hpos (by decide)
    · omega
  rw [queuePush, if_neg hcount, if_neg (by omega)]
  simp only [pending, slot_setIfInBounds q _ hq.tail_lt]
  rw [hq.tail_eq, Lib.Ring.contents_update_tail _ _ _ _ _ hfree, List.map_append]
  simp only [List.map_cons, List.map_nil, UpsWriteCmd.pending, PendingCmd.ofArgs,
    take_copyRegisters _ _ hmax]

/-- A push, accepted or not, keeps the index invariant. -/
theorem push (hq : q.WellFormed) (addr : UInt16) (values : ℕ → UInt16) (count : UInt16)
    (mode : UpsWriteMode) : (queuePush q addr values count mode).2.WellFormed := by
  unfold queuePush
  split_ifs with h₁ h₂
  · exact hq
  · exact hq
  · have htail := hq.tail_eq
    refine ⟨hq.head_lt, by dsimp only; omega, ?_⟩
    simp only [htail, Nat.mod_add_mod, Nat.add_assoc]

/-- A pop hands out the oldest pending command and leaves the others. -/
theorem pop_pending (hq : q.WellFormed) :
    (queuePop q).1.map UpsWriteCmd.pending = q.pending.head? ∧
      (queuePop q).2.pending = q.pending.tail := by
  unfold queuePop
  split_ifs with h
  · have hnil : q.pending = [] := List.length_eq_zero_iff.mp (by rw [length_pending, h])
    simp [hnil]
  · obtain ⟨n, hn⟩ := Nat.exists_eq_succ_of_ne_zero h
    have hpend : q.pending = (q.slot q.head).pending ::
        (Lib.Ring.contents q.slot UPS_CMD_QUEUE_CAPACITY
          ((q.head + 1) % UPS_CMD_QUEUE_CAPACITY) n).map UpsWriteCmd.pending := by
      rw [pending, hn, Lib.Ring.contents_succ, Nat.mod_eq_of_lt hq.head_lt, List.map_cons]
    constructor
    · rw [hpend]
      rfl
    · rw [hpend, List.tail_cons, pending]
      simp only [hn, Nat.succ_eq_add_one, Nat.add_sub_cancel]
      rfl

/-- A pop keeps the index invariant. -/
theorem pop (hq : q.WellFormed) : (queuePop q).2.WellFormed := by
  unfold queuePop
  split_ifs with h
  · exact hq
  · refine ⟨Nat.mod_lt _ (by decide), by have := hq.count_le; dsimp only; omega, ?_⟩
    have htail := hq.tail_eq
    simp only [htail, Nat.mod_add_mod]
    congr 1
    omega

end UpsCmdQueue.WellFormed

/-! ### Runs -/

/-- One operation on the queue, run under its mutex. -/
inductive QueueOp
  | push (addr : UInt16) (values : ℕ → UInt16) (count : UInt16) (mode : UpsWriteMode)
  | pop

/-- What an operation returns to its caller. -/
inductive QueueReply
  | pushed (rc : ℤ)
  | popped (cmd : Option PendingCmd)

/-- The runs of the queue of the code. -/
def queueMachine : Lib.Machine UpsCmdQueue QueueOp QueueReply where
  step q
    | .push addr values count mode =>
      let r := queuePush q addr values count mode
      (r.2, [.pushed r.1])
    | .pop =>
      let r := queuePop q
      (r.2, [.popped (r.1.map UpsWriteCmd.pending)])

/-- The runs of a first-in first-out list of at most `UPS_CMD_QUEUE_CAPACITY` commands, each
of `1` to `MODBUS_MAX_WRITE_REGISTERS` values. -/
def fifoMachine : Lib.Machine (List PendingCmd) QueueOp QueueReply where
  step l
    | .push addr values count mode =>
      if 1 ≤ count.toNat ∧ count.toNat ≤ MODBUS_MAX_WRITE_REGISTERS ∧
          l.length < UPS_CMD_QUEUE_CAPACITY then
        (l ++ [.ofArgs addr values count mode], [.pushed 0])
      else (l, [.pushed (-1)])
    | .pop => (l.tail, [.popped l.head?])

/-- The queue and the list of its pending commands move together. -/
theorem queueMachine_step (q : UpsCmdQueue) (op : QueueOp) (hq : q.WellFormed) :
    ((queueMachine.step q op).1.WellFormed ∧
        (queueMachine.step q op).1.pending = (fifoMachine.step q.pending op).1) ∧
      (queueMachine.step q op).2 = (fifoMachine.step q.pending op).2 := by
  cases op with
  | push addr values count mode =>
    have haccept := queuePush_eq_zero_iff q addr values count mode
    refine ⟨⟨hq.push addr values count mode, ?_⟩, ?_⟩
    all_goals
      simp only [queueMachine, fifoMachine, UpsCmdQueue.length_pending]
      split_ifs with h
    · exact hq.push_pending (haccept.mpr h)
    · rw [queuePush_of_ne_zero q addr values count mode (mt haccept.mp h)]
    · rw [haccept.mpr h]
    · rw [queuePush_of_ne_zero q addr values count mode (mt haccept.mp h)]
  | pop =>
    obtain ⟨hhead, htail⟩ := hq.pop_pending
    refine ⟨⟨hq.pop, htail⟩, ?_⟩
    simp only [queueMachine, fifoMachine, hhead]

/-- **The command ring is a bounded first-in first-out list.** After any sequence of pushes and
pops from `queue_init`, the indices are in range, the pending commands and every reply of the
run are those of the list, and the next operation is the one of the list: a push succeeds exactly
when its count is in range and a slot is free, and otherwise changes nothing; a pop fails exactly
when nothing is pending and otherwise returns the oldest command as it was pushed. -/
theorem queue_refines_fifo (ops : List QueueOp) :
    let q := queueMachine.state queueInit ops
    let l := fifoMachine.state [] ops
    (q.head < 16 ∧ q.tail < 16 ∧ q.count ≤ 16 ∧ q.tail = (q.head + q.count) % 16) ∧
      q.pending = l ∧ queueMachine.trace queueInit ops = fifoMachine.trace [] ops ∧
      (∀ addr values count mode,
        ((queuePush q addr values count mode).1 = 0 ↔
          1 ≤ count.toNat ∧ count.toNat ≤ 123 ∧ l.length < 16) ∧
        ((queuePush q addr values count mode).1 ≠ 0 →
          queuePush q addr values count mode = (-1, q)) ∧
        ((queuePush q addr values count mode).1 = 0 →
          (queuePush q addr values count mode).2.pending =
            l ++ [.ofArgs addr values count mode])) ∧
      ((queuePop q).1 = none ↔ l = []) ∧
      (queuePop q).1.map UpsWriteCmd.pending = l.head? ∧ (queuePop q).2.pending = l.tail := by
  obtain ⟨⟨hq, hl⟩, htrace⟩ := Lib.Machine.simulation (M := queueMachine) (N := fifoMachine)
    (fun q l => q.WellFormed ∧ q.pending = l)
    (by rintro q _ op ⟨hq, rfl⟩; exact queueMachine_step q op hq)
    ⟨wellFormed_queueInit, pending_queueInit⟩ ops
  set q := queueMachine.state queueInit ops
  obtain ⟨hhead, htail⟩ := hq.pop_pending
  have hnone : (queuePop q).1 = none ↔ q.pending = [] := by
    rw [← Option.map_eq_none_iff (f := UpsWriteCmd.pending), hhead, List.head?_eq_none_iff]
  refine ⟨⟨hq.head_lt, hq.tail_lt, hq.count_le, hq.tail_eq⟩, hl, htrace, ?_, hl ▸ hnone,
    hl ▸ hhead, hl ▸ htail⟩
  intro addr values count mode
  rw [← hl, UpsCmdQueue.length_pending]
  exact ⟨queuePush_eq_zero_iff q addr values count mode,
    queuePush_of_ne_zero q addr values count mode, hq.push_pending⟩

end LoopCharger.Ups

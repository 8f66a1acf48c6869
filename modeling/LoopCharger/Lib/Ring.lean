import Mathlib.Data.Nat.ModEq
import Mathlib.Data.List.Basic
import Mathlib.Logic.Function.Basic

/-!
# Circular buffers

A circular buffer of `n` slots stores the `count` elements that start at the slot `head` and go
round. `contents` lists them, the oldest first, and the two results below say what a write at the
tail and a move of the head do to that list, whatever the unused slots hold.

## Main definitions

* `Ring.contents`: the stored elements, the oldest first.

## Main results

* `Ring.contents_update_tail`: writing the slot after the last element appends the element.
* `Ring.contents_succ`: moving the head drops the oldest element.
-/

namespace LoopCharger.Lib.Ring

variable {α : Type*} (slots : ℕ → α) (n head count : ℕ)

/-- The `count` elements stored from the slot `head` on in a circular buffer of `n` slots. -/
def contents : List α := (List.range count).map fun i => slots ((head + i) % n)

@[simp] theorem length_contents : (contents slots n head count).length = count := by
  simp [contents]

/-- Two different offsets of less than one turn are different slots. -/
theorem offset_ne {n head i j : ℕ} (hij : i < j) (hj : j < n) :
    (head + i) % n ≠ (head + j) % n := by
  intro h
  have hmod : i % n = j % n := Nat.ModEq.add_left_cancel' head h
  rw [Nat.mod_eq_of_lt (Nat.lt_trans hij hj), Nat.mod_eq_of_lt hj] at hmod
  exact Nat.ne_of_lt hij hmod

/-- Only the slots between the head and the tail matter. -/
theorem contents_congr {slots slots' : ℕ → α} {n head count : ℕ}
    (h : ∀ i < count, slots ((head + i) % n) = slots' ((head + i) % n)) :
    contents slots n head count = contents slots' n head count :=
  List.map_congr_left fun i hi => h i (List.mem_range.mp hi)

/-- Writing the slot after the last element appends the element written. -/
theorem contents_update_tail (x : α) (hcount : count < n) :
    contents (Function.update slots ((head + count) % n) x) n head (count + 1) =
      contents slots n head count ++ [x] := by
  have hold : contents (Function.update slots ((head + count) % n) x) n head count =
      contents slots n head count :=
    contents_congr fun i hi => Function.update_of_ne (offset_ne hi hcount) _ _
  rw [← hold, contents, List.range_succ, List.map_append]
  simp only [contents, List.map_cons, List.map_nil, Function.update_self]

/-- The first element is at the head, and the others are stored from the next slot on. -/
theorem contents_succ :
    contents slots n head (count + 1) =
      slots (head % n) :: contents slots n ((head + 1) % n) count := by
  rw [contents, List.range_succ_eq_map, List.map_cons, List.map_map]
  refine congrArg₂ List.cons (by rw [Nat.add_zero]) (List.map_congr_left fun i _ => ?_)
  simp only [Function.comp_apply, Nat.mod_add_mod, Nat.succ_eq_add_one]
  rw [Nat.add_assoc, Nat.add_comm 1 i]

end LoopCharger.Lib.Ring

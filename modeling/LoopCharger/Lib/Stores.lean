import Mathlib.Data.Nat.Notation
import Mathlib.Logic.Function.Basic

/-!
# Stores into a buffer

A buffer that a function fills one element after another, given by the stores that the function
makes: an index and an element each, in their order. The buffer is a function of the index, so that
nothing keeps a store from lying behind its end.

## Main definitions

* `stored`: a buffer after stores.
* `block`: the stores of elements one behind the other.
* `BeginsWith`: the elements that a buffer begins with.

## Main results

* `stored_of_forall_ne`: an index that no store is for keeps its element.
* `stored_block`: what is read at the index of a store of a block.
* `mem_block_index`: the indices of a block.
* `BeginsWith.stored_block`: a block stored behind what a buffer begins with.
-/

namespace LoopCharger.Lib

variable {α : Type*}

/-- The buffer after the stores. -/
def stored (buf : ℕ → α) (stores : List (ℕ × α)) : ℕ → α :=
  stores.foldl (fun buf s => Function.update buf s.1 s.2) buf

@[simp] theorem stored_nil (buf : ℕ → α) : stored buf [] = buf := rfl

@[simp] theorem stored_cons (buf : ℕ → α) (s : ℕ × α) (stores : List (ℕ × α)) :
    stored buf (s :: stores) = stored (Function.update buf s.1 s.2) stores := rfl

/-- An index that no store is for keeps its element. -/
theorem stored_of_forall_ne {stores : List (ℕ × α)} {i : ℕ} (h : ∀ s ∈ stores, s.1 ≠ i)
    (buf : ℕ → α) : stored buf stores i = buf i := by
  induction stores generalizing buf with
  | nil => rfl
  | cons s stores ih =>
    rw [stored_cons, ih (fun t ht => h t (List.mem_cons_of_mem s ht))]
    exact Function.update_of_ne (h s List.mem_cons_self).symm _ _

/-! ### Blocks -/

/-- The stores of elements one behind the other, the first one at the index `off`. -/
def block (off : ℕ) : List α → List (ℕ × α)
  | [] => []
  | a :: as => (off, a) :: block (off + 1) as

theorem block_append (off : ℕ) (as bs : List α) :
    block off (as ++ bs) = block off as ++ block (off + as.length) bs := by
  induction as generalizing off with
  | nil => rfl
  | cons a as ih =>
    have hoff : off + 1 + as.length = off + (a :: as).length := by
      rw [List.length_cons]
      omega
    rw [List.cons_append, block, block, ih, hoff, List.cons_append]

/-- The indices of a block. -/
theorem mem_block_index {off : ℕ} {as : List α} {s : ℕ × α} (hs : s ∈ block off as) :
    off ≤ s.1 ∧ s.1 < off + as.length := by
  induction as generalizing off with
  | nil => exact absurd hs List.not_mem_nil
  | cons a as ih =>
    rw [List.length_cons]
    rcases List.mem_cons.mp hs with rfl | hs
    · exact ⟨Nat.le_refl _, by omega⟩
    · have := ih hs
      omega

/-- What is read at the index of a store of a block. -/
theorem stored_block (buf : ℕ → α) (off : ℕ) {as : List α} {i : ℕ} (hi : i < as.length) :
    stored buf (block off as) (off + i) = as[i] := by
  induction as generalizing off i buf with
  | nil => exact absurd hi (Nat.not_lt_zero i)
  | cons a as ih =>
    rw [block, stored_cons]
    cases i with
    | zero =>
      have hne : ∀ s ∈ block (off + 1) as, s.1 ≠ off := fun s hs => by
        have := mem_block_index hs
        omega
      exact (stored_of_forall_ne hne _).trans (Function.update_self off a buf)
    | succ i =>
      have hoff : off + (i + 1) = off + 1 + i := by omega
      rw [hoff, ih, List.getElem_cons_succ]

/-! ### What a buffer begins with -/

/-- The buffer begins with the elements. -/
def BeginsWith (buf : ℕ → α) (as : List α) : Prop := ∀ i (hi : i < as.length), buf i = as[i]

theorem BeginsWith.nil (buf : ℕ → α) : BeginsWith buf [] := fun i hi =>
  absurd hi (Nat.not_lt_zero i)

/-- A buffer of the elements, and of another one behind them. -/
theorem BeginsWith.getD (as : List α) (a : α) : BeginsWith (fun i => as.getD i a) as := fun _ _ =>
  (List.getElem_eq_getD a).symm

theorem BeginsWith.of_append {buf : ℕ → α} {as bs : List α} (h : BeginsWith buf (as ++ bs)) :
    BeginsWith buf as := fun i hi => by
  rw [h i (by rw [List.length_append]; omega), List.getElem_append_left hi]

/-- A block stored behind what the buffer begins with. -/
theorem BeginsWith.stored_block {buf : ℕ → α} {as : List α} (h : BeginsWith buf as)
    (bs : List α) : BeginsWith (stored buf (block as.length bs)) (as ++ bs) := fun i hi => by
  by_cases hlt : i < as.length
  · have hne : ∀ s ∈ block as.length bs, s.1 ≠ i := fun s hs => by
      have := mem_block_index hs
      omega
    rw [stored_of_forall_ne hne, h i hlt, List.getElem_append_left hlt]
  · obtain ⟨k, rfl⟩ := Nat.exists_eq_add_of_le (Nat.not_lt.mp hlt)
    have hk : k < bs.length := by
      rw [List.length_append] at hi
      omega
    rw [Lib.stored_block buf as.length hk, List.getElem_append_right (Nat.le_add_right _ _)]
    simp only [Nat.add_sub_cancel_left]

end LoopCharger.Lib

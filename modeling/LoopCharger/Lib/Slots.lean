import Mathlib.Data.List.Basic
import Mathlib.Data.Nat.Notation

/-!
# Tables of slots

A table is a list of rows. A row holds a key or is free, and no two rows hold the same key. A row is
changed in place: a free row takes a key that no row has, a row gives its key up, or a row changes
without its key.

## Main definitions

* `KeysDistinct`: no two rows of the table hold the same key.

## Main results

* `KeysDistinct.set`: a row is changed.
* `countP_set_of_getElem?`: the number of rows with a property, when a row is changed.
* `set_shiftDown`: a row is removed from the front part of a table by moving those behind it.
-/

namespace LoopCharger.Lib

variable {α K : Type*} (key : α → Option K)

/-- No two rows of the table hold the same key. -/
def KeysDistinct (rows : List α) : Prop :=
  ∀ (i j : ℕ) (x y : α) (k : K), rows[i]? = some x → rows[j]? = some y → key x = some k →
    key y = some k → i = j

variable {key} {rows : List α} {i : ℕ} {old new : α}

/-- When no row holds a key, the keys are distinct. -/
theorem keysDistinct_of_free (h : ∀ x ∈ rows, key x = none) : KeysDistinct key rows := by
  intro i j x y k hx _ hk
  rw [h x (List.mem_of_getElem? hx)] at hk
  cases hk

/-- A row of a table of which one row is changed. -/
theorem getElem?_set_cases {j : ℕ} {x : α} (h : (rows.set i new)[j]? = some x) :
    (j = i ∧ x = new) ∨ (j ≠ i ∧ rows[j]? = some x) := by
  by_cases hji : j = i
  · subst hji
    have hlt : j < rows.length := by
      have := (List.getElem?_eq_some_iff.mp h).1
      rwa [List.length_set] at this
    rw [List.getElem?_set_self hlt, Option.some.injEq] at h
    exact .inl ⟨rfl, h.symm⟩
  · rw [List.getElem?_set_ne (Ne.symm hji)] at h
    exact .inr ⟨hji, h⟩

/-- A row that is not like the one that is changed stays in the table. -/
theorem mem_set_of_ne {x : α} (hget : rows[i]? = some old) (hx : x ∈ rows) (hne : x ≠ old) :
    x ∈ rows.set i new := by
  obtain ⟨j, hj⟩ := List.mem_iff_getElem?.mp hx
  have hij : i ≠ j := by
    rintro rfl
    exact hne (Option.some.inj (hj.symm.trans hget))
  exact List.mem_iff_getElem?.mpr ⟨j, by rw [List.getElem?_set_ne hij, hj]⟩

/-- **A row is changed**: it keeps the key it has, or it takes one that no row has. -/
theorem KeysDistinct.set (h : KeysDistinct key rows) (hget : rows[i]? = some old)
    (hnew : ∀ k, key new = some k → key old = some k ∨ ∀ x ∈ rows, key x ≠ some k) :
    KeysDistinct key (rows.set i new) := by
  -- a key of the changed row is in no other row
  have hother : ∀ (j : ℕ) (y : α) (k : K), j ≠ i → rows[j]? = some y → key new = some k →
      key y ≠ some k := by
    intro j y k hji hy hk hyk
    rcases hnew k hk with hold | hfresh
    · exact hji (h j i y old k hy hget hyk hold)
    · exact hfresh y (List.mem_of_getElem? hy) hyk
  intro a b x y k hx hy hxk hyk
  rcases getElem?_set_cases hx with ⟨rfl, rfl⟩ | ⟨ha, hx'⟩ <;>
    rcases getElem?_set_cases hy with ⟨rfl, rfl⟩ | ⟨hb, hy'⟩
  · rfl
  · exact absurd hyk (hother b y k hb hy' hxk)
  · exact absurd hxk (hother a x k ha hx' hyk)
  · exact h a b x y k hx' hy' hxk hyk

/-- The number of rows with a property, when a row is changed. -/
theorem countP_set_of_getElem? (p : α → Bool) (hget : rows[i]? = some old) :
    (rows.set i new).countP p + (p old).toNat = rows.countP p + (p new).toNat := by
  obtain ⟨hlt, rfl⟩ := List.getElem?_eq_some_iff.mp hget
  have hcount := List.countP_set (p := p) (a := new) hlt
  cases hold : p rows[i] with
  | false => cases hnew : p new <;> simpa [hold, hnew] using hcount
  | true =>
    have hpos : 0 < rows.countP p := List.countP_pos_iff.mpr ⟨_, List.getElem_mem hlt, hold⟩
    cases hnew : p new <;> simp only [hold, hnew, if_true, if_false, Bool.false_eq_true,
      Bool.toNat_true, Bool.toNat_false] at hcount ⊢ <;> omega

/-! ### Removing a row -/

/-- The `n` rows behind the row `k` move to the place before them, one after the other. -/
def shiftDown (d : α) (rows : List α) (k : ℕ) : ℕ → List α
  | 0 => rows
  | n + 1 => shiftDown d (rows.set k (rows.getD (k + 1) d)) (k + 1) n

/-- **A row is removed**: those behind it move up to it, and the place of the last one is free. -/
theorem set_shiftDown (d : α) (pre : List α) (x : α) (mid post : List α) (free : α) :
    (shiftDown d (pre ++ x :: (mid ++ post)) pre.length mid.length).set
      (pre.length + mid.length) free = pre ++ mid ++ free :: post := by
  induction mid generalizing pre x with
  | nil => simp [shiftDown]
  | cons y mid ih =>
    have hmove : (pre ++ x :: (y :: mid ++ post)).set pre.length
        ((pre ++ x :: (y :: mid ++ post)).getD (pre.length + 1) d) =
        (pre ++ [y]) ++ y :: (mid ++ post) := by
      simp [List.getD_eq_getElem?_getD]
    have hrest := ih (pre ++ [y]) y
    rw [List.length_append, List.length_singleton] at hrest
    rw [List.length_cons, shiftDown, hmove, Nat.add_comm mid.length 1, ← Nat.add_assoc, hrest]
    simp only [List.append_assoc, List.cons_append, List.nil_append]

end LoopCharger.Lib

import Mathlib.Data.List.Basic
import Mathlib.Data.Nat.Notation

/-!
# Filling the rows of a table

The elements of a list are loaded into the rows of a table, from the `n`-th row on, each element
over what its row holds. The filling goes wrong when an element cannot be loaded, or when there is
no row for it.

## Main definitions

* `fillRow`, `fillRows`: an element, and a list of elements.

## Main results

* `exists_fillRows_iff`: when every element can be loaded.
* `getElem?_of_fillRows`: what the rows hold then.
* `min_countP_take_iff`, `take_filter_take`: the elements chosen from the front part of a list.
-/

namespace LoopCharger.Lib

variable {ε α : Type*}

section Fill

variable (load : ε → α → Option α)

/-- What the `n`-th row holds when the element is loaded into it. -/
def fillRow (e : ε) (n : ℕ) (rows : List α) : Option α := rows[n]?.bind (load e)

/-- The rows when the elements are loaded into those from the `n`-th on. -/
def fillRows : List ε → ℕ → List α → Option (List α)
  | [], _, rows => some rows
  | e :: es, n, rows =>
    (fillRow load e n rows).bind fun row => fillRows es (n + 1) (rows.set n row)

variable {load} {es : List ε} {e : ε} {n k : ℕ} {rows rows' : List α}

/-- A row behind the one that is changed is loaded as before. -/
theorem fillRow_set (row : α) :
    fillRow load e (n + 1 + k) (rows.set n row) = fillRow load e (n + (k + 1)) rows := by
  rw [fillRow, List.getElem?_set_ne (by omega), fillRow, Nat.add_assoc, Nat.add_comm 1 k]

/-- The elements can be loaded together if each of them can be loaded into its row. -/
theorem exists_fillRows_iff :
    (∃ rows', fillRows load es n rows = some rows') ↔
      ∀ k e, es[k]? = some e → ∃ row, fillRow load e (n + k) rows = some row := by
  induction es generalizing n rows with
  | nil => simp [fillRows]
  | cons e es ih =>
    constructor
    · rintro ⟨rows', h⟩ k e' hk
      obtain ⟨row, hrow, hrest⟩ := Option.bind_eq_some_iff.mp h
      cases k with
      | zero =>
        obtain rfl := Option.some.inj hk
        exact ⟨row, hrow⟩
      | succ k =>
        obtain ⟨row', hrow'⟩ := ih.mp ⟨rows', hrest⟩ k e' hk
        exact ⟨row', (fillRow_set row).symm.trans hrow'⟩
    · intro h
      obtain ⟨row, hrow⟩ := h 0 e rfl
      obtain ⟨rows', hrest⟩ := ih.mpr fun k e' hk => by
        obtain ⟨row', hrow'⟩ := h (k + 1) e' hk
        exact ⟨row', (fillRow_set row).trans hrow'⟩
      exact ⟨rows', Option.bind_eq_some_iff.mpr ⟨row, hrow, hrest⟩⟩

/-- The rows before those that are filled stay as they are. -/
theorem getElem?_of_fillRows_of_lt (h : fillRows load es n rows = some rows') (hk : k < n) :
    rows'[k]? = rows[k]? := by
  induction es generalizing n rows with
  | nil => rw [Option.some.inj h]
  | cons e es ih =>
    obtain ⟨row, -, hrest⟩ := Option.bind_eq_some_iff.mp h
    rw [ih hrest (Nat.lt_succ_of_lt hk), List.getElem?_set_ne (Nat.ne_of_gt hk)]

/-- A row that is filled holds what is loaded of its element. -/
theorem getElem?_of_fillRows (h : fillRows load es n rows = some rows') (hk : es[k]? = some e) :
    rows'[n + k]? = fillRow load e (n + k) rows := by
  induction es generalizing n k rows with
  | nil => cases hk
  | cons e' es ih =>
    obtain ⟨row, hrow, hrest⟩ := Option.bind_eq_some_iff.mp h
    cases k with
    | zero =>
      obtain rfl := Option.some.inj hk
      obtain ⟨old, hold, -⟩ := Option.bind_eq_some_iff.mp hrow
      rw [Nat.add_zero, getElem?_of_fillRows_of_lt hrest (Nat.lt_succ_self n),
        List.getElem?_set_self (List.getElem?_eq_some_iff.mp hold).1, hrow]
    | succ k =>
      rw [← fillRow_set row, ← ih hrest hk, Nat.add_assoc, Nat.add_comm 1 k]

end Fill

section Front

variable {p : ε → Bool} {l : List ε} {r c : ℕ}

theorem countP_take_add_countP_drop (p : ε → Bool) (l : List ε) (r : ℕ) :
    (l.take r).countP p + (l.drop r).countP p = l.countP p := by
  rw [← List.countP_append, List.take_append_drop]

/-- The number of elements that are chosen, up to `c`, is that of the front part of the list. -/
theorem min_countP_take_iff :
    min c ((l.take r).countP p) = min c (l.countP p) ↔
      (∀ x ∈ l.drop r, ¬ p x) ∨ c ≤ (l.take r).countP p := by
  have := countP_take_add_countP_drop p l r
  rw [← List.countP_eq_zero]
  omega

/-- Then the first elements that are chosen are those of the front part. -/
theorem take_filter_take (h : (∀ x ∈ l.drop r, ¬ p x) ∨ c ≤ (l.take r).countP p) :
    ((l.take r).filter p).take c = (l.filter p).take c := by
  have hfilter : l.filter p = (l.take r).filter p ++ (l.drop r).filter p := by
    rw [← List.filter_append, List.take_append_drop]
  rw [hfilter]
  rcases h with hnone | hfull
  · rw [List.filter_eq_nil_iff.mpr hnone, List.append_nil]
  · rw [List.take_append_of_le_length (List.countP_eq_length_filter ▸ hfull)]

end Front

end LoopCharger.Lib

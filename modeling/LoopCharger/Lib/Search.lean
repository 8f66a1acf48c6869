import Mathlib.Order.Lattice
import LoopCharger.Lib.Loop

/-!
# Binary search

Search of a key in a half-open window of indices, by the usual loop: compare with the key in the
middle, and keep the half that can hold the key searched for. The keys are given by a function of
the index, so that any table can be searched.

## Main definitions

* `binarySearch`: the loop on the window from `low` to `high`.
* `Window`, `searchPass`: one pass of the loop, with the indices whose keys are read.

## Main results

* `binarySearch_sound`: an index found is in the window and has the key, sorted or not.
* `binarySearch_complete`: with ascending keys, a key of the window is found.
* `returns_searchPass`, `Returns.reads_searchPass`: the loop ends, whatever the keys are, and reads
  in its window only.
-/

namespace LoopCharger.Lib

variable {K : Type*} [LinearOrder K] (key : ℕ → K) (x : K)

/-- The search loop. Each turn shrinks the window, so the width of the window is enough fuel. -/
def binarySearchLoop : ℕ → ℕ → ℕ → Option ℕ
  | 0, _, _ => none
  | fuel + 1, low, high =>
    if low < high then
      let mid := low + (high - low) / 2
      if key mid = x then some mid
      else if key mid < x then binarySearchLoop fuel (mid + 1) high
      else binarySearchLoop fuel low mid
    else none

/-- Search `x` among the keys of the indices from `low` to `high - 1`. -/
def binarySearch (low high : ℕ) : Option ℕ := binarySearchLoop key x (high - low) low high

variable {key x}

theorem binarySearchLoop_sound {fuel low high i : ℕ}
    (h : binarySearchLoop key x fuel low high = some i) : low ≤ i ∧ i < high ∧ key i = x := by
  fun_induction binarySearchLoop key x fuel low high with
  | case1 => cases h
  | case2 fuel low high hlt mid heq =>
    obtain rfl : mid = i := by simpa using h
    exact ⟨Nat.le_add_right _ _, by omega, heq⟩
  | case3 fuel low high hlt mid hne hless ih =>
    obtain ⟨hlow, hhigh, hkey⟩ := ih h
    exact ⟨by omega, hhigh, hkey⟩
  | case4 fuel low high hlt mid hne hless ih =>
    obtain ⟨hlow, hhigh, hkey⟩ := ih h
    exact ⟨hlow, by omega, hkey⟩
  | case5 => cases h

/-- An index found is in the window and has the key searched for. -/
theorem binarySearch_sound {low high i : ℕ} (h : binarySearch key x low high = some i) :
    low ≤ i ∧ i < high ∧ key i = x :=
  binarySearchLoop_sound h

theorem binarySearchLoop_complete {fuel low high k : ℕ} (hfuel : high - low ≤ fuel)
    (hkey : ∀ i j, low ≤ i → i ≤ j → j < high → key i ≤ key j)
    (hlow : low ≤ k) (hhigh : k < high) (hk : key k = x) :
    ∃ i, binarySearchLoop key x fuel low high = some i := by
  fun_induction binarySearchLoop key x fuel low high with
  | case1 => omega
  | case2 fuel low high hlt mid heq => exact ⟨mid, rfl⟩
  | case3 fuel low high hlt mid hne hless ih =>
    -- the key in the middle is below `x`, and so are all keys before it
    have hmid : mid < k := by
      by_contra hle
      exact absurd (hk ▸ hkey k mid hlow (by omega) (by omega)) (not_le_of_gt hless)
    exact ih (by omega) (fun i j hi hij hj => hkey i j (by omega) hij hj) (by omega) hhigh
  | case4 fuel low high hlt mid hne hless ih =>
    have hmid : k < mid := by
      by_contra hle
      have hle' := hk ▸ hkey mid k (by omega) (by omega) hhigh
      exact hless (lt_of_le_of_ne hle' hne)
    exact ih (by omega) (fun i j hi hij hj => hkey i j hi hij (by omega)) hlow hmid
  | case5 => omega

/-- With ascending keys, a key of the window is found. -/
theorem binarySearch_complete {low high k : ℕ}
    (hkey : ∀ i j, low ≤ i → i ≤ j → j < high → key i ≤ key j)
    (hlow : low ≤ k) (hhigh : k < high) (hk : key k = x) :
    ∃ i, binarySearch key x low high = some i :=
  binarySearchLoop_complete (Nat.le_refl _) hkey hlow hhigh hk

/-! ### Pass by pass -/

/-- The window that is left to search, and the indices whose keys were read. -/
structure Window where
  low : ℕ
  high : ℕ
  reads : List ℕ

variable (key x) in
/-- One pass of the loop, with the condition in front of it. -/
def searchPass (w : Window) : Window ⊕ (Option ℕ × List ℕ) :=
  if w.low < w.high then
    let mid := w.low + (w.high - w.low) / 2
    let reads := w.reads ++ [mid]
    if key mid = x then .inr (some mid, reads)
    else if key mid < x then .inl ⟨mid + 1, w.high, reads⟩
    else .inl ⟨w.low, mid, reads⟩
  else .inr (none, w.reads)

/-- A pass that finds the key in the middle. -/
theorem searchPass_of_eq {w : Window} (h : w.low < w.high)
    (hkey : key (w.low + (w.high - w.low) / 2) = x) :
    searchPass key x w = .inr (some (w.low + (w.high - w.low) / 2),
      w.reads ++ [w.low + (w.high - w.low) / 2]) := by
  simp only [searchPass, h, hkey, if_true]

/-- A pass that goes on above the middle. -/
theorem searchPass_of_lt {w : Window} (h : w.low < w.high)
    (hkey : key (w.low + (w.high - w.low) / 2) < x) :
    searchPass key x w = .inl ⟨w.low + (w.high - w.low) / 2 + 1, w.high,
      w.reads ++ [w.low + (w.high - w.low) / 2]⟩ := by
  simp only [searchPass, h, hkey, hkey.ne, if_true, if_false]

/-- A pass that goes on below the middle. -/
theorem searchPass_of_gt {w : Window} (h : w.low < w.high)
    (hkey : x < key (w.low + (w.high - w.low) / 2)) :
    searchPass key x w = .inl ⟨w.low, w.low + (w.high - w.low) / 2,
      w.reads ++ [w.low + (w.high - w.low) / 2]⟩ := by
  simp only [searchPass, h, hkey.ne', hkey.not_gt, if_true, if_false]

/-- A pass that finds the window empty. -/
theorem searchPass_of_not_lt {w : Window} (h : ¬ w.low < w.high) :
    searchPass key x w = .inr (none, w.reads) := if_neg h

/-- What a pass that goes on does: it reads in the middle, and narrows the window. -/
theorem searchPass_eq_inl {w w' : Window} (h : searchPass key x w = .inl w') :
    ∃ mid, w.low ≤ mid ∧ mid < w.high ∧ w'.reads = w.reads ++ [mid] ∧
      w.low ≤ w'.low ∧ w'.high ≤ w.high := by
  by_cases hlt : w.low < w.high
  · have hmid : w.low + (w.high - w.low) / 2 < w.high := by omega
    refine ⟨w.low + (w.high - w.low) / 2, Nat.le_add_right _ _, hmid, ?_⟩
    rcases lt_trichotomy (key (w.low + (w.high - w.low) / 2)) x with hkey | hkey | hkey
    · obtain rfl := Sum.inl.inj ((searchPass_of_lt hlt hkey).symm.trans h)
      exact ⟨rfl, Nat.le_succ_of_le (Nat.le_add_right _ _), Nat.le_refl _⟩
    · exact absurd ((searchPass_of_eq hlt hkey).symm.trans h) Sum.inr_ne_inl
    · obtain rfl := Sum.inl.inj ((searchPass_of_gt hlt hkey).symm.trans h)
      exact ⟨rfl, Nat.le_refl _, hmid.le⟩
  · exact absurd ((searchPass_of_not_lt hlt).symm.trans h) Sum.inr_ne_inl

/-- What a pass that ends the loop does: it reads in the middle of the window, or nothing. -/
theorem searchPass_eq_inr {w : Window} {r : Option ℕ × List ℕ}
    (h : searchPass key x w = .inr r) :
    ∀ i ∈ r.2, i ∈ w.reads ∨ w.low ≤ i ∧ i < w.high := by
  by_cases hlt : w.low < w.high
  · rcases lt_trichotomy (key (w.low + (w.high - w.low) / 2)) x with hkey | hkey | hkey
    · exact absurd ((searchPass_of_lt hlt hkey).symm.trans h) Sum.inl_ne_inr
    · obtain rfl := Sum.inr.inj ((searchPass_of_eq hlt hkey).symm.trans h)
      intro i hi
      rcases List.mem_append.mp hi with hi | hi
      · exact .inl hi
      · obtain rfl := List.mem_singleton.mp hi
        exact .inr ⟨Nat.le_add_right _ _, by omega⟩
    · exact absurd ((searchPass_of_gt hlt hkey).symm.trans h) Sum.inl_ne_inr
  · obtain rfl := Sum.inr.inj ((searchPass_of_not_lt hlt).symm.trans h)
    exact fun i hi => .inl hi

/-- The loop ends with the index that `binarySearchLoop` finds. -/
theorem returns_searchPass {fuel low high : ℕ} (hfuel : high - low ≤ fuel) (before : List ℕ) :
    ∃ reads, Returns (searchPass key x) ⟨low, high, before⟩
      (binarySearchLoop key x fuel low high, reads) := by
  fun_induction binarySearchLoop key x fuel low high generalizing before with
  | case1 low high =>
    have hempty : ¬ low < high := by omega
    exact ⟨before, (returns_of_inr (searchPass_of_not_lt hempty)).mpr rfl⟩
  | case2 fuel low high hlt mid heq =>
    exact ⟨_, (returns_of_inr (searchPass_of_eq hlt heq)).mpr rfl⟩
  | case3 fuel low high hlt mid hne hless ih =>
    obtain ⟨reads, hreturns⟩ := ih (by omega) (before ++ [mid])
    exact ⟨reads, (returns_of_inl (searchPass_of_lt hlt hless)).mpr hreturns⟩
  | case4 fuel low high hlt mid hne hless ih =>
    obtain ⟨reads, hreturns⟩ := ih (by omega) (before ++ [mid])
    have hmore : x < key mid := lt_of_le_of_ne (not_lt.mp hless) (Ne.symm hne)
    exact ⟨reads, (returns_of_inl (searchPass_of_gt hlt hmore)).mpr hreturns⟩
  | case5 fuel low high hlt =>
    exact ⟨before, (returns_of_inr (searchPass_of_not_lt hlt)).mpr rfl⟩

/-- The window `w` is a part of the one from `low` to `high`, in which everything was read. -/
structure Window.Inside (low high : ℕ) (w : Window) : Prop where
  low_le : low ≤ w.low
  le_high : w.high ≤ high
  reads : ∀ i ∈ w.reads, low ≤ i ∧ i < high

theorem Window.Inside.searchPass {low high : ℕ} {w w' : Window} (h : w.Inside low high)
    (hpass : searchPass key x w = .inl w') : w'.Inside low high := by
  obtain ⟨mid, hmid, hmid', hread, hlow, hhigh⟩ := searchPass_eq_inl hpass
  refine ⟨h.low_le.trans hlow, hhigh.trans h.le_high, fun i hi => ?_⟩
  rw [hread] at hi
  rcases List.mem_append.mp hi with hi | hi
  · exact h.reads i hi
  · obtain rfl := List.mem_singleton.mp hi
    exact ⟨h.low_le.trans hmid, hmid'.trans_le h.le_high⟩

/-- The loop reads in its window only. -/
theorem Returns.reads_searchPass {low high : ℕ} {r : Option ℕ × List ℕ}
    (h : Returns (searchPass key x) ⟨low, high, []⟩ r) : ∀ i ∈ r.2, low ≤ i ∧ i < high := by
  have hstart : Window.Inside low high ⟨low, high, []⟩ :=
    ⟨Nat.le_refl _, Nat.le_refl _, fun i hi => absurd hi List.not_mem_nil⟩
  obtain ⟨w, hinside, hexit⟩ := h.exists_exit (fun _ _ => Window.Inside.searchPass) hstart
  intro i hi
  rcases searchPass_eq_inr hexit i hi with hi | hi
  · exact hinside.reads i hi
  · exact ⟨hinside.low_le.trans hi.1, hi.2.trans_le hinside.le_high⟩

end LoopCharger.Lib

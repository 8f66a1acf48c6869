import Mathlib.Data.List.Chain
import Mathlib.Data.Nat.Notation

/-!
# Cutting a list into runs

A list is cut, from the left, into runs of neighbours that a relation joins, each as long as the
relation and a limit on its length allow.

## Main definitions

* `runs`: the runs of a list.

## Main results

* `flatten_runs`: the runs, one after the other, are the list.
* `isChain_of_mem_runs`, `length_le_of_mem_runs`: each run is joined, and within the limit.
* `exists_split_of_mem_runs`: a run ends at the limit, or where nothing is joined to it.
-/

namespace LoopCharger.Lib

variable {α : Type*} (joins : α → α → Bool) (limit : ℕ)

/-- The runs of a list whose first run has begun with `run` and `x`. -/
def runsFrom : List α → α → List α → List (List α)
  | run, x, [] => [run ++ [x]]
  | run, x, y :: ys =>
    if joins x y ∧ run.length + 1 < limit then runsFrom (run ++ [x]) y ys
    else (run ++ [x]) :: runsFrom [] y ys

/-- The runs of a list. A limit of zero is one of one. -/
def runs : List α → List (List α)
  | [] => []
  | x :: xs => runsFrom joins limit [] x xs

variable {joins limit}

theorem flatten_runsFrom (run : List α) (x : α) (ys : List α) :
    (runsFrom joins limit run x ys).flatten = run ++ x :: ys := by
  induction ys generalizing run x with
  | nil => simp [runsFrom]
  | cons y ys ih =>
    unfold runsFrom
    split
    · simp [ih]
    · simp [ih]

theorem flatten_runs (xs : List α) : (runs joins limit xs).flatten = xs := by
  cases xs with
  | nil => rfl
  | cons x xs => exact flatten_runsFrom [] x xs

/-- What holds of the run that has begun, and is kept when the run grows, holds of all runs. -/
theorem forall_mem_runsFrom {P : List α → Prop} (single : ∀ x, P [x])
    (grow : ∀ run x y, P (run ++ [x]) → joins x y → run.length + 1 < limit →
      P (run ++ [x] ++ [y]))
    {run : List α} {x : α} (h : P (run ++ [x])) (ys : List α) :
    ∀ r ∈ runsFrom joins limit run x ys, P r := by
  induction ys generalizing run x with
  | nil =>
    intro r hr
    rwa [List.mem_singleton.mp hr]
  | cons y ys ih =>
    unfold runsFrom
    split
    case isTrue hjoin => exact ih (grow run x y h hjoin.1 hjoin.2)
    case isFalse =>
      rintro r (_ | ⟨_, hr⟩)
      · exact h
      · exact ih (single y) r hr

theorem forall_mem_runs {P : List α → Prop} (single : ∀ x, P [x])
    (grow : ∀ run x y, P (run ++ [x]) → joins x y → run.length + 1 < limit →
      P (run ++ [x] ++ [y])) (xs : List α) : ∀ r ∈ runs joins limit xs, P r := by
  cases xs with
  | nil => simp [runs]
  | cons x xs => exact forall_mem_runsFrom single grow (single x) xs

theorem ne_nil_of_mem_runs {xs r : List α} (hr : r ∈ runs joins limit xs) : r ≠ [] :=
  forall_mem_runs (P := (· ≠ [])) (fun x => List.cons_ne_nil x [])
    (fun run x y _ _ _ => by simp) xs r hr

theorem length_le_of_mem_runs {xs r : List α} (hr : r ∈ runs joins limit xs) :
    r.length ≤ max 1 limit := by
  refine forall_mem_runs (P := fun r => r.length ≤ max 1 limit) (fun x => Nat.le_max_left _ _)
    (fun run x y _ _ hlt => ?_) xs r hr
  simp only [List.length_append, List.length_singleton]
  exact Nat.le_trans hlt (Nat.le_max_right _ _)

theorem isChain_of_mem_runs {xs r : List α} (hr : r ∈ runs joins limit xs) :
    r.IsChain fun x y => joins x y := by
  refine forall_mem_runs (P := List.IsChain fun x y => joins x y)
    (fun x => List.isChain_singleton x) (fun run x y h hjoin _ => ?_) xs r hr
  rw [List.isChain_append]
  refine ⟨h, List.isChain_singleton y, fun a ha b hb => ?_⟩
  obtain rfl : x = a := by simpa using ha
  obtain rfl : y = b := by simpa using hb
  exact hjoin

/-! ### Where a run ends -/

/-- The run `r`, with `post` behind it, ends for a reason: the limit, or that what is behind it is
not joined to it. -/
def EndsAt (joins : α → α → Bool) (limit : ℕ) (r post : List α) : Prop :=
  limit ≤ r.length ∨ ∀ x ∈ r.getLast?, ∀ y ∈ post.head?, joins x y = false

theorem exists_split_of_mem_runsFrom {r run : List α} {x : α} {ys : List α}
    (hr : r ∈ runsFrom joins limit run x ys) :
    ∃ pre post, run ++ x :: ys = pre ++ (r ++ post) ∧ EndsAt joins limit r post := by
  induction ys generalizing run x with
  | nil =>
    obtain rfl : r = run ++ [x] := List.mem_singleton.mp hr
    exact ⟨[], [], by simp, .inr fun _ _ _ hy => absurd hy (Option.not_mem_none _)⟩
  | cons y ys ih =>
    unfold runsFrom at hr
    split at hr
    case isTrue hjoin =>
      obtain ⟨pre, post, heq, hend⟩ := ih hr
      exact ⟨pre, post, by rw [← heq, List.append_assoc, List.singleton_append], hend⟩
    case isFalse hcut =>
      rcases List.mem_cons.mp hr with rfl | hr
      · refine ⟨[], y :: ys, by simp, ?_⟩
        -- the run that has begun is cut off
        by_cases hfull : limit ≤ run.length + 1
        · exact .inl (by simpa using hfull)
        · refine .inr fun a ha b hb => ?_
          obtain rfl : x = a := by simpa using ha
          obtain rfl : y = b := by simpa using hb
          exact Bool.eq_false_iff.mpr fun hjoin => hcut ⟨hjoin, Nat.not_le.mp hfull⟩
      · obtain ⟨pre, post, heq, hend⟩ := ih hr
        refine ⟨run ++ x :: pre, post, ?_, hend⟩
        rw [List.append_assoc, List.cons_append, ← heq, List.nil_append]

/-- A run is cut out of the list for a reason. -/
theorem exists_split_of_mem_runs {xs r : List α} (hr : r ∈ runs joins limit xs) :
    ∃ pre post, xs = pre ++ (r ++ post) ∧ EndsAt joins limit r post := by
  cases xs with
  | nil => exact absurd hr List.not_mem_nil
  | cons x xs => exact exists_split_of_mem_runsFrom hr

end LoopCharger.Lib

import Mathlib.Data.Set.Insert
import LoopCharger.Lib.History

/-!
# Resources and their use

Histories in which resources are acquired, used and released. A history respects its resources when
it acquires only what is free, and uses and releases only what it holds: then every acquisition is
followed by at most one release, and nothing happens to a resource outside of the two.

## Main definitions

* `Usage`: what happens to a resource.
* `held`: whether a resource is acquired and not released since.
* `Respects`: the histories that respect their resources.
* `Holding`: the histories that respect their resources and leave a set of them held.

## Main results

* `held_append`, `respects_concat`: the first two, when events are added.
* `Holding.acquire`, `Holding.use`, `Holding.release`: what one event does to the set.
-/

namespace LoopCharger.Lib

/-- What happens to a resource. -/
inductive Usage (R : Type*)
  | acquire (r : R)
  | use (r : R)
  | release (r : R)
  deriving DecidableEq

variable {R : Type*} [DecidableEq R]

/-- Whether `r` is held after an event, given whether it was held before. -/
def Usage.after (r : R) (before : Bool) : Usage R → Bool
  | .acquire r' => if r' = r then true else before
  | .use _ => before
  | .release r' => if r' = r then false else before

/-- Whether `r` is acquired and not released since. -/
def held (r : R) (us : List (Usage R)) : Bool := us.foldl (Usage.after r) false

/-- Only what is free is acquired, only what is held is used or released. -/
def Usage.Allowed (before : List (Usage R)) : Usage R → Prop
  | .acquire r => held r before = false
  | .use r | .release r => held r before = true

/-- Every event of the history is allowed. -/
def Respects : List (Usage R) → Prop := Always Usage.Allowed

variable {us vs : List (Usage R)} {u : Usage R} {r s : R}

@[simp] theorem held_nil (r : R) : held r [] = false := rfl

@[simp] theorem held_append (r : R) (us vs : List (Usage R)) :
    held r (us ++ vs) = vs.foldl (Usage.after r) (held r us) := List.foldl_append

@[simp] theorem respects_nil : Respects ([] : List (Usage R)) := always_nil

theorem respects_concat : Respects (us ++ [u]) ↔ Respects us ∧ u.Allowed us := always_concat

theorem Respects.of_append (h : Respects (us ++ vs)) : Respects us := Always.of_append h

/-- A resource that is acquired and released again leaves what is held as it was. -/
theorem held_acquire_release (h : held r us = false) :
    held s (us ++ [.acquire r, .release r]) = held s us := by
  by_cases hrs : r = s
  · obtain rfl := hrs
    simp [Usage.after, h]
  · simp [Usage.after, hrs]

/-- A release of a resource that is not held. -/
theorem not_respects_release (h : held r us = false) : ¬ Respects (us ++ [.release r]) := by
  intro hus
  have hheld : held r us = true := (respects_concat.mp hus).2
  rw [h] at hheld
  exact Bool.false_ne_true hheld

/-! ### The set of what is held -/

/-- The history respects its resources, and those of the set are held at its end. -/
def Holding (S : Set R) (us : List (Usage R)) : Prop :=
  Respects us ∧ ∀ r, held r us = true ↔ r ∈ S

variable {S : Set R}

theorem holding_nil : Holding (∅ : Set R) [] := ⟨respects_nil, fun r => by simp⟩

theorem Holding.acquire (h : Holding S us) (hr : r ∉ S) :
    Holding (insert r S) (us ++ [.acquire r]) := by
  refine ⟨respects_concat.mpr ⟨h.1, ?_⟩, fun s => ?_⟩
  · exact Bool.eq_false_of_not_eq_true fun hheld => hr ((h.2 r).mp hheld)
  · by_cases hrs : r = s
    · simp [Usage.after, hrs]
    · simp [Usage.after, hrs, h.2 s, Ne.symm hrs]

theorem Holding.use (h : Holding S us) (hr : r ∈ S) : Holding S (us ++ [.use r]) :=
  ⟨respects_concat.mpr ⟨h.1, (h.2 r).mpr hr⟩, fun s => by simp [Usage.after, h.2 s]⟩

theorem Holding.release (h : Holding S us) (hr : r ∈ S) :
    Holding (S \ {r}) (us ++ [.release r]) := by
  refine ⟨respects_concat.mpr ⟨h.1, (h.2 r).mpr hr⟩, fun s => ?_⟩
  by_cases hrs : r = s
  · simp [Usage.after, hrs]
  · simp [Usage.after, hrs, h.2 s, Ne.symm hrs]

/-- Nothing but what is held can be used. -/
theorem Holding.not_respects_use (h : Holding S us) (hr : r ∉ S) : ¬ Respects (us ++ [.use r]) :=
  fun hus => hr ((h.2 r).mp (respects_concat.mp hus).2)

end LoopCharger.Lib

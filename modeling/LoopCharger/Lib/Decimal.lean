import Mathlib.Data.Nat.Digits.Lemmas
import LoopCharger.Lib.Strtoul

/-!
# Decimal numbers

The digits that `snprintf` writes for `%u`, and that `strtoul` reads them back.

## Main definitions

* `decimal`: the digits of a number.

## Main results

* `isConstant_decimal`: the digits of a number are a constant of C with its value.
* `strtoul_decimal`: a number that is written is read back.
-/

namespace LoopCharger.Lib

/-- The digit of a value below ten. -/
def digitChar (d : ℕ) : UInt8 := UInt8.ofNat (48 + d)

/-- `%u`: the digits of a number, the most significant first. -/
def decimal (n : ℕ) : Bytes :=
  if n = 0 then [48] else (Nat.digits 10 n).reverse.map digitChar

theorem digitVal_digitChar {d : ℕ} (h : d < 10) : digitVal (digitChar d) = d := by
  interval_cases d <;> rfl

theorem isDigit_digitChar {d : ℕ} (h : d < 10) : isDigit 10 (digitChar d) = true := by
  rw [isDigit, digitVal_digitChar h]
  exact decide_eq_true h

theorem digitChar_ne_zero {d : ℕ} (h : d < 10) (hne : d ≠ 0) : digitChar d ≠ 48 := by
  intro heq
  have hval := digitVal_digitChar h
  rw [heq] at hval
  exact hne hval.symm

theorem digitsVal_concat (base : ℕ) (ds : Bytes) (c : UInt8) :
    digitsVal base (ds ++ [c]) = digitsVal base ds * base + digitVal c := by
  rw [digitsVal, List.foldl_append]
  rfl

/-- The value of digits that are given with the least significant first. -/
theorem digitsVal_reverse_map {ds : List ℕ} (h : ∀ d ∈ ds, d < 10) :
    digitsVal 10 (ds.reverse.map digitChar) = Nat.ofDigits 10 ds := by
  induction ds with
  | nil => rfl
  | cons d ds ih =>
    have hd := digitVal_digitChar (h d List.mem_cons_self)
    rw [List.reverse_cons, List.map_append, List.map_singleton, digitsVal_concat,
      ih fun e he => h e (List.mem_cons_of_mem d he), hd, Nat.ofDigits_cons]
    exact (Nat.add_comm _ _).trans (congrArg (d + ·) (Nat.mul_comm _ _))

theorem digitsVal_decimal (n : ℕ) : digitsVal 10 (decimal n) = n := by
  unfold decimal
  split_ifs with hn
  · exact hn.symm
  · rw [digitsVal_reverse_map fun d hd => Nat.digits_lt_base (by decide) hd, Nat.ofDigits_digits]

/-- **The digits of a number are a constant with its value.** -/
theorem isConstant_decimal (n : ℕ) : IsConstant (decimal n) n := by
  have hval := digitsVal_decimal n
  by_cases hn : n = 0
  · subst hn
    exact .octal [] (by simp)
  · have hne : Nat.digits 10 n ≠ [] := Nat.digits_ne_nil_iff_ne_zero.mpr hn
    have hdigits : ∀ d ∈ (Nat.digits 10 n).reverse, d < 10 := fun d hd =>
      Nat.digits_lt_base (by decide) (List.mem_reverse.mp hd)
    -- The first digit is the most significant one, which is not zero.
    have hhead : ∀ d ∈ (Nat.digits 10 n).reverse.head?, d ≠ 0 := by
      intro d hd
      rw [List.head?_reverse, List.getLast?_eq_some_getLast hne] at hd
      exact Option.some.inj hd ▸ Nat.getLast_digit_ne_zero 10 hn
    rw [decimal, if_neg hn] at hval ⊢
    generalize (Nat.digits 10 n).reverse = ds at hval hdigits hhead
    cases ds with
    | nil => exact absurd hval.symm hn
    | cons d ds =>
      have hconst := IsConstant.decimal (digitChar d) (ds.map digitChar)
        (digitChar_ne_zero (hdigits d List.mem_cons_self) (hhead d rfl)) (fun c hc => ?_)
      · rw [← List.map_cons, hval] at hconst
        exact hconst
      · rw [← List.map_cons] at hc
        obtain ⟨e, he, rfl⟩ := List.mem_map.mp hc
        exact isDigit_digitChar (hdigits e he)

/-- **A number that is written is read back.** -/
theorem strtoul_decimal {n : ℕ} (h : n ≤ ULONG_MAX) : strtoul (decimal n) = n := by
  have hdenotes : Denotes (decimal n) n := .plain [] (decimal n) n (by simp) (isConstant_decimal n)
  exact Int.ofNat.inj (strtoul_of_denotes hdenotes (Int.natCast_nonneg n)
    (Int.ofNat_le.mpr h))

/-- A number below a power of ten has at most as many digits. -/
theorem length_decimal_le {n k : ℕ} (hk : 0 < k) (h : n < 10 ^ k) : (decimal n).length ≤ k := by
  unfold decimal
  split_ifs
  · exact hk
  · rw [List.length_map, List.length_reverse]
    exact (Nat.digits_length_le_iff (by decide) n).mpr h

/-- What is written are digits. -/
theorem mem_decimal {n : ℕ} {c : UInt8} (h : c ∈ decimal n) : 48 ≤ c ∧ c ≤ 57 := by
  unfold decimal at h
  split_ifs at h
  · rw [List.mem_singleton.mp h]
    decide
  · obtain ⟨d, hd, rfl⟩ := List.mem_map.mp h
    have hlt : d < 10 := Nat.digits_lt_base (by decide) (List.mem_reverse.mp hd)
    interval_cases d <;> decide

end LoopCharger.Lib

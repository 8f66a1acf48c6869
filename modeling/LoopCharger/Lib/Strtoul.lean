import Mathlib.Data.Int.Notation
import Mathlib.Tactic.SplitIfs
import Mathlib.Data.List.TakeWhile
import LoopCharger.Lib.Bytes

/-!
# Numbers in a string

`strtoul` of C, with the base 0: it reads white space, a sign and the longest part that is an
integer constant, and does not look at what follows. Where there is none, it gives 0.

## Main definitions

* `strtoul`: the value that is read, as an `unsigned long` of 64 bits.
* `IsConstant`: the integer constants of C, without a suffix.
* `Denotes`: the strings that are, as a whole, of the form that `strtoul` reads.

## Main results

* `strtoul_of_denotes`: a string that denotes a number of 64 bits is read as it.
* `strtoul_constant`: what is read of a constant of any size.
-/

namespace LoopCharger.Lib

/-! ### The conversion -/

/-- The white space of C. -/
def isCSpace (c : UInt8) : Bool := c == 32 || (9 ≤ c && c ≤ 13)

/-- The value of a digit or a letter. -/
def digitVal (c : UInt8) : ℕ :=
  if 48 ≤ c ∧ c ≤ 57 then c.toNat - 48
  else if 97 ≤ c ∧ c ≤ 122 then c.toNat - 87
  else if 65 ≤ c ∧ c ≤ 90 then c.toNat - 55
  else 255

def isDigit (base : ℕ) (c : UInt8) : Bool := digitVal c < base

/-- The value of a sequence of digits. -/
def digitsVal (base : ℕ) (ds : Bytes) : ℕ := ds.foldl (fun v c => v * base + digitVal c) 0

/-- The sign, and the string behind it: whether it is a minus. -/
def readSign : Bytes → Bool × Bytes
  | [] => (false, [])
  | c :: s => if c = 45 then (true, s) else if c = 43 then (false, s) else (false, c :: s)

/-- Whether a string begins with `0x` and a digit. -/
def hasHexPrefix (s : Bytes) : Bool :=
  s.getD 0 0 == 48 && (s.getD 1 0 == 120 || s.getD 1 0 == 88) && (s.drop 2).head?.any (isDigit 16)

/-- The base that the prefix asks for, and the digits with what follows. -/
def readBase (s : Bytes) : ℕ × Bytes :=
  if hasHexPrefix s then (16, s.drop 2) else if s.head? = some 48 then (8, s) else (10, s)

/-- The largest `unsigned long`, of 64 bits. -/
def ULONG_MAX : ℕ := 18446744073709551615

/-- `strtoul(s, NULL, 0)`. -/
def strtoul (s : Bytes) : ℕ :=
  let (minus, s) := readSign (s.dropWhile isCSpace)
  let (base, s) := readBase s
  let v := digitsVal base (s.takeWhile (isDigit base))
  if v > ULONG_MAX then ULONG_MAX
  else if minus then (ULONG_MAX + 1 - v) % (ULONG_MAX + 1)
  else v

/-! ### The notation -/

/-- The integer constants: a decimal one does not begin with a zero, an octal one does, and a
hexadecimal one begins with `0x`. -/
inductive IsConstant : Bytes → ℕ → Prop
  | decimal (d : UInt8) (ds : Bytes) (hd : d ≠ 48) (hds : ∀ c ∈ d :: ds, isDigit 10 c = true) :
      IsConstant (d :: ds) (digitsVal 10 (d :: ds))
  | octal (ds : Bytes) (hds : ∀ c ∈ ds, isDigit 8 c = true) :
      IsConstant (48 :: ds) (digitsVal 8 (48 :: ds))
  | hex (x d : UInt8) (ds : Bytes) (hx : x = 120 ∨ x = 88)
      (hds : ∀ c ∈ d :: ds, isDigit 16 c = true) :
      IsConstant (48 :: x :: d :: ds) (digitsVal 16 (d :: ds))

/-- The string is, as a whole, white space, a sign or none, and an integer constant. -/
inductive Denotes : Bytes → ℤ → Prop
  | plain (ws body : Bytes) (n : ℕ) (hws : ∀ c ∈ ws, isCSpace c = true) (h : IsConstant body n) :
      Denotes (ws ++ body) n
  | plus (ws body : Bytes) (n : ℕ) (hws : ∀ c ∈ ws, isCSpace c = true) (h : IsConstant body n) :
      Denotes (ws ++ 43 :: body) n
  | minus (ws body : Bytes) (n : ℕ) (hws : ∀ c ∈ ws, isCSpace c = true) (h : IsConstant body n) :
      Denotes (ws ++ 45 :: body) (-n)

/-! ### What is read of a constant -/

variable {body : Bytes} {n : ℕ}

/-- A digit stands behind the white space and the signs. -/
theorem le_of_isDigit {base : ℕ} (hbase : base ≤ 255) {c : UInt8} (h : isDigit base c = true) :
    48 ≤ c.toNat := by
  by_contra hlt
  have hval : digitVal c = 255 := by
    simp only [digitVal, UInt8.le_iff_toNat_le, UInt8.reduceToNat]
    split_ifs <;> omega
  rw [isDigit, hval, decide_eq_true_eq] at h
  omega

theorem isCSpace_eq_false {c : UInt8} (h : 48 ≤ c.toNat) : isCSpace c = false := by
  have hspace : c ≠ 32 := fun heq => absurd (heq ▸ h) (by decide)
  have hle : ¬ c ≤ 13 := by
    simp only [UInt8.le_iff_toNat_le, UInt8.reduceToNat]
    omega
  simp [isCSpace, hspace, hle]

/-- A constant is read to its end, in its base. -/
theorem IsConstant.readBase (h : IsConstant body n) :
    (readBase body).2.takeWhile (isDigit (readBase body).1) = (readBase body).2 ∧
      digitsVal (readBase body).1 (readBase body).2 = n := by
  cases h with
  | decimal d ds hd hds =>
    have hhex : hasHexPrefix (d :: ds) = false := by simp [hasHexPrefix, hd]
    have hbase : Lib.readBase (d :: ds) = (10, d :: ds) := by simp [Lib.readBase, hhex, hd]
    rw [hbase]
    exact ⟨List.takeWhile_eq_self_iff.mpr hds, rfl⟩
  | octal ds hds =>
    have hhex : hasHexPrefix (48 :: ds) = false := by
      cases ds with
      | nil => rfl
      | cons c ds =>
        have hc := hds c List.mem_cons_self
        have hx : c ≠ 120 := fun heq => absurd (heq ▸ hc) (by decide)
        have hX : c ≠ 88 := fun heq => absurd (heq ▸ hc) (by decide)
        simp [hasHexPrefix, hx, hX]
    have hbase : Lib.readBase (48 :: ds) = (8, 48 :: ds) := by simp [Lib.readBase, hhex]
    rw [hbase]
    refine ⟨List.takeWhile_eq_self_iff.mpr fun c hc => ?_, rfl⟩
    rcases List.mem_cons.mp hc with rfl | hc
    · rfl
    · exact hds c hc
  | hex x d ds hx hds =>
    have hhex : hasHexPrefix (48 :: x :: d :: ds) = true := by
      rcases hx with rfl | rfl <;> simp [hasHexPrefix, hds d List.mem_cons_self]
    have hbase : Lib.readBase (48 :: x :: d :: ds) = (16, d :: ds) := by
      simp [Lib.readBase, hhex]
    rw [hbase]
    exact ⟨List.takeWhile_eq_self_iff.mpr hds, rfl⟩

/-- A constant begins with a digit. -/
theorem IsConstant.head (h : IsConstant body n) : ∃ d ds, body = d :: ds ∧ 48 ≤ d.toNat := by
  cases h with
  | decimal d ds hd hds => exact ⟨d, ds, rfl, le_of_isDigit (by decide) (hds d List.mem_cons_self)⟩
  | octal ds hds => exact ⟨48, ds, rfl, by decide⟩
  | hex x d ds hx hds => exact ⟨48, _, rfl, by decide⟩

/-- The empty string denotes nothing. -/
theorem not_denotes_nil (i : ℤ) : ¬ Denotes [] i := by
  generalize hs : ([] : Bytes) = s
  intro h
  cases h with
  | plain ws body n hws h =>
    obtain ⟨d, ds, rfl, -⟩ := h.head
    simp at hs
  | plus ws body n hws h => simp at hs
  | minus ws body n hws h => simp at hs

/-- What is read of a constant behind white space and a sign. -/
theorem strtoul_constant (h : IsConstant body n) {ws sign : Bytes} {minus : Bool}
    (hws : ∀ c ∈ ws, isCSpace c = true)
    (hsign : (sign ++ body).dropWhile isCSpace = sign ++ body ∧
      readSign (sign ++ body) = (minus, body)) :
    strtoul (ws ++ (sign ++ body)) =
      if n > ULONG_MAX then ULONG_MAX
      else if minus then (ULONG_MAX + 1 - n) % (ULONG_MAX + 1)
      else n := by
  obtain ⟨htake, hval⟩ := h.readBase
  rw [strtoul, List.dropWhile_append_of_pos hws, hsign.1, hsign.2]
  simp only [htake, hval]

theorem IsConstant.plain (h : IsConstant body n) :
    body.dropWhile isCSpace = body ∧ readSign body = (false, body) := by
  obtain ⟨d, ds, rfl, hd⟩ := h.head
  have hminus : d ≠ 45 := fun heq => absurd (heq ▸ hd) (by decide)
  have hplus : d ≠ 43 := fun heq => absurd (heq ▸ hd) (by decide)
  exact ⟨List.dropWhile_cons_of_neg (by simp [isCSpace_eq_false hd]), by
    rw [readSign, if_neg hminus, if_neg hplus]⟩

/-- **A string that denotes a number of 64 bits is read as it.** -/
theorem strtoul_of_denotes {s : Bytes} {i : ℤ} (h : Denotes s i) (hpos : 0 ≤ i)
    (hle : i ≤ ULONG_MAX) : (strtoul s : ℤ) = i := by
  cases h with
  | plain ws body n hws h =>
    have hval : strtoul (ws ++ ([] ++ body)) = _ := strtoul_constant h hws h.plain
    rw [List.nil_append] at hval
    rw [hval, if_neg (by omega)]
    simp
  | plus ws body n hws h =>
    have hread : readSign (43 :: body) = (false, body) := rfl
    rw [← List.singleton_append, strtoul_constant h hws ⟨rfl, hread⟩, if_neg (by omega)]
    simp
  | minus ws body n hws h =>
    obtain rfl : n = 0 := by omega
    have hread : readSign (45 :: body) = (true, body) := rfl
    rw [← List.singleton_append, strtoul_constant h hws ⟨rfl, hread⟩]
    rfl

end LoopCharger.Lib

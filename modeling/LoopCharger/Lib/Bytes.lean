import Mathlib.Data.List.Basic
import Mathlib.Data.Nat.Notation

/-!
# Bytes, 16-bit words and byte buffers

Big-endian words, and buffers written at an offset. A buffer is a list of bytes; a write past its
end makes the list longer, so that a buffer that keeps its length was never overrun.

## Main definitions

* `highByte`, `lowByte`, `word`: the two bytes of a word, and the word of two bytes.
* `storeAt`: a buffer after bytes are stored at an offset.

## Main results

* `word_highByte_lowByte`: a word is the word of its two bytes.
* `getD_storeAt_zero`: what is read from a buffer after a store.
* `storeAt_storeAt`: two stores next to each other are one.
-/

namespace LoopCharger.Lib

abbrev Bytes := List UInt8

/-! ### Words -/

def highByte (w : UInt16) : UInt8 := (w >>> 8).toUInt8

def lowByte (w : UInt16) : UInt8 := (w &&& 0xFF).toUInt8

/-- The word with the given high and low bytes. -/
def word (hi lo : UInt8) : UInt16 := (hi.toUInt16 <<< 8) ||| lo.toUInt16

theorem toNat_highByte (w : UInt16) : (highByte w).toNat = w.toNat / 256 := by
  have := w.toNat_lt
  simp only [highByte, UInt16.toNat_toUInt8, UInt16.toNat_shiftRight, UInt16.reduceToNat,
    Nat.reduceMod, Nat.shiftRight_eq_div_pow, Nat.reducePow]
  omega

theorem toNat_lowByte (w : UInt16) : (lowByte w).toNat = w.toNat % 256 := by
  simp only [lowByte, UInt16.toNat_toUInt8, UInt16.toNat_and, UInt16.reduceToNat]
  rw [show 255 = 2 ^ 8 - 1 from rfl, Nat.and_two_pow_sub_one_eq_mod]
  exact Nat.mod_mod _ _

theorem toNat_word (hi lo : UInt8) : (word hi lo).toNat = hi.toNat * 256 + lo.toNat := by
  have hhi := hi.toNat_lt
  have hlo := lo.toNat_lt
  have hshift : hi.toNat <<< 8 % 2 ^ 16 = hi.toNat <<< 8 := by
    rw [Nat.shiftLeft_eq]
    omega
  simp only [word, UInt16.toNat_or, UInt16.toNat_shiftLeft, UInt8.toNat_toUInt16,
    UInt16.reduceToNat, Nat.reduceMod, hshift]
  rw [← Nat.shiftLeft_add_eq_or_of_lt hlo, Nat.shiftLeft_eq]

@[simp] theorem word_highByte_lowByte (w : UInt16) : word (highByte w) (lowByte w) = w := by
  rw [← UInt16.toNat_inj, toNat_word, toNat_highByte, toNat_lowByte]
  omega

/-- The big-endian bytes of a list of words. -/
def wordBytes (ws : List UInt16) : Bytes := ws.flatMap fun w => [highByte w, lowByte w]

@[simp] theorem length_wordBytes (ws : List UInt16) : (wordBytes ws).length = 2 * ws.length := by
  induction ws with
  | nil => rfl
  | cons w ws ih =>
    simp only [wordBytes, List.flatMap_cons, List.length_append, List.length_cons,
      List.length_nil] at ih ⊢
    omega

/-- The word at an index of a list of words, read from the bytes of the list. -/
theorem word_getD_wordBytes (ws : List UInt16) {i : ℕ} (hi : i < ws.length) :
    word ((wordBytes ws).getD (2 * i) 0) ((wordBytes ws).getD (2 * i + 1) 0) = ws[i] := by
  induction ws generalizing i with
  | nil => simp at hi
  | cons w ws ih =>
    cases i with
    | zero => exact word_highByte_lowByte w
    | succ i => exact ih (Nat.lt_of_succ_lt_succ hi)

/-! ### Buffers -/

/-- The buffer after the bytes `bs` are stored from the index `off` on. -/
def storeAt (buf : Bytes) (off : ℕ) (bs : Bytes) : Bytes :=
  buf.take off ++ bs ++ buf.drop (off + bs.length)

@[simp] theorem storeAt_zero (buf bs : Bytes) : storeAt buf 0 bs = bs ++ buf.drop bs.length := by
  simp [storeAt]

/-- A store in the bounds of a buffer does not change its length. -/
theorem length_storeAt {buf bs : Bytes} {off : ℕ} (h : off + bs.length ≤ buf.length) :
    (storeAt buf off bs).length = buf.length := by
  simp only [storeAt, List.length_append, List.length_take, List.length_drop]
  omega

/-- The part of a buffer up to the end of a store. -/
theorem take_storeAt {buf : Bytes} {off : ℕ} (h : off ≤ buf.length) (bs : Bytes) :
    (storeAt buf off bs).take (off + bs.length) = buf.take off ++ bs := by
  refine List.take_left' ?_
  rw [List.length_append, List.length_take, Nat.min_eq_left h]

/-- A store leaves what is before it. -/
theorem take_storeAt_of_le {buf : Bytes} {n off : ℕ} (hn : n ≤ off) (h : off ≤ buf.length)
    (bs : Bytes) : (storeAt buf off bs).take n = buf.take n := by
  rw [storeAt, List.append_assoc, List.take_append_of_le_length, List.take_take,
    Nat.min_eq_left hn]
  rw [List.length_take]
  omega

/-- Two stores next to each other are one. -/
theorem storeAt_storeAt (buf bs cs : Bytes) :
    storeAt (storeAt buf 0 bs) bs.length cs = storeAt buf 0 (bs ++ cs) := by
  simp [storeAt, List.drop_append, List.drop_drop]

/-- Reading a buffer whose first bytes were stored. -/
theorem getD_storeAt_zero (buf bs : Bytes) (i : ℕ) :
    (storeAt buf 0 bs).getD i 0 = if i < bs.length then bs.getD i 0 else buf.getD i 0 := by
  rw [storeAt_zero]
  split
  case isTrue h => simp [List.getD_eq_getElem?_getD, List.getElem?_append_left h]
  case isFalse h =>
    have hle := Nat.le_of_not_lt h
    simp only [List.getD_eq_getElem?_getD, List.getElem?_append_right hle, List.getElem?_drop]
    rw [Nat.add_sub_cancel' hle]

end LoopCharger.Lib

import Mathlib.Data.List.Basic
import Mathlib.Data.Nat.Notation
import Mathlib.Tactic.SplitIfs

/-!
# Lines of a stream

A stream is cut into lines, each with the terminator at its end. A reader keeps the part of a line
that has come so far, and gives it up when it gets as long as the reader's capacity. What the reader
does with a stream does not depend on how the stream is cut into chunks, as long as no chunk is
longer than the room that is left.

## Main definitions

* `splitLines`: the lines that end in a buffer, and what follows the last of them.
* `readChunk`: one chunk read into the buffer, with the long part given up at the end.
* `feed`: the same, one symbol after the other.

## Main results

* `readChunk_eq_feed`: a chunk that fits is read as its symbols one after the other are.
* `feed_append`: two streams, one after the other.
-/

namespace LoopCharger.Lib

variable {α : Type*} [DecidableEq α]

/-- The lines that end in the buffer, and the part behind them; `cur` is what the scan has passed
since the last terminator. -/
def splitLines (nl : α) (cur : List α) : List α → List (List α) × List α
  | [] => ([], cur)
  | b :: bs =>
    if b = nl then
      let r := splitLines nl [] bs
      ((cur ++ [b]) :: r.1, r.2)
    else splitLines nl (cur ++ [b]) bs

/-- The lines that end with the chunk, behind the part `cur` of a line, and the part of a line that
is left. A part of `cap` symbols is given up. -/
def readChunk (nl : α) (cap : ℕ) (cur chunk : List α) : List (List α) × List α :=
  let r := splitLines nl [] (cur ++ chunk)
  (r.1, if r.2.length ≥ cap then [] else r.2)

/-- The lines that end with the stream, one symbol after the other, and the part that is left. -/
def feed (nl : α) (cap : ℕ) (cur : List α) : List α → List (List α) × List α
  | [] => ([], cur)
  | b :: bs =>
    if b = nl then
      let r := feed nl cap [] bs
      ((cur ++ [b]) :: r.1, r.2)
    else if cur.length + 1 ≥ cap then feed nl cap [] bs
    else feed nl cap (cur ++ [b]) bs

variable {nl : α} {cap : ℕ} {cur : List α}

/-- A part without a terminator is passed as a whole. -/
theorem splitLines_append (h : nl ∉ cur) (cur' bs : List α) :
    splitLines nl cur' (cur ++ bs) = splitLines nl (cur' ++ cur) bs := by
  induction cur generalizing cur' with
  | nil => rw [List.nil_append, List.append_nil]
  | cons b cur ih =>
    rw [List.mem_cons, not_or] at h
    obtain ⟨hb, hcur⟩ := h
    rw [List.cons_append, splitLines, if_neg (Ne.symm hb), ih hcur, List.append_assoc]
    rfl

/-- **A chunk is read as its symbols are**, when it fits behind the part that is there. -/
theorem readChunk_eq_feed {chunk : List α} (hnl : nl ∉ cur) (hcur : cur.length < cap)
    (hroom : cur.length + chunk.length ≤ cap) :
    readChunk nl cap cur chunk = feed nl cap cur chunk := by
  have hscan : readChunk nl cap cur chunk =
      ((splitLines nl cur chunk).1,
        if (splitLines nl cur chunk).2.length ≥ cap then [] else (splitLines nl cur chunk).2) := by
    rw [readChunk, splitLines_append hnl, List.nil_append]
  rw [hscan]
  clear hscan hnl
  induction chunk generalizing cur with
  | nil => simp only [splitLines, feed, ge_iff_le, if_neg (Nat.not_le.mpr hcur)]
  | cons b bs ih =>
    rw [List.length_cons] at hroom
    by_cases hb : b = nl
    · have hempty : ([] : List α).length < cap := Nat.zero_lt_of_lt hcur
      have hbs : ([] : List α).length + bs.length ≤ cap := by rw [List.length_nil]; omega
      have hrest := ih hempty hbs
      simp only [splitLines, feed, if_pos hb, ← hrest]
    · simp only [splitLines, feed, if_neg hb]
      by_cases hfull : cur.length + 1 ≥ cap
      · obtain rfl : bs = [] := List.length_eq_zero_iff.mp (by omega)
        have hlen : (cur ++ [b]).length ≥ cap := by simpa using hfull
        rw [if_pos hfull]
        exact congrArg (Prod.mk []) (if_pos hlen)
      · rw [if_neg hfull]
        have hlen : (cur ++ [b]).length = cur.length + 1 := by simp
        exact ih (by omega) (by omega)

theorem feed_append (as bs : List α) :
    feed nl cap cur (as ++ bs) =
      ((feed nl cap cur as).1 ++ (feed nl cap (feed nl cap cur as).2 bs).1,
        (feed nl cap (feed nl cap cur as).2 bs).2) := by
  induction as generalizing cur with
  | nil => rfl
  | cons a as ih =>
    simp only [List.cons_append, feed]
    split_ifs
    · rw [ih]
      rfl
    · exact ih
    · exact ih

/-- What is left has no terminator, and is shorter than the capacity. -/
theorem feed_rest (hnl : nl ∉ cur) (hcur : cur.length < cap) (bs : List α) :
    nl ∉ (feed nl cap cur bs).2 ∧ (feed nl cap cur bs).2.length < cap := by
  induction bs generalizing cur with
  | nil => exact ⟨hnl, hcur⟩
  | cons b bs ih =>
    simp only [feed]
    split_ifs with hb hfull
    · exact ih List.not_mem_nil (Nat.zero_lt_of_lt hcur)
    · exact ih List.not_mem_nil (Nat.zero_lt_of_lt hcur)
    · refine ih ?_ ?_
      · rw [List.mem_append, List.mem_singleton, not_or]
        exact ⟨hnl, Ne.symm hb⟩
      · rw [List.length_append, List.length_singleton]
        exact Nat.not_le.mp hfull

/-- A line ends with the terminator, and has no other. -/
theorem mem_feed_lines (hnl : nl ∉ cur) {bs l : List α} (hl : l ∈ (feed nl cap cur bs).1) :
    ∃ l', l = l' ++ [nl] ∧ nl ∉ l' := by
  induction bs generalizing cur with
  | nil => exact absurd hl List.not_mem_nil
  | cons b bs ih =>
    rw [feed] at hl
    split_ifs at hl with hb hfull
    · rcases List.mem_cons.mp hl with rfl | hl
      · exact ⟨cur, by rw [hb], hnl⟩
      · exact ih List.not_mem_nil hl
    · exact ih List.not_mem_nil hl
    · refine ih ?_ hl
      rw [List.mem_append, List.mem_singleton, not_or]
      exact ⟨hnl, Ne.symm hb⟩

/-- A stream without a terminator has no line. -/
theorem feed_lines_of_notMem {bs : List α} (hbs : nl ∉ bs) : (feed nl cap cur bs).1 = [] := by
  induction bs generalizing cur with
  | nil => rfl
  | cons b bs ih =>
    rw [List.mem_cons, not_or] at hbs
    rw [feed, if_neg (Ne.symm hbs.1)]
    split_ifs
    · exact ih hbs.2
    · exact ih hbs.2

/-- A line that is shorter than the capacity is read as it is. -/
theorem feed_line {l : List α} (hnl : nl ∉ l) (hlen : l.length < cap) (bs : List α) :
    feed nl cap [] (l ++ nl :: bs) =
      ((l ++ [nl]) :: (feed nl cap [] bs).1, (feed nl cap [] bs).2) := by
  have hpart : ∀ cur l : List α, nl ∉ l → (cur ++ l).length < cap →
      feed nl cap cur (l ++ nl :: bs) =
        ((cur ++ l ++ [nl]) :: (feed nl cap [] bs).1, (feed nl cap [] bs).2) := by
    intro cur l hnl hlen
    induction l generalizing cur with
    | nil => simp [feed]
    | cons b l ih =>
      rw [List.mem_cons, not_or] at hnl
      obtain ⟨hb, hl⟩ := hnl
      have hroom : ¬ cur.length + 1 ≥ cap := by
        simp only [List.length_append, List.length_cons] at hlen
        omega
      rw [List.cons_append, feed, if_neg (Ne.symm hb), if_neg hroom, ih _ hl (by simpa using hlen)]
      simp
  exact hpart [] l hnl hlen

end LoopCharger.Lib

import Mathlib.Data.List.Basic
import Mathlib.Data.Nat.Notation

/-!
# Streams of self-delimiting frames

A stream is the concatenation of a list of frames. When no frame is a proper start of another, a
reader that stands between two frames and reads a frame reads the next one of the list.

## Main definitions

* `PrefixFree`: a set of frames in which a stream starts with at most one frame.
* `offset`: the place in a stream where its `m`-th frame starts.

## Main results

* `offset_lt_offset`, `offset_append`: places are in order, and more frames do not move them.
* `PrefixFree.frame_of_offset`: a frame read at the place of the `m`-th frame is the `m`-th frame.
-/

namespace LoopCharger.Lib

variable {α : Type*}

/-- A stream starts with at most one of the frames. -/
def PrefixFree (P : List α → Prop) : Prop :=
  ∀ ⦃f g r r' : List α⦄, P f → P g → f ++ r = g ++ r' → f = g ∧ r = r'

/-- The place of the `m`-th frame in the stream. -/
def offset (fs : List (List α)) (m : ℕ) : ℕ := (fs.take m).flatten.length

theorem offset_length (fs : List (List α)) : offset fs fs.length = fs.flatten.length := by
  rw [offset, List.take_length]

theorem offset_of_length_le {fs : List (List α)} {m : ℕ} (h : fs.length ≤ m) :
    offset fs m = fs.flatten.length := by
  rw [offset, List.take_of_length_le h]

/-- Frames that come later do not move a place. -/
theorem offset_append {fs : List (List α)} (gs : List (List α)) {m : ℕ} (h : m ≤ fs.length) :
    offset (fs ++ gs) m = offset fs m := by
  rw [offset, List.take_append_of_le_length h, offset]

theorem offset_succ {fs : List (List α)} {m : ℕ} {f : List α} (h : fs[m]? = some f) :
    offset fs (m + 1) = offset fs m + f.length := by
  simp only [offset, List.take_add_one, h, Option.toList_some, List.flatten_append,
    List.flatten_cons, List.flatten_nil, List.append_nil, List.length_append]

/-- Behind the place of the `m`-th frame are the `m`-th frame and the ones after it. -/
theorem drop_offset (fs : List (List α)) (m : ℕ) :
    fs.flatten.drop (offset fs m) = (fs.drop m).flatten := by
  have hsplit : fs.flatten = (fs.take m).flatten ++ (fs.drop m).flatten := by
    rw [← List.flatten_append, List.take_append_drop]
  rw [hsplit, offset, List.drop_left]

theorem drop_offset_of_getElem? {fs : List (List α)} {m : ℕ} {f : List α} (h : fs[m]? = some f) :
    fs.flatten.drop (offset fs m) = f ++ (fs.drop (m + 1)).flatten := by
  obtain ⟨hm, rfl⟩ := List.getElem?_eq_some_iff.mp h
  rw [drop_offset, List.drop_eq_getElem_cons hm, List.flatten_cons]

/-- The places of frames that are not empty are in order. -/
theorem offset_lt_offset {fs : List (List α)} (hfs : ∀ f ∈ fs, f ≠ []) {m k : ℕ} (hmk : m < k)
    (hk : k ≤ fs.length) : offset fs m < offset fs k := by
  have hstep : ∀ i < fs.length, offset fs i < offset fs (i + 1) := fun i hi => by
    have hget := List.getElem?_eq_getElem hi
    have hpos := List.length_pos_of_ne_nil (hfs _ (List.getElem_mem hi))
    rw [offset_succ hget]
    omega
  induction k with
  | zero => omega
  | succ k ih =>
    have hlast := hstep k hk
    rcases Nat.lt_succ_iff_lt_or_eq.mp hmk with h | rfl
    · exact Nat.lt_trans (ih h (Nat.le_of_succ_le hk)) hlast
    · exact hlast

/-- **A frame read between two frames is the next frame.** -/
theorem PrefixFree.frame_of_offset {P : List α → Prop} (hP : PrefixFree P) {fs : List (List α)}
    (hfs : ∀ f ∈ fs, P f) {m : ℕ} {g rest : List α} (hg : P g) (hne : g ≠ [])
    (h : fs.flatten.drop (offset fs m) = g ++ rest) : fs[m]? = some g := by
  rw [drop_offset] at h
  rcases hdrop : fs.drop m with _ | ⟨f, fs'⟩
  · rw [hdrop, List.flatten_nil] at h
    exact absurd (List.append_eq_nil_iff.mp h.symm).1 hne
  · have hget : fs[m]? = some f := by
      rw [← List.head?_drop, hdrop, List.head?_cons]
    have hmem : f ∈ fs := List.mem_of_getElem? hget
    rw [hdrop, List.flatten_cons] at h
    rw [hget, (hP (hfs f hmem) hg h).1]

end LoopCharger.Lib

import Mathlib.Data.Set.Defs
import Mathlib.Logic.Function.Basic
import Mathlib.Data.List.Induction

/-!
# Maps in slots

A memory of slots that stands for a map. The keys have their places in it, a key without a place is
not in the map, and no two keys have the same place. Whatever is written, and in whatever order, a
key that has a place then reads as the last value written for it.

## Main definitions

* `readKey`, `writeKey`: the operations of the map.
* `InjectivePlace`: keys of a set have places of their own.
* `lastWrite`: the last value written for a key.

## Main results

* `readKey_foldl_writeKey`: what is read after a list of writes.
-/

namespace LoopCharger.Lib

variable {κ ι α : Type*} (place : κ → Option ι)

/-- Read a key; `none` if it has no place. -/
def readKey (mem : ι → α) (k : κ) : Option α := (place k).map mem

/-- Write the value of a key, if it has a place. -/
def writeKey [DecidableEq ι] (mem : ι → α) (w : κ × α) : ι → α :=
  (place w.1).elim mem fun i => Function.update mem i w.2

/-- No two keys of the set have the same place. -/
def InjectivePlace (keys : Set κ) : Prop :=
  ∀ k ∈ keys, ∀ k' ∈ keys, ∀ i, place k = some i → place k' = some i → k = k'

/-- The last value written for a key. -/
def lastWrite [DecidableEq κ] (ws : List (κ × α)) (k : κ) : Option α :=
  ((ws.filter fun w => w.1 = k).getLast?).map Prod.snd

section LastWrite

variable [DecidableEq κ]

theorem lastWrite_concat (ws : List (κ × α)) (w : κ × α) (k : κ) :
    lastWrite (ws ++ [w]) k = if w.1 = k then some w.2 else lastWrite ws k := by
  rw [lastWrite, List.filter_append]
  split_ifs with h
  · rw [List.filter_cons_of_pos (by simpa using h), List.filter_nil, List.getLast?_concat,
      Option.map_some]
  · rw [List.filter_cons_of_neg (by simpa using h), List.filter_nil, List.append_nil, lastWrite]

theorem lastWrite_eq_none {ws : List (κ × α)} {k : κ} (h : ∀ w ∈ ws, w.1 ≠ k) :
    lastWrite ws k = none := by
  rw [lastWrite, List.filter_eq_nil_iff.mpr fun w hw => by simpa using h w hw]
  rfl

end LastWrite

variable {place} [DecidableEq ι] [DecidableEq κ] {keys : Set κ}

/-- What is read after one write. -/
theorem readKey_writeKey (h : InjectivePlace place keys) (mem : ι → α) {w : κ × α} {k : κ}
    (hw : w.1 ∈ keys) (hk : k ∈ keys) :
    readKey place (writeKey place mem w) k =
      (readKey place mem k).map fun v => if w.1 = k then w.2 else v := by
  rcases hplace : place k with _ | i
  · simp only [readKey, hplace, Option.map_none]
  simp only [readKey, hplace, Option.map_some, Option.some.injEq]
  split_ifs with heq
  · rw [writeKey, heq, hplace, Option.elim_some, Function.update_self]
  · rcases hother : place w.1 with _ | j
    · rw [writeKey, hother, Option.elim_none]
    · have hne : i ≠ j := fun hij => heq (h _ hw _ hk i (hij ▸ hother) hplace)
      rw [writeKey, hother, Option.elim_some, Function.update_of_ne hne]

/-- **What is read after a list of writes**: the last value written for the key, or the value it
had. -/
theorem readKey_foldl_writeKey (h : InjectivePlace place keys) (mem : ι → α) (ws : List (κ × α))
    (hws : ∀ w ∈ ws, w.1 ∈ keys) {k : κ} (hk : k ∈ keys) :
    readKey place (ws.foldl (writeKey place) mem) k =
      (readKey place mem k).map fun v => (lastWrite ws k).getD v := by
  induction ws using List.reverseRecOn with
  | nil => simp [lastWrite]
  | append_singleton ws w ih =>
    rw [List.foldl_append, List.foldl_cons, List.foldl_nil,
      readKey_writeKey h _ (hws w (by simp)) hk,
      ih fun w hw => hws w (List.mem_append_left _ hw), Option.map_map, lastWrite_concat]
    refine congrArg (Option.map · _) (funext fun v => ?_)
    rw [Function.comp_apply]
    split_ifs <;> rfl

end LoopCharger.Lib

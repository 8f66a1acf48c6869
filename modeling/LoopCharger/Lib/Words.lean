import Mathlib.Data.List.DropRight
import Mathlib.Data.Nat.Notation

/-!
# Words of a text

A text is cut into words at delimiters, as `strtok` does: the delimiters before a word are passed
over, and one delimiter behind it is taken off.

## Main definitions

* `strtok`: the next word, and the text behind it.
* `tokens`: the words of a text, with the same delimiters for each.
* `cutWords`: what is left of the words when the text is cut off.

## Main results

* `tokens_eq_pieces`: the words are the pieces between delimiters that are not empty.
* `tokens_word_cons`: the words of a text that begins with a word.
* `tokens_take_intercalate`: the words of a text that is cut off are those of `cutWords`.
-/

namespace LoopCharger.Lib

variable {α : Type*} (delim : α → Bool)

/-- The next word of the text, and the text behind the delimiter that ends it. -/
def strtok (s : List α) : Option (List α × List α) :=
  match s.dropWhile delim with
  | [] => none
  | b :: bs =>
    some ((b :: bs).takeWhile (fun x => !delim x), ((b :: bs).dropWhile fun x => !delim x).tail)

/-- At most `n` words of the text. -/
def tokensUpTo : ℕ → List α → List (List α)
  | 0, _ => []
  | n + 1, s =>
    match strtok delim s with
    | none => []
    | some (t, rest) => t :: tokensUpTo n rest

/-- The words of the text. -/
def tokens (s : List α) : List (List α) := tokensUpTo delim s.length s

/-- A word: not empty, and without a delimiter. -/
def IsToken (w : List α) : Prop := w ≠ [] ∧ ∀ b ∈ w, delim b = false

variable {delim} {w s : List α} {sep : α}

/-! ### The next word -/

/-- A text without a delimiter before it, cut at its first delimiter. -/
theorem strtok_word_append (hw : IsToken delim w) (hs : ∀ b ∈ s.head?, delim b = true) :
    strtok delim (w ++ s) = some (w, s.tail) := by
  obtain ⟨hne, hfree⟩ := hw
  obtain ⟨b, w, rfl⟩ := List.exists_cons_of_ne_nil hne
  have hb : delim b = false := hfree b List.mem_cons_self
  have hdrop : (b :: w ++ s).dropWhile delim = b :: (w ++ s) := by
    rw [List.cons_append, List.dropWhile_cons_of_neg (by simp [hb])]
  have hnot : ∀ x ∈ b :: w, (!delim x) = true := fun x hx => by simp [hfree x hx]
  have htake : (b :: (w ++ s)).takeWhile (fun x => !delim x) = b :: w := by
    rw [← List.cons_append, List.takeWhile_append_of_pos hnot]
    cases s with
    | nil => simp
    | cons c s => simp [hs c rfl]
  have hrest : (b :: (w ++ s)).dropWhile (fun x => !delim x) = s := by
    rw [← List.cons_append, List.dropWhile_append_of_pos hnot]
    cases s with
    | nil => rfl
    | cons c s => simp [hs c rfl]
  rw [strtok, hdrop]
  dsimp only
  rw [htake, hrest]

theorem strtok_word (hw : IsToken delim w) : strtok delim w = some (w, []) := by
  simpa using strtok_word_append (s := []) hw (by simp)

theorem strtok_word_cons (hw : IsToken delim w) (hsep : delim sep = true) (s : List α) :
    strtok delim (w ++ sep :: s) = some (w, s) :=
  strtok_word_append hw (by simpa using hsep)

/-- Delimiters before a word are passed over. -/
theorem strtok_dropWhile (s : List α) : strtok delim (s.dropWhile delim) = strtok delim s := by
  rw [strtok, strtok, List.dropWhile_idempotent]

/-- A text that does not begin with a delimiter begins with a word. -/
theorem exists_word {b : α} (hb : delim b = false) (s : List α) :
    ∃ w, IsToken delim w ∧
      (b :: s = w ∨ ∃ sep rest, delim sep = true ∧ b :: s = w ++ sep :: rest) := by
  have happ := List.takeWhile_append_dropWhile (p := fun x => !delim x) (l := b :: s)
  refine ⟨(b :: s).takeWhile fun x => !delim x, ⟨by simp [hb], fun x hx => ?_⟩, ?_⟩
  · simpa using List.mem_takeWhile_imp hx
  · cases hrest : (b :: s).dropWhile fun x => !delim x with
    | nil =>
      rw [hrest, List.append_nil] at happ
      exact .inl happ.symm
    | cons sep rest =>
      have hsep : ¬ (!delim sep) = true := by
        have hhead := List.head_dropWhile_not (fun x => !delim x) (l := b :: s) (by simp [hrest])
        simpa only [hrest, List.head_cons, Bool.not_eq_true] using hhead
      rw [hrest] at happ
      exact .inr ⟨sep, rest, by simpa using hsep, happ.symm⟩

/-! ### All words -/

/-- The pieces between delimiters that are not empty. -/
def pieces (delim : α → Bool) (s : List α) : List (List α) :=
  (s.splitOnP delim).filter fun w => !w.isEmpty

theorem pieces_word (hw : IsToken delim w) : pieces delim w = [w] := by
  rw [pieces, List.splitOnP_eq_singleton hw.2]
  simp [hw.1]

theorem pieces_append_sep (hsep : delim sep = true) (s t : List α) :
    pieces delim (s ++ sep :: t) = pieces delim s ++ pieces delim t := by
  rw [pieces, List.splitOnP_append_cons _ _ hsep, List.filter_append]
  rfl

theorem pieces_nil : pieces delim [] = [] := by simp [pieces]

theorem pieces_dropWhile (s : List α) : pieces delim (s.dropWhile delim) = pieces delim s := by
  induction s with
  | nil => rfl
  | cons b s ih =>
    by_cases hb : delim b = true
    · rw [List.dropWhile_cons_of_pos hb, ih, ← List.nil_append (b :: s), pieces_append_sep hb,
        pieces_nil, List.nil_append]
    · rw [List.dropWhile_cons_of_neg hb]

theorem tokensUpTo_eq {n : ℕ} (hn : s.length ≤ n) : tokensUpTo delim n s = pieces delim s := by
  induction n generalizing s with
  | zero => rw [List.length_eq_zero_iff.mp (Nat.le_zero.mp hn), tokensUpTo, pieces_nil]
  | succ n ih =>
    rw [tokensUpTo, ← strtok_dropWhile, ← pieces_dropWhile]
    have hle : (s.dropWhile delim).length ≤ n + 1 :=
      Nat.le_trans (List.dropWhile_sublist delim).length_le hn
    cases hdrop : s.dropWhile delim with
    | nil => rw [pieces_nil]; rfl
    | cons b bs =>
      have hb : delim b = false := by
        have hhead := List.head_dropWhile_not delim (l := s) (by simp [hdrop])
        simpa only [hdrop, List.head_cons, Bool.not_eq_true] using hhead
      rw [hdrop] at hle
      obtain ⟨w, hw, hrest⟩ := exists_word hb bs
      have hlen : 0 < w.length := List.length_pos_iff.mpr hw.1
      rcases hrest with heq | ⟨sep, rest, hsep, heq⟩
      · rw [heq, strtok_word hw, pieces_word hw]
        dsimp only
        rw [ih (by simp), pieces_nil]
      · rw [heq, List.length_append, List.length_cons] at hle
        rw [heq, strtok_word_cons hw hsep, pieces_append_sep hsep, pieces_word hw]
        dsimp only
        rw [ih (by omega), List.singleton_append]

/-- **The words of a text** are the pieces between delimiters that are not empty. -/
theorem tokens_eq_pieces (s : List α) : tokens delim s = pieces delim s :=
  tokensUpTo_eq (Nat.le_refl _)

@[simp] theorem tokens_nil : tokens delim [] = [] := rfl

theorem tokens_word (hw : IsToken delim w) : tokens delim w = [w] := by
  rw [tokens_eq_pieces, pieces_word hw]

theorem tokens_append_sep (hsep : delim sep = true) (s t : List α) :
    tokens delim (s ++ sep :: t) = tokens delim s ++ tokens delim t := by
  rw [tokens_eq_pieces, tokens_eq_pieces, tokens_eq_pieces, pieces_append_sep hsep]

theorem tokens_word_cons (hw : IsToken delim w) (hsep : delim sep = true) (s : List α) :
    tokens delim (w ++ sep :: s) = w :: tokens delim s := by
  rw [tokens_append_sep hsep, tokens_word hw, List.singleton_append]

/-- Every symbol of the next word is one of the text, and so is what follows. -/
theorem subset_of_strtok {t rest : List α} (h : strtok delim s = some (t, rest)) :
    t ⊆ s ∧ rest ⊆ s := by
  rw [strtok] at h
  cases hdrop : s.dropWhile delim with
  | nil => simp [hdrop] at h
  | cons b bs =>
    rw [hdrop] at h
    obtain ⟨rfl, rfl⟩ := Prod.mk.inj (Option.some.inj h)
    have hsub : b :: bs ⊆ s := hdrop ▸ (List.dropWhile_sublist delim).subset
    exact ⟨fun x hx => hsub ((List.takeWhile_sublist _).subset hx),
      fun x hx => hsub ((List.dropWhile_sublist _).subset (List.mem_of_mem_tail hx))⟩

theorem subset_of_mem_tokens (hw : w ∈ tokens delim s) : w ⊆ s := by
  have hupTo : ∀ (n : ℕ) (s : List α), w ∈ tokensUpTo delim n s → w ⊆ s := by
    intro n
    induction n with
    | zero => exact fun s hw => absurd hw List.not_mem_nil
    | succ n ih =>
      intro s hw
      rw [tokensUpTo] at hw
      cases hnext : strtok delim s with
      | none => simp [hnext] at hw
      | some r =>
        obtain ⟨ht, hrest⟩ := subset_of_strtok hnext
        rw [hnext] at hw
        rcases List.mem_cons.mp hw with rfl | hw
        · exact ht
        · exact fun x hx => hrest (ih r.2 hw hx)
  exact hupTo s.length s hw

/-! ### The words of a text that is cut off -/

/-- One more word at the end of a text of words. -/
theorem intercalate_concat (sep : List α) {ws : List (List α)} (hne : ws ≠ []) (w : List α) :
    sep.intercalate (ws ++ [w]) = sep.intercalate ws ++ sep ++ w := by
  induction ws with
  | nil => exact absurd rfl hne
  | cons v ws ih =>
    cases ws with
    | nil => simp
    | cons u ws =>
      rw [List.cons_append, List.intercalate_cons_of_ne_nil (by simp), ih (List.cons_ne_nil u ws),
        List.intercalate_cons_cons]
      simp only [List.append_assoc]

/-- What is left of a text of words, one delimiter between any two, when it is cut off behind `n`
symbols: the words before the cut, and what is left of the word that the cut goes through. -/
def cutWords : ℕ → List (List α) → List (List α)
  | _, [] => []
  | 0, _ => []
  | n + 1, w :: ws => if n < w.length then [w.take (n + 1)] else w :: cutWords (n - w.length) ws

@[simp] theorem cutWords_zero (ws : List (List α)) : cutWords 0 ws = [] := by cases ws <;> rfl

@[simp] theorem cutWords_nil (n : ℕ) : cutWords n ([] : List (List α)) = [] := by cases n <;> rfl

theorem cutWords_singleton (w : List α) {n : ℕ} (hn : n ≠ 0) : cutWords n [w] = [w.take n] := by
  obtain ⟨m, rfl⟩ := Nat.exists_eq_succ_of_ne_zero hn
  rw [cutWords]
  split_ifs with hcut
  · rfl
  · rw [cutWords_nil, List.take_of_length_le (by omega)]

/-- When the cut goes through the first word, there is nothing behind it. -/
theorem cutWords_cons_of_le {n : ℕ} (hn : n ≤ w.length) (ws : List (List α)) :
    cutWords n (w :: ws) = cutWords n [w] := by
  cases n with
  | zero => rw [cutWords_zero, cutWords_zero]
  | succ n =>
    have hlt : n < w.length := hn
    rw [cutWords, cutWords, if_pos hlt, if_pos hlt]

/-- When the first word ends before the cut, it is left as it is. -/
theorem cutWords_cons (hw : w ≠ []) {n : ℕ} (hn : w.length ≤ n) (ws : List (List α)) :
    cutWords n (w :: ws) = w :: cutWords (n - w.length - 1) ws := by
  have hpos : 0 < w.length := List.length_pos_iff.mpr hw
  obtain ⟨m, rfl⟩ : ∃ m, n = m + 1 := ⟨n - 1, by omega⟩
  rw [cutWords]
  split_ifs with hcut
  · have hlen : m + 1 - w.length - 1 = 0 := by omega
    rw [List.take_of_length_le (by omega), hlen, cutWords_zero]
  · have hlen : m + 1 - w.length - 1 = m - w.length := by omega
    rw [hlen]

theorem IsToken.take (hw : IsToken delim w) {n : ℕ} (hn : n ≠ 0) : IsToken delim (w.take n) := by
  refine ⟨fun h => ?_, fun b hb => hw.2 b (List.mem_of_mem_take hb)⟩
  rcases List.take_eq_nil_iff.mp h with hzero | hnil
  · exact hn hzero
  · exact hw.1 hnil

/-- **The words of a text that is cut off.** -/
theorem tokens_take_intercalate (hsep : delim sep = true) {ws : List (List α)}
    (hws : ∀ w ∈ ws, IsToken delim w) (n : ℕ) :
    tokens delim (([sep].intercalate ws).take n) = cutWords n ws := by
  induction ws generalizing n with
  | nil => simp
  | cons w ws ih =>
    have hw := hws w List.mem_cons_self
    have hrest := ih fun v hv => hws v (List.mem_cons_of_mem w hv)
    cases n with
    | zero => simp
    | succ n =>
      rw [cutWords]
      by_cases hcut : n < w.length
      · obtain ⟨t, ht⟩ : ∃ t, [sep].intercalate (w :: ws) = w ++ t := by
          cases ws with
          | nil => exact ⟨[], by simp⟩
          | cons v ws => exact ⟨sep :: [sep].intercalate (v :: ws), by simp⟩
        rw [if_pos hcut, ht, List.take_append_of_le_length hcut,
          tokens_word (hw.take (Nat.succ_ne_zero n))]
      · rw [if_neg hcut]
        have hle : w.length ≤ n := Nat.not_lt.mp hcut
        cases ws with
        | nil =>
          rw [List.intercalate_singleton, List.take_of_length_le (by omega), tokens_word hw,
            cutWords_nil]
        | cons v ws =>
          have hlen : n + 1 - w.length = (n - w.length) + 1 := by omega
          rw [List.intercalate_cons_cons, List.append_assoc, List.singleton_append,
            List.take_append, List.take_of_length_le (by omega), hlen, List.take_succ_cons,
            tokens_word_cons hw hsep, hrest]

/-- Words that end before the cut are left as they are. -/
theorem cutWords_append (sep : α) {pre : List (List α)} (hne : pre ≠ []) (hpre : ∀ w ∈ pre, w ≠ [])
    {n : ℕ} (hn : ([sep].intercalate pre).length ≤ n) (suf : List (List α)) :
    cutWords n (pre ++ suf) = pre ++ cutWords (n - ([sep].intercalate pre).length - 1) suf := by
  induction pre generalizing n with
  | nil => exact absurd rfl hne
  | cons w pre ih =>
    have hw : w ≠ [] := hpre w List.mem_cons_self
    cases pre with
    | nil =>
      rw [List.intercalate_singleton] at hn ⊢
      exact cutWords_cons hw hn suf
    | cons v pre =>
      simp only [List.intercalate_cons_cons, List.length_append, List.length_singleton] at hn ⊢
      have hrest := ih (List.cons_ne_nil v pre) (fun u hu => hpre u (List.mem_cons_of_mem w hu))
        (n := n - w.length - 1) (by omega)
      have hroom : n - w.length - 1 - ([sep].intercalate (v :: pre)).length - 1 =
          n - (w.length + 1 + ([sep].intercalate (v :: pre)).length) - 1 := by omega
      rw [List.cons_append, cutWords_cons hw (by omega), hrest, hroom]
      rfl

/-- When the cut goes before the end of the word `k`, what is left is words before it, and a part
of a word up to it. -/
theorem mem_cutWords_of_lt (sep : α) {pre suf : List (List α)} {k t : List α} {n : ℕ}
    (hn : n < ([sep].intercalate (pre ++ [k])).length) (ht : t ∈ cutWords n (pre ++ k :: suf)) :
    t ∈ pre ∨ ∃ w ∈ pre ++ [k], t <+: w ∧ t.length < w.length := by
  induction pre generalizing n with
  | nil =>
    rw [List.nil_append, List.intercalate_singleton] at hn
    cases n with
    | zero => simp at ht
    | succ n =>
      rw [List.nil_append, cutWords, if_pos (Nat.lt_of_succ_lt hn), List.mem_singleton] at ht
      obtain rfl := ht
      exact .inr ⟨k, by simp, List.take_prefix _ _, by rw [List.length_take]; omega⟩
  | cons w pre ih =>
    cases n with
    | zero => simp at ht
    | succ n =>
      rw [List.cons_append, cutWords] at ht
      split_ifs at ht with hcut
      · obtain rfl := List.mem_singleton.mp ht
        by_cases hall : n + 1 = w.length
        · rw [hall, List.take_length]
          exact .inl List.mem_cons_self
        · exact .inr ⟨w, by simp, List.take_prefix _ _, by rw [List.length_take]; omega⟩
      · rcases List.mem_cons.mp ht with rfl | ht
        · exact .inl List.mem_cons_self
        · have hlt : n - w.length < ([sep].intercalate (pre ++ [k])).length := by
            rw [List.cons_append, List.intercalate_cons_of_ne_nil (by simp)] at hn
            simp only [List.length_append, List.length_singleton] at hn
            omega
          rcases ih hlt ht with hpre | ⟨v, hv, hpart⟩
          · exact .inl (List.mem_cons_of_mem w hpre)
          · exact .inr ⟨v, List.mem_cons_of_mem w hv, hpart⟩

end LoopCharger.Lib

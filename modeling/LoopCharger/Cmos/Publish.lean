import Mathlib.Data.List.TakeWhile
import LoopCharger.Lib.Bytes
import LoopCharger.Lib.Words

/-!
# What a publisher sends

Strings of C, and `cmos_publish` of `cmos_pub.c` up to its sends: the fields of a message are put
into `data` one after the other, and the line for the subscribers is made of the topic and `data`.

## Main definitions

* `CStr`: a string in an array of a given size.
* `encodeData`: the string in `data`, if every write stays in the array.
* `cmosPublish`: the line that is sent.

## Main results

* `encodeData_eq`: the string of a message with a key and a value, and when there is none.
-/

namespace LoopCharger.Cmos

open Lib

/-! ### Strings -/

/-- The bytes of a text in ASCII. -/
def ascii (s : String) : Bytes := s.toList.map fun c => UInt8.ofNat c.toNat

def space : UInt8 := 32

def newline : UInt8 := 10

def carriageReturn : UInt8 := 13

/-- The string in a buffer: what stands before the first NUL. -/
def cString (buf : Bytes) : Bytes := buf.takeWhile (· ≠ 0)

theorem cString_cons (b : UInt8) (s : Bytes) :
    cString (b :: s) = if b = 0 then [] else b :: cString s := by
  simp [cString, List.takeWhile_cons, ite_not]

theorem zero_notMem_cString (buf : Bytes) : 0 ∉ cString buf := fun h => by
  simpa using List.mem_takeWhile_imp h

theorem cString_of_notMem {s : Bytes} (h : 0 ∉ s) : cString s = s :=
  List.takeWhile_eq_self_iff.mpr fun b hb => by simpa using ne_of_mem_of_not_mem hb h

/-- What stands behind a NUL is not read. -/
theorem cString_append_zero {s : Bytes} (h : 0 ∉ s) (rest : Bytes) :
    cString (s ++ 0 :: rest) = s := by
  have hs : ∀ b ∈ s, decide (b ≠ 0) = true := fun b hb => by simpa using ne_of_mem_of_not_mem hb h
  rw [cString, List.takeWhile_append_of_pos hs, List.takeWhile_cons_of_neg (by simp),
    List.append_nil]

/-- A string in an array of `n` chars. -/
structure CStr (n : ℕ) where
  val : Bytes
  noNul : 0 ∉ val
  short : val.length < n
  deriving DecidableEq

/-- `strncpy` of a string to an array of `n + 1` chars that ends with a NUL. -/
def CStr.copy (n : ℕ) (s : Bytes) : CStr (n + 1) where
  val := (cString s).take n
  noNul h := zero_notMem_cString s (List.mem_of_mem_take h)
  short := Nat.lt_succ_of_le (List.length_take_le n _)

/-! ### The data of a message -/

/-- The array `data` and the offset `pos`. The string is missing as long as nothing is written. -/
structure DataBuf where
  text : Option Bytes
  pos : ℕ

def DataBuf.empty : DataBuf := ⟨none, 0⟩

/-- `snprintf(data + pos, sizeof(data) - pos, ...)`. Behind the end of the array the size wraps
around, and the write is not stopped: then there is no result. -/
def DataBuf.snprintf (b : DataBuf) (piece : Bytes) : Option DataBuf :=
  if 896 < b.pos then none
  else if b.pos = 896 then some { b with pos := b.pos + piece.length }
  else some ⟨some (b.text.getD [] ++ piece.take (895 - b.pos)), b.pos + piece.length⟩

/-- What `snprintf` is given a value with, if there is one. -/
def DataBuf.optional (b : DataBuf) (piece : Bytes → Bytes) : Option Bytes → Option DataBuf
  | none => some b
  | some v => b.snprintf (piece v)

/-- The space between two fields. -/
def DataBuf.sep (b : DataBuf) : Bytes := if b.pos ≠ 0 then [space] else []

/-- The fields before the value. -/
def putFields (state type key : Option Bytes) : Option DataBuf := do
  let b ← DataBuf.empty.optional (ascii "state=" ++ ·) state
  let b ← b.optional (b.sep ++ ascii "type=" ++ ·) type
  b.optional (b.sep ++ ascii "key=" ++ ·) key

/-- The string in `data` when the line is made. There is none when a write left the array, or when
nothing was written. -/
def encodeData (state type key value : Option Bytes) : Option Bytes := do
  let b ← putFields state type key
  let b ← b.optional (fun v => if b.pos ≠ 0 then ascii " value=" ++ v else v) value
  b.text

/-- `"MSG %s %s\n"`, in an array of 1024 chars. -/
def messageLine (pubTopic data : Bytes) : Bytes :=
  (ascii "MSG " ++ pubTopic ++ ascii " " ++ data ++ [newline]).take 1023

/-- The line that `cmos_publish` sends to every subscriber. -/
def cmosPublish (pubTopic : CStr 64) (state type key value : Option Bytes) : Option Bytes :=
  (encodeData state type key value).map (messageLine pubTopic.val)

/-! ### What the string is -/

/-- The string `full` was written, as far as it fits. -/
def DataBuf.Holds (b : DataBuf) (full : Bytes) : Prop :=
  b.pos = full.length ∧ b.text = some (full.take 895)

theorem DataBuf.snprintf_empty (piece : Bytes) :
    ∃ b, DataBuf.empty.snprintf piece = some b ∧ b.Holds piece :=
  ⟨⟨some (piece.take 895), piece.length⟩, by simp [snprintf, empty], rfl, rfl⟩

theorem DataBuf.Holds.snprintf {b : DataBuf} {full : Bytes} (h : b.Holds full)
    (hfit : full.length ≤ 896) (piece : Bytes) :
    ∃ b', b.snprintf piece = some b' ∧ b'.Holds (full ++ piece) := by
  obtain ⟨hpos, htext⟩ := h
  rw [DataBuf.snprintf, hpos, if_neg (Nat.not_lt.mpr hfit)]
  split_ifs with hfull
  · refine ⟨_, rfl, by simp, ?_⟩
    rw [htext, List.take_append_of_le_length (by omega)]
  · refine ⟨_, rfl, by simp, ?_⟩
    have hall : full.take 895 = full := List.take_of_length_le (by omega)
    simp only [htext, Option.getD_some, List.take_append, hall]

theorem DataBuf.Holds.snprintf_none {b : DataBuf} {full : Bytes} (h : b.Holds full)
    (hover : 896 < full.length) (piece : Bytes) : b.snprintf piece = none := by
  rw [DataBuf.snprintf, h.1, if_pos hover]

/-- What there is after the words `ws` were written, one after the other: the buffer that holds
them, or nothing when they left the array. -/
def Written (ws : List Bytes) : Option DataBuf → Prop
  | none => 896 < ([space].intercalate ws).length
  | some b => if ws = [] then b = .empty else b.Holds ([space].intercalate ws)

theorem DataBuf.Holds.pos_ne_zero {b : DataBuf} {ws : List Bytes} (hne : ws ≠ [])
    (hws : ∀ w ∈ ws, w ≠ []) (h : b.Holds ([space].intercalate ws)) : b.pos ≠ 0 := by
  obtain ⟨w, ws, rfl⟩ := List.exists_cons_of_ne_nil hne
  have hw : 0 < w.length := List.length_pos_iff.mpr (hws w List.mem_cons_self)
  rw [h.1]
  cases ws with
  | nil => simpa using hw.ne'
  | cons v ws =>
    simp only [List.intercalate_cons_cons, List.length_append]
    omega

/-- A field that is given is one more word. -/
theorem Written.field {ws : List Bytes} {o : Option DataBuf} (h : Written ws o)
    (hws : ∀ w ∈ ws, w ≠ []) (tag v : Bytes) :
    Written (ws ++ [tag ++ v]) (o.bind fun b => b.optional (b.sep ++ tag ++ ·) (some v)) := by
  by_cases hne : ws = []
  · subst hne
    cases o with
    | none => simp [Written] at h
    | some b =>
      obtain rfl : b = .empty := by simpa [Written] using h
      obtain ⟨b, hb, hholds⟩ := DataBuf.snprintf_empty (tag ++ v)
      have hput : DataBuf.empty.optional (DataBuf.empty.sep ++ tag ++ ·) (some v) = some b := hb
      rw [List.nil_append, Option.bind_some, hput, Written, if_neg (List.cons_ne_nil _ _),
        List.intercalate_singleton]
      exact hholds
  · have hjoin : [space].intercalate (ws ++ [tag ++ v]) =
        [space].intercalate ws ++ ([space] ++ tag ++ v) := by
      rw [intercalate_concat _ hne]
      simp only [List.append_assoc]
    cases o with
    | none =>
      simp only [Written, Option.bind_none, hjoin, List.length_append] at h ⊢
      omega
    | some b =>
      simp only [Written, if_neg hne] at h
      have hput : b.optional (b.sep ++ tag ++ ·) (some v) = b.snprintf ([space] ++ tag ++ v) := by
        rw [DataBuf.optional, DataBuf.sep, if_pos (h.pos_ne_zero hne hws)]
      rw [Option.bind_some, hput]
      by_cases hfit : ([space].intercalate ws).length ≤ 896
      · obtain ⟨b', hb', hholds⟩ := h.snprintf hfit ([space] ++ tag ++ v)
        rw [hb', Written, if_neg (by simp), hjoin]
        exact hholds
      · rw [h.snprintf_none (Nat.not_le.mp hfit), Written, hjoin, List.length_append]
        omega

/-- The words of the fields before the value. -/
def fieldWords (state type : Option Bytes) (key : Bytes) : List Bytes :=
  (state.map (ascii "state=" ++ ·)).toList ++ (type.map (ascii "type=" ++ ·)).toList ++
    [ascii "key=" ++ key]

/-- The text of a message with a key and a value. -/
def messageText (state type : Option Bytes) (key value : Bytes) : Bytes :=
  [space].intercalate (fieldWords state type key ++ [ascii "value=" ++ value])

theorem mem_fieldWords {state type : Option Bytes} {key w : Bytes}
    (hw : w ∈ fieldWords state type key) :
    (∃ s, state = some s ∧ w = ascii "state=" ++ s) ∨
      (∃ t, type = some t ∧ w = ascii "type=" ++ t) ∨ w = ascii "key=" ++ key := by
  cases state <;> cases type <;> simpa [fieldWords] using hw

theorem fieldWords_ne_nil {state type : Option Bytes} {key w : Bytes}
    (hw : w ∈ fieldWords state type key) : w ≠ [] := by
  have htag : ∀ tag v : Bytes, tag ≠ [] → tag ++ v ≠ [] := fun tag v h => by simp [h]
  rcases mem_fieldWords hw with ⟨v, -, rfl⟩ | ⟨v, -, rfl⟩ | rfl
  · exact htag _ v (by decide)
  · exact htag _ v (by decide)
  · exact htag _ key (by decide)

/-- The fields before the value are written. -/
theorem written_putFields (state type : Option Bytes) (key : Bytes) :
    Written (fieldWords state type key) (putFields state type (some key)) := by
  have hne := @fieldWords_ne_nil state type key
  simp only [fieldWords, List.mem_append] at hne
  have hstate : Written (state.map (ascii "state=" ++ ·)).toList
      (DataBuf.empty.optional (ascii "state=" ++ ·) state) := by
    cases state with
    | none => rfl
    | some s =>
      have hempty : Written [] (some DataBuf.empty) := rfl
      exact hempty.field (by simp) (ascii "state=") s
  have htype : Written ((state.map (ascii "state=" ++ ·)).toList ++
        (type.map (ascii "type=" ++ ·)).toList)
      ((DataBuf.empty.optional (ascii "state=" ++ ·) state).bind fun b =>
        b.optional (b.sep ++ ascii "type=" ++ ·) type) := by
    cases type with
    | none => simpa [DataBuf.optional] using hstate
    | some t => exact hstate.field (fun w hw => hne (.inl (.inl hw))) (ascii "type=") t
  have hkey := htype.field (fun w hw => hne (.inl (List.mem_append.mp hw))) (ascii "key=") key
  rwa [Option.bind_assoc] at hkey

/-- **The string of a message** is its text, cut off at the end of the array; there is none when the
value would begin behind the end. -/
theorem encodeData_eq (state type : Option Bytes) (key value : Bytes) :
    encodeData state type (some key) (some value) =
      if ([space].intercalate (fieldWords state type key)).length ≤ 896 then
        some ((messageText state type key value).take 895)
      else none := by
  have hwritten := written_putFields state type key
  have hne : fieldWords state type key ≠ [] := by simp [fieldWords]
  have hjoin : messageText state type key value =
      [space].intercalate (fieldWords state type key) ++ (ascii " value=" ++ value) := by
    rw [messageText, intercalate_concat _ hne, List.append_assoc]
    rfl
  rw [encodeData]
  cases hput : putFields state type (some key) with
  | none =>
    rw [hput] at hwritten
    rw [if_neg (Nat.not_le.mpr hwritten)]
    rfl
  | some b =>
    simp only [hput, Written, if_neg hne] at hwritten
    have hpos := hwritten.pos_ne_zero hne fun w => fieldWords_ne_nil
    simp only [Option.bind_eq_bind, Option.bind_some, DataBuf.optional, if_pos hpos]
    split_ifs with hfit
    · obtain ⟨b', hb', hholds⟩ := hwritten.snprintf hfit (ascii " value=" ++ value)
      rw [hb', Option.bind_some, hholds.2, hjoin]
    · rw [hwritten.snprintf_none (Nat.not_le.mp hfit)]
      rfl

end LoopCharger.Cmos

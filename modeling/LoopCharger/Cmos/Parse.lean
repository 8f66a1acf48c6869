import Mathlib.Algebra.Ring.Int.Defs
import LoopCharger.Cmos.Delivery
import LoopCharger.Lib.Substring

/-!
# The two parsers of a message

`cmos_parse` of `cmos_util.h`, with which a callback takes a message apart: each field is what
stands behind the first occurrence of its tag in the data. The subscriber's own parser cuts the data
into words. The two are compared on the data that `cmos_publish` makes of a state, a type, a key and
a value.

What `atof` and `atoi` give is a parameter.

## Main definitions

* `cmosGetField`, `cmosParse`: the parser.
* `ParsesBack`: both parsers find what was published.
* `Unhidden`: no field before a field has the tag of this field.

## Main results

* `parsesBack_iff`: when both parsers find what was published.
-/

namespace LoopCharger.Cmos

open Lib

/-! ### The parser -/

def equals : UInt8 := 61

/-- The field with this name, in an array of `outSize` chars. -/
def cmosGetField (data field : Bytes) (outSize : ℕ) : Option Bytes :=
  let search := field.take 126 ++ [equals]
  (behind search data).map fun p => (p.takeWhile fun b => !isBlank b).take (outSize - 1)

structure CmosParsed (F : Type) where
  type : Bytes
  key : Bytes
  value : Bytes
  valueF : F
  valueI : ℤ

variable {F : Type} [Zero F] (atof : Bytes → F) (atoi : Bytes → ℤ)

/-- The fields of a message, and the result. -/
def cmosParse (data : Bytes) : CmosParsed F × ℤ :=
  let type := (cmosGetField data (ascii "type") 64).getD []
  let key := (cmosGetField data (ascii "key") 64).getD []
  let value := (cmosGetField data (ascii "value") 256).getD []
  let msg := if value ≠ [] then ⟨type, key, value, atof value, atoi value⟩
    else ⟨type, key, value, 0, 0⟩
  (msg, if type ≠ [] then 0 else -1)

/-- Both parsers find what was published. -/
def ParsesBack (state : Option Bytes) (type key value : Bytes) : Prop :=
  ∃ data, encodeData state (some type) (some key) (some value) = some data ∧
    (cmosParse atof atoi data).2 = 0 ∧
    (cmosParse atof atoi data).1.type = type ∧ (parseFields data).type = some type ∧
    (cmosParse atof atoi data).1.key = key ∧ (parseFields data).key = some key ∧
    (cmosParse atof atoi data).1.value = value ∧ (parseFields data).value = some value

/-- Where one of the fields before it has the tag, the field can still be read, if it happens to
stand behind the first of these tags too. -/
def Unhidden (tag : Bytes) (size : ℕ) (before : List Bytes) (v : Bytes) : Prop :=
  ∀ b ∈ before.findSome? (behind tag), b.take (size - 1) = v

instance (tag : Bytes) (size : ℕ) (before : List Bytes) (v : Bytes) :
    Decidable (Unhidden tag size before v) :=
  inferInstanceAs (Decidable (∀ b ∈ before.findSome? (behind tag), b.take (size - 1) = v))

/-! ### What the parser finds -/

/-- The word behind the first occurrence of a tag. -/
def wordBehind (tag data : Bytes) : Option Bytes :=
  (behind tag data).map fun p => p.takeWhile fun b => !isBlank b

theorem IsField.takeWhile_eq {s : Bytes} (h : IsField s) :
    (s.takeWhile fun b => !isBlank b) = s :=
  List.takeWhile_eq_self_iff.mpr fun b hb => by simp [isBlank, h b hb]

theorem IsField.takeWhile_append_space {s : Bytes} (h : IsField s) (rest : Bytes) :
    ((s ++ space :: rest).takeWhile fun b => !isBlank b) = s := by
  have hs : ∀ b ∈ s, (!isBlank b) = true := fun b hb => by simp [isBlank, h b hb]
  rw [List.takeWhile_append_of_pos hs, List.takeWhile_cons_of_neg (by decide), List.append_nil]

/-- The field itself, with nothing or a space behind it. -/
theorem wordBehind_self (tag : Bytes) {v : Bytes} (hv : IsField v) :
    wordBehind tag (tag ++ v) = some v := by
  rw [wordBehind, behind_append, Option.map_some, hv.takeWhile_eq]

theorem wordBehind_self_space (tag : Bytes) {v : Bytes} (hv : IsField v) (rest : Bytes) :
    wordBehind tag (tag ++ v ++ space :: rest) = some v := by
  rw [wordBehind, List.append_assoc, behind_append, Option.map_some, hv.takeWhile_append_space]

/-- A field before it. -/
theorem wordBehind_append_space {tag tag' v : Bytes} (htag : IsWord tag) (htag' : Unmixed tag tag')
    (hv : IsField v) (rest : Bytes) :
    wordBehind tag (tag' ++ v ++ space :: rest) = (behind tag v).or (wordBehind tag rest) := by
  have hspace : space ∉ tag := fun h => (htag.2 space h).2.2.2 rfl
  rw [wordBehind, List.append_assoc, behind_tag_append htag', behind_append_sep htag.1 hspace]
  cases hb : behind tag v with
  | none => rfl
  | some b =>
    have hfield : IsField b := fun c hc => hv c ((suffix_of_behind hb).subset hc)
    simp only [Option.map_some, Option.some_or, hfield.takeWhile_append_space]

/-- **The word that is found** is that of the first field that has the tag. -/
theorem wordBehind_intercalate {tag : Bytes} (htag : IsWord tag) {v : Bytes} (hv : IsField v)
    (before : List (Bytes × Bytes)) (hbefore : ∀ f ∈ before, Unmixed tag f.1 ∧ IsField f.2)
    (later : List Bytes) :
    wordBehind tag ([space].intercalate
        (before.map (fun f => f.1 ++ f.2) ++ (tag ++ v) :: later)) =
      some (((before.map Prod.snd).findSome? (behind tag)).getD v) := by
  induction before with
  | nil =>
    cases later with
    | nil =>
      rw [List.map_nil, List.nil_append, List.intercalate_singleton, wordBehind_self tag hv]
      rfl
    | cons w later =>
      rw [List.map_nil, List.nil_append, List.intercalate_cons_cons, List.append_assoc,
        List.singleton_append, wordBehind_self_space tag hv]
      rfl
  | cons f before ih =>
    obtain ⟨hunmixed, hfield⟩ := hbefore f List.mem_cons_self
    have hrest := ih fun g hg => hbefore g (List.mem_cons_of_mem f hg)
    rw [List.map_cons, List.cons_append, List.intercalate_cons_of_ne_nil (by simp),
      List.append_assoc, List.singleton_append, wordBehind_append_space htag hunmixed hfield, hrest,
      List.map_cons, List.findSome?_cons]
    cases behind tag f.2 <;> rfl

/-- The field that is found is the one that was sent. -/
theorem cmosGetField_eq_iff (field : Bytes) {data tag : Bytes}
    (htag : field.take 126 ++ [equals] = tag) {before : List Bytes} {v : Bytes}
    (hword : wordBehind tag data = some ((before.findSome? (behind tag)).getD v)) {size : ℕ}
    (hlen : v.length < size) :
    (cmosGetField data field size).getD [] = v ↔ Unhidden tag size before v := by
  have hget : cmosGetField data field size =
      (wordBehind tag data).map fun w => w.take (size - 1) := by
    rw [cmosGetField, wordBehind, Option.map_map, htag]
    rfl
  rw [hget, hword, Option.map_some, Option.getD_some, Unhidden]
  cases before.findSome? (behind tag) with
  | none => simpa using List.take_of_length_le (by omega)
  | some b => simp

theorem cmosParse_fields (data : Bytes) :
    (cmosParse atof atoi data).1.type = (cmosGetField data (ascii "type") 64).getD [] ∧
      (cmosParse atof atoi data).1.key = (cmosGetField data (ascii "key") 64).getD [] ∧
      (cmosParse atof atoi data).1.value = (cmosGetField data (ascii "value") 256).getD [] := by
  simp only [cmosParse]
  split_ifs <;> exact ⟨rfl, rfl, rfl⟩

theorem cmosParse_result (data : Bytes) :
    (cmosParse atof atoi data).2 = 0 ↔ (cmosParse atof atoi data).1.type ≠ [] := by
  rw [(cmosParse_fields atof atoi data).1]
  simp [cmosParse]

section Message

variable {state : Option Bytes} {type key value : Bytes}

/-- The words that are found in a message. -/
theorem wordBehind_messageText (hstate : ∀ s ∈ state, IsField s) (htype : IsField type)
    (hkey : IsField key) (hvalue : IsField value) :
    let text := messageText state (some type) key value
    wordBehind (ascii "type=") text =
        some ((state.toList.findSome? (behind (ascii "type="))).getD type) ∧
      wordBehind (ascii "key=") text =
        some (((state.toList ++ [type]).findSome? (behind (ascii "key="))).getD key) ∧
      wordBehind (ascii "value=") text =
        some (((state.toList ++ [type, key]).findSome? (behind (ascii "value="))).getD value) := by
  cases state with
  | none =>
    refine ⟨?_, ?_, ?_⟩
    · exact wordBehind_intercalate (by decide) htype [] (by simp) _
    · refine wordBehind_intercalate (by decide) hkey [(ascii "type=", type)] ?_ _
      simpa using ⟨by decide, htype⟩
    · refine wordBehind_intercalate (by decide) hvalue
        [(ascii "type=", type), (ascii "key=", key)] ?_ []
      simpa using ⟨⟨by decide, htype⟩, by decide, hkey⟩
  | some s =>
    have hs := hstate s rfl
    refine ⟨?_, ?_, ?_⟩
    · refine wordBehind_intercalate (by decide) htype [(ascii "state=", s)] ?_ _
      simpa using ⟨by decide, hs⟩
    · refine wordBehind_intercalate (by decide) hkey
        [(ascii "state=", s), (ascii "type=", type)] ?_ _
      simpa using ⟨⟨by decide, hs⟩, by decide, htype⟩
    · refine wordBehind_intercalate (by decide) hvalue
        [(ascii "state=", s), (ascii "type=", type), (ascii "key=", key)] ?_ []
      simpa using ⟨⟨by decide, hs⟩, ⟨by decide, htype⟩, by decide, hkey⟩

/-! ### The subscriber's own parser -/

/-- A value that is cut off is not found as it was sent. -/
theorem lastField_value_ne {type : Option Bytes} {n : ℕ}
    (hn : n < (messageText state type key value).length) :
    lastField (ascii "value=")
      (cutWords n (fieldWords state type key ++ [ascii "value=" ++ value])) ≠ some value := by
  intro hlast
  have hother : ∀ w ∈ fieldWords state type key, ¬ ascii "value=" ++ value <+: w := by
    intro w hw hpre
    have hself := untag_append (ascii "value=") value
    rcases mem_fieldWords hw with ⟨v, -, rfl⟩ | ⟨v, -, rfl⟩ | rfl <;>
      exact Option.some_ne_none _ (hself.symm.trans (untag_eq_none (by decide) hpre))
  rcases mem_cutWords_of_lt space hn (mem_of_lastField hlast) with hmem | ⟨w, hw, hpre, hlen⟩
  · exact hother _ hmem List.prefix_rfl
  · rcases List.mem_append.mp hw with hw | hw
    · exact hother w hw hpre
    · obtain rfl := List.mem_singleton.mp hw
      exact absurd hlen (Nat.lt_irrefl _)

/-- What the parser of the subscriber finds. -/
theorem parseFields_messageText (hstate : ∀ s ∈ state, IsField s) (htype : IsField type)
    (hkey : IsField key) (hvalue : IsField value) {n : ℕ} (hn : 511 ≤ n) :
    let f := parseFields ((messageText state (some type) key value).take n)
    f.type = some type ∧ f.key = some key ∧ f.value = some value ↔
      (messageText state (some type) key value).length ≤ 511 := by
  intro f
  have htokens : tokens isSpace (((messageText state (some type) key value).take n).take 511) =
      cutWords 511 (fieldWords state (some type) key ++ [ascii "value=" ++ value]) := by
    rw [List.take_take, Nat.min_eq_left hn]
    exact tokens_take_messageText hstate (by simpa using htype) hkey hvalue 511
  have hf : f = _ := parseFields_eq _
  rw [htokens] at hf
  rw [hf]
  refine ⟨fun h => Nat.not_lt.mp fun hlt => lastField_value_ne hlt h.2.2, fun hfit => ?_⟩
  have hall : cutWords 511 (fieldWords state (some type) key ++ [ascii "value=" ++ value]) =
      fieldWords state (some type) key ++ [ascii "value=" ++ value] := by
    have hne : fieldWords state (some type) key ++ [ascii "value=" ++ value] ≠ [] := by simp
    have hcut := cutWords_append space hne (fun w hw => ?_) hfit []
    · rwa [List.append_nil, cutWords_nil, List.append_nil] at hcut
    · rcases List.mem_append.mp hw with hw | hw
      · exact fieldWords_ne_nil hw
      · obtain rfl := List.mem_singleton.mp hw
        exact List.append_ne_nil_of_left_ne_nil (by decide) _
  obtain ⟨-, ht, hk, hv⟩ := lastField_fieldWords state (some type) key
  simp only [hall, lastField_append, ht, hk, hv, lastField_singleton, untag_append,
    lastField_singleton_of_apart (show Apart (ascii "type=") (ascii "value=") by decide),
    lastField_singleton_of_apart (show Apart (ascii "key=") (ascii "value=") by decide),
    Option.none_or, Option.some_or, and_self]

/-! ### Both parsers -/

/-- The number of chars of the data. -/
def dataLength (state : Option Bytes) (type key value : Bytes) : ℕ :=
  (state.elim 0 fun s => s.length + 7) + type.length + key.length + value.length + 17

theorem length_messageText_eq (state : Option Bytes) (type key value : Bytes) :
    (messageText state (some type) key value).length = dataLength state type key value := by
  have hs : (ascii "state=").length = 6 := by decide
  have ht : (ascii "type=").length = 5 := by decide
  have hk : (ascii "key=").length = 4 := by decide
  have hv : (ascii "value=").length = 6 := by decide
  cases state <;>
    simp only [messageText, fieldWords, Option.map_none, Option.map_some, Option.toList_none,
      Option.toList_some, List.nil_append, List.cons_append, List.intercalate_cons_cons,
      List.intercalate_singleton, List.length_append, List.length_singleton, hs, ht, hk, hv,
      dataLength, Option.elim_none, Option.elim_some] <;>
    omega

/-- What `cmos_parse` finds in a message. -/
theorem cmosParse_messageText_iff (hstate : ∀ s ∈ state, IsField s) (htype : IsField type)
    (hkey : IsField key) (hvalue : IsField value) (htypeLen : type.length < 64)
    (hkeyLen : key.length < 64) (hvalueLen : value.length < 256) :
    let msg := (cmosParse atof atoi (messageText state (some type) key value)).1
    (msg.type = type ↔ Unhidden (ascii "type=") 64 state.toList type) ∧
      (msg.key = key ↔ Unhidden (ascii "key=") 64 (state.toList ++ [type]) key) ∧
      (msg.value = value ↔ Unhidden (ascii "value=") 256 (state.toList ++ [type, key]) value) := by
  obtain ⟨htypeWord, hkeyWord, hvalueWord⟩ := wordBehind_messageText hstate htype hkey hvalue
  obtain ⟨htypeEq, hkeyEq, hvalueEq⟩ :=
    cmosParse_fields atof atoi (messageText state (some type) key value)
  intro msg
  refine ⟨?_, ?_, ?_⟩
  · rw [htypeEq]
    exact cmosGetField_eq_iff (ascii "type") (by decide) htypeWord htypeLen
  · rw [hkeyEq]
    exact cmosGetField_eq_iff (ascii "key") (by decide) hkeyWord hkeyLen
  · rw [hvalueEq]
    exact cmosGetField_eq_iff (ascii "value") (by decide) hvalueWord hvalueLen

/-- **Both parsers find what was published** exactly if the data has at most 511 chars and no field
is hidden by a field before it. -/
theorem parsesBack_iff (hstate : ∀ s ∈ state, IsField s) (htype : IsWord type) (hkey : IsField key)
    (hvalue : IsField value) (htypeLen : type.length < 64) (hkeyLen : key.length < 64)
    (hvalueLen : value.length < 256) :
    ParsesBack atof atoi state type key value ↔
      dataLength state type key value ≤ 511 ∧
        Unhidden (ascii "type=") 64 state.toList type ∧
        Unhidden (ascii "key=") 64 (state.toList ++ [type]) key ∧
        Unhidden (ascii "value=") 256 (state.toList ++ [type, key]) value := by
  have hlength := length_messageText_eq state type key value
  have hfields := parseFields_messageText hstate htype.2 hkey hvalue (n := 895) (by decide)
  obtain ⟨htypeIff, hkeyIff, hvalueIff⟩ :=
    cmosParse_messageText_iff atof atoi hstate htype.2 hkey hvalue htypeLen hkeyLen hvalueLen
  have hencode := encodeData_eq state (some type) key value
  rw [← header] at hencode
  rw [hlength] at hfields
  rw [ParsesBack, hencode]
  constructor
  · rintro ⟨data, hdata, -, ht, ht', hk, hk', hv, hv'⟩
    split_ifs at hdata with hfit
    obtain rfl := Option.some.inj hdata
    have hlen := hfields.mp ⟨ht', hk', hv'⟩
    rw [List.take_of_length_le (by omega)] at ht hk hv
    exact ⟨hlen, htypeIff.mp ht, hkeyIff.mp hk, hvalueIff.mp hv⟩
  · rintro ⟨hlen, ht, hk, hv⟩
    have hfit : (header state (some type) key).length ≤ 896 := by
      have := length_messageText state (some type) key value
      omega
    obtain ⟨ht', hk', hv'⟩ := hfields.mpr hlen
    rw [List.take_of_length_le (by omega)] at ht' hk' hv'
    have hfound := htypeIff.mpr ht
    refine ⟨messageText state (some type) key value, ?_, ?_, hfound, ht', hkeyIff.mpr hk, hk',
      hvalueIff.mpr hv, hv'⟩
    · rw [if_pos hfit, List.take_of_length_le (by omega)]
    · rw [cmosParse_result, hfound]
      exact htype.1

/-- A message of a reading, from a publisher whose state is a word. -/
theorem parsesBack_reading :
    ParsesBack (F := ℤ) (fun _ => 25) (fun _ => 25) (some (ascii "ok")) (ascii "sensor")
      (ascii "temperature") (ascii "25") :=
  (parsesBack_iff (fun _ => 25) (fun _ => 25) (by decide) (by decide) (by decide) (by decide)
    (by decide) (by decide) (by decide)).mpr (by decide)

/-- A state in which the tag of the type stands: the type that is found is a part of the state. -/
theorem not_parsesBack_subtype :
    ¬ ∀ (state : Option Bytes) (type key value : Bytes), (∀ s ∈ state, IsField s) → IsWord type →
      IsField key → IsField value → type.length < 64 → key.length < 64 → value.length < 256 →
      ParsesBack (F := ℤ) (fun _ => 0) (fun _ => 0) state type key value := by
  intro h
  obtain ⟨data, hdata, -, htype, -⟩ :=
    h (some (ascii "subtype=ac")) (ascii "ups") (ascii "mode") (ascii "on") (by decide) (by decide)
      (by decide) (by decide) (by decide) (by decide) (by decide)
  have hencode : encodeData (some (ascii "subtype=ac")) (some (ascii "ups")) (some (ascii "mode"))
      (some (ascii "on")) = some (ascii "state=subtype=ac type=ups key=mode value=on") := by decide
  rw [hencode] at hdata
  obtain rfl := Option.some.inj hdata
  exact absurd htype (by decide)

end Message

end LoopCharger.Cmos

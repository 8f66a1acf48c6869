import LoopCharger.Cmos.Delivery

/-!
# Values with spaces

A message is a line of words, and nothing marks a space that belongs to a value. The words of a
value behind its first space are read as fields of the message, and a field that comes later takes
the place of an earlier one.

## Main definitions

* `injected`: the words of a value that are read as fields.
* `Harmless`: what no filter but the right one lets pass.
* `KeptApart`: a message does not reach the slots for another key or another type.

## Main results

* `key_parseFields`, `type_parseFields`: the key and the type that are read from a message.
* `keptApart_iff`: the messages that are kept apart.
-/

namespace LoopCharger.Cmos

open Lib

variable {κ : Type}

/-! ### The fields that are read -/

/-- The words of the first `n` bytes of a value that are read as fields: those behind its first
space. -/
def injected (value : Bytes) (n : ℕ) : List Bytes :=
  tokens isSpace ((value.take n).dropWhile fun b => !isSpace b)

theorem injected_zero (value : Bytes) : injected value 0 = [] := rfl

/-- The first word of a tagged value keeps the tag. -/
theorem lastField_tokens_tagged {tag tag' : Bytes} (h : Apart tag tag') (hne : tag' ≠ [])
    (htag : ∀ b ∈ tag', isSpace b = false) (s : Bytes) :
    lastField tag (tokens isSpace (tag' ++ s)) =
      lastField tag (tokens isSpace (s.dropWhile fun b => !isSpace b)) := by
  have hword : IsToken isSpace (tag' ++ s.takeWhile fun b => !isSpace b) := by
    refine ⟨by simp [hne], fun b hb => ?_⟩
    rcases List.mem_append.mp hb with hb | hb
    · exact htag b hb
    · simpa using List.mem_takeWhile_imp hb
  have hnone : lastField tag [tag' ++ s.takeWhile fun b => !isSpace b] = none :=
    lastField_singleton_of_apart h _
  have happ : tag' ++ s = (tag' ++ s.takeWhile fun b => !isSpace b) ++
      s.dropWhile fun b => !isSpace b := by
    rw [List.append_assoc, List.takeWhile_append_dropWhile]
  rw [happ]
  cases hrest : s.dropWhile fun b => !isSpace b with
  | nil => rw [List.append_nil, tokens_word hword, hnone, tokens_nil, lastField_nil]
  | cons b bs =>
    have hb : isSpace b = true := by
      have hhead := List.head_dropWhile_not (fun b => !isSpace b) (l := s) (by simp [hrest])
      simpa [hrest] using hhead
    have hsep : tokens isSpace (b :: bs) = tokens isSpace bs := tokens_append_sep hb [] bs
    rw [tokens_word_cons hword hb, hsep, ← List.singleton_append, lastField_append, hnone,
      Option.or_none]

/-- The tagged value of a message that is cut off. -/
theorem lastField_tokens_take_value {tag : Bytes} (h : Apart tag (ascii "value=")) (value : Bytes)
    (m : ℕ) :
    lastField tag (tokens isSpace ((ascii "value=" ++ value).take m)) =
      lastField tag (injected value (m - 6)) := by
  have htag := IsField.isSpace_eq_false (s := ascii "value=") (by decide)
  have hsix : (ascii "value=").length = 6 := by decide
  by_cases hm : m = 0
  · subst hm
    rfl
  rw [List.take_append, hsix]
  have hne : (ascii "value=").take m ≠ [] := fun hnil => by
    rcases List.take_eq_nil_iff.mp hnil with hzero | hempty
    · exact hm hzero
    · exact absurd hempty (by decide)
  by_cases hlong : 6 ≤ m
  · rw [List.take_of_length_le (by omega)]
    exact lastField_tokens_tagged h (by decide) htag _
  · have hzero : m - 6 = 0 := by omega
    have hword : IsToken isSpace ((ascii "value=").take m) :=
      ⟨hne, fun b hb => htag b (List.mem_of_mem_take hb)⟩
    rw [hzero, List.take_zero, List.append_nil, tokens_word hword, lastField_singleton]
    refine untag_eq_none (s := []) h ?_
    rw [List.append_nil]
    exact List.take_prefix _ _

variable {type key value : Bytes}

theorem length_header (type key : Bytes) :
    (header none (some type) key).length = 10 + type.length + key.length := by
  have htype : (ascii "type=").length = 5 := by decide
  have hkey : (ascii "key=").length = 4 := by decide
  have hheader : header none (some type) key =
      (ascii "type=" ++ type) ++ [space] ++ (ascii "key=" ++ key) := by
    simp [header, fieldWords]
  simp only [hheader, List.length_append, List.length_singleton, htype, hkey]
  omega

/-- The words of a message whose type and key are whole. -/
theorem tokens_take_of_le (htype : IsField type) (hkey : IsField key) {n : ℕ}
    (hn : (header none (some type) key).length ≤ n) :
    tokens isSpace ((messageText none (some type) key value).take n) =
      [ascii "type=" ++ type, ascii "key=" ++ key] ++ tokens isSpace
        ((ascii "value=" ++ value).take (n - (header none (some type) key).length - 1)) := by
  have htypeWord : IsToken isSpace (ascii "type=" ++ type) := htype.isToken (by decide)
  have hkeyWord : IsToken isSpace (ascii "key=" ++ key) := hkey.isToken (by decide)
  have hspace : isSpace space = true := rfl
  have hheader : tokens isSpace (header none (some type) key) =
      [ascii "type=" ++ type, ascii "key=" ++ key] := by
    have hjoin : header none (some type) key =
        (ascii "type=" ++ type) ++ space :: (ascii "key=" ++ key) := by
      simp [header, fieldWords]
    rw [hjoin, tokens_word_cons htypeWord hspace, tokens_word hkeyWord]
  rw [messageText_eq, List.take_append, List.take_of_length_le hn]
  cases hroom : n - (header none (some type) key).length with
  | zero => rw [List.take_zero, List.append_nil, hheader, Nat.zero_sub, List.take_zero, tokens_nil,
      List.append_nil]
  | succ m => rw [List.take_succ_cons, tokens_append_sep hspace, hheader, Nat.add_sub_cancel]

/-- The words of a message that is cut off in its type or its key. -/
theorem tokens_take_of_lt (htype : IsField type) (hkey : IsField key) {n : ℕ}
    (hn : n < (header none (some type) key).length) :
    tokens isSpace ((messageText none (some type) key value).take n) =
      cutWords n [ascii "type=" ++ type, ascii "key=" ++ key] := by
  have hwords : ∀ w ∈ fieldWords none (some type) key, IsToken isSpace w := fun w hw =>
    isToken_of_mem_fieldWords (by simp) (by simpa using htype) hkey hw
  rw [messageText_eq, List.take_append_of_le_length hn.le, header]
  exact tokens_take_intercalate rfl hwords n

/-- A field of a message is the last one in the value, or else the one of the words before it. -/
theorem lastField_tokens_take {tag : Bytes} (htype : IsField type) (hkey : IsField key)
    (h : Apart tag (ascii "value=")) (value : Bytes) (n : ℕ) :
    lastField tag (tokens isSpace ((messageText none (some type) key value).take n)) =
      (lastField tag (injected value (n - (17 + type.length + key.length)))).or
        (lastField tag (cutWords n [ascii "type=" ++ type, ascii "key=" ++ key])) := by
  have hlen := length_header type key
  by_cases hcut : (header none (some type) key).length ≤ n
  · have hroom : n - (header none (some type) key).length - 1 - 6 =
        n - (17 + type.length + key.length) := by omega
    have hwords : cutWords n [ascii "type=" ++ type, ascii "key=" ++ key] =
        [ascii "type=" ++ type, ascii "key=" ++ key] := by
      have hne : ∀ w ∈ fieldWords none (some type) key, w ≠ [] := fun w hw => fieldWords_ne_nil hw
      have hall := cutWords_append space (by simp [fieldWords]) hne hcut []
      rwa [List.append_nil, cutWords_nil, List.append_nil] at hall
    rw [tokens_take_of_le htype hkey hcut, lastField_append, lastField_tokens_take_value h, hroom,
      hwords]
  · rw [tokens_take_of_lt htype hkey (Nat.not_le.mp hcut), Nat.sub_eq_zero_of_le (by omega),
      injected_zero, lastField_nil, Option.none_or]

/-- What is left of the key when the message is cut off. -/
theorem lastField_key_cutWords (type key : Bytes) (n : ℕ) :
    lastField (ascii "key=") (cutWords n [ascii "type=" ++ type, ascii "key=" ++ key]) =
      if 10 + type.length ≤ n then some (key.take (n - 10 - type.length)) else none := by
  have htag : (ascii "key=").length = 4 := by decide
  have hword : (ascii "type=" ++ type).length = 5 + type.length := by
    rw [List.length_append]
    rfl
  have hother : lastField (ascii "key=") [ascii "type=" ++ type] = none :=
    lastField_singleton_of_apart (by decide) type
  by_cases hfirst : n ≤ (ascii "type=" ++ type).length
  · rw [cutWords_cons_of_le hfirst, lastField_cutWords_of_apart (by decide), if_neg (by omega)]
  · have hroom : n - (5 + type.length) - 1 - 4 = n - 10 - type.length := by omega
    rw [cutWords_cons (by simp [ascii]) (Nat.le_of_not_le hfirst), ← List.singleton_append,
      lastField_append, hother, Option.or_none, lastField_cutWords_self (by decide), htag, hword,
      hroom]
    refine if_congr ?_ rfl rfl
    omega

/-- What is left of the type when the message is cut off. -/
theorem lastField_type_cutWords (type key : Bytes) (n : ℕ) :
    lastField (ascii "type=") (cutWords n [ascii "type=" ++ type, ascii "key=" ++ key]) =
      if 5 ≤ n then some (type.take (n - 5)) else none := by
  have htag : (ascii "type=").length = 5 := by decide
  have hword : (ascii "type=" ++ type).length = 5 + type.length := by
    rw [List.length_append]
    rfl
  have hself : lastField (ascii "type=") [ascii "type=" ++ type] = some type := by
    rw [lastField_singleton, untag_append]
  by_cases hfirst : n ≤ (ascii "type=" ++ type).length
  · rw [cutWords_cons_of_le hfirst, lastField_cutWords_self (by decide), htag]
  · rw [cutWords_cons (by simp [ascii]) (Nat.le_of_not_le hfirst), ← List.singleton_append,
      lastField_append, hself, lastField_cutWords_of_apart (by decide), Option.none_or,
      if_pos (by omega), List.take_of_length_le (by omega)]

/-- **The key that is read** is the last one in the value, or else what is left of the key. -/
theorem key_parseFields (htype : IsField type) (hkey : IsField key) (value : Bytes) {n : ℕ}
    (hn : n ≤ 511) :
    (parseFields ((messageText none (some type) key value).take n)).key =
      (lastField (ascii "key=") (injected value (n - (17 + type.length + key.length)))).or
        (if 10 + type.length ≤ n then some (key.take (n - 10 - type.length)) else none) := by
  rw [parseFields_eq, ← lastField_key_cutWords type key,
    ← lastField_tokens_take htype hkey (by decide)]
  simp only [List.take_take, Nat.min_eq_right hn]

/-- **The type that is read** is the last one in the value, or else what is left of the type. -/
theorem type_parseFields (htype : IsField type) (hkey : IsField key) (value : Bytes) {n : ℕ}
    (hn : n ≤ 511) :
    (parseFields ((messageText none (some type) key value).take n)).type =
      (lastField (ascii "type=") (injected value (n - (17 + type.length + key.length)))).or
        (if 5 ≤ n then some (type.take (n - 5)) else none) := by
  rw [parseFields_eq, ← lastField_type_cutWords type key,
    ← lastField_tokens_take htype hkey (by decide)]
  simp only [List.take_take, Nat.min_eq_right hn]

/-! ### Other slots -/

/-- What no filter lets pass, except one that asks for `field` or for nothing. -/
def Harmless (field x : Bytes) : Prop := x = field ∨ x = [] ∨ 31 < x.length

instance (field x : Bytes) : Decidable (Harmless field x) := inferInstanceAs (Decidable (_ ∨ _ ∨ _))

theorem not_harmless {field x : Bytes} :
    ¬ Harmless field x ↔ x ≠ field ∧ x ≠ [] ∧ x.length < 32 := by
  rw [Harmless, not_or, not_or, Nat.not_lt, Nat.lt_succ_iff]

theorem not_passes {filter : CStr 32} {field : Option Bytes} {own : Bytes} (hne : filter.val ≠ [])
    (hown : filter.val ≠ own) (h : ∀ x ∈ field, Harmless own x) : passes filter field ≠ true := by
  rw [ne_eq, passes_iff]
  rintro (hnil | hsome)
  · exact hne hnil
  · rcases h filter.val hsome with heq | hnil | hlong
    · exact hown heq
    · exact hne hnil
    · exact absurd filter.short (by omega)

/-- The slot asks for another key, or for another type. -/
def SubSlot.Other (slot : SubSlot κ) (type key : Bytes) : Prop :=
  (slot.filterKey.val ≠ [] ∧ slot.filterKey.val ≠ key) ∨
    (slot.filterType.val ≠ [] ∧ slot.filterType.val ≠ type)

/-- **A message is kept apart** when it is published, and whenever it arrives on a connection of a
slot for another key or another type, no callback is made for it. -/
def KeptApart (κ : Type) (topic : CStr 64) (type key value : Bytes) : Prop :=
  ∃ line, cmosPublish topic none (some type) (some key) (some value) = some line ∧
    ∀ (subSlots : List (SubSlot κ)) (actions : List SubAction) (sock s : ℕ) (slot : SubSlot κ)
      (sent later : Bytes), subSlots[s]? = some slot → slot.Other type key →
      slotOf sock (subMachine.trace (.init subSlots) actions) = some s →
      (feed newline 2047 [] sent).2 = [] →
      streamOf sock (subMachine.trace (.init subSlots) actions) = sent ++ line ++ later →
      callbacksOf sock (subMachine.trace (.init subSlots) actions) =
        streamCalls subSlots (some s) sent ++ streamCalls subSlots (some s) later

/-- The part of a value that fits into the array of a line. -/
def valueRoom (topic : CStr 64) (type key : Bytes) : ℕ :=
  506 - topic.val.length - (17 + type.length + key.length)

/-- The fields that are read from a message do no harm. -/
def FieldsHarmless (topic : CStr 64) (type key value : Bytes) : Prop :=
  (∀ x ∈ (parseFields ((messageText none (some type) key value).take (506 - topic.val.length))).key,
    Harmless key x) ∧
  ∀ x ∈ (parseFields ((messageText none (some type) key value).take (506 - topic.val.length))).type,
    Harmless type x

/-- The fields that are read do no harm if what is left of the key and the fields in the value do
none. -/
theorem fieldsHarmless_iff {topic : CStr 64} (htype : IsField type) (hkey : IsField key) :
    FieldsHarmless topic type key value ↔
      Harmless key (key.take (496 - topic.val.length - type.length)) ∧
        (∀ x ∈ lastField (ascii "key=") (injected value (valueRoom topic type key)),
          Harmless key x) ∧
        ∀ x ∈ lastField (ascii "type=") (injected value (valueRoom topic type key)),
          Harmless type x := by
  have htopic := topic.short
  have hread := key_parseFields htype hkey value (n := 506 - topic.val.length) (by omega)
  have hread' := type_parseFields htype hkey value (n := 506 - topic.val.length) (by omega)
  rw [← valueRoom] at hread hread'
  have hroom : 506 - topic.val.length - 10 - type.length =
      496 - topic.val.length - type.length := by omega
  rw [hroom] at hread
  rw [FieldsHarmless, hread, hread']
  have hwhole : injected value (valueRoom topic type key) ≠ [] →
      key.take (496 - topic.val.length - type.length) = key := by
    intro hne
    have hpos : valueRoom topic type key ≠ 0 := fun h => hne (h ▸ injected_zero value)
    rw [valueRoom] at hpos
    exact List.take_of_length_le (by omega)
  constructor
  · rintro ⟨hk, ht⟩
    refine ⟨?_, fun x hx => hk x (by rw [hx]; rfl), fun x hx => ht x (by rw [hx]; rfl)⟩
    by_cases hinj : injected value (valueRoom topic type key) = []
    · rw [hinj, lastField_nil, Option.none_or] at hk
      by_cases hfit : 10 + type.length ≤ 506 - topic.val.length
      · exact hk _ (if_pos hfit)
      · refine .inr (.inl ?_)
        rw [Nat.sub_eq_zero_of_le (by omega), List.take_zero]
    · exact .inl (hwhole hinj)
  · rintro ⟨hkeep, hk, ht⟩
    constructor
    · cases hlast : lastField (ascii "key=") (injected value (valueRoom topic type key)) with
      | some v => exact fun x hx => Option.some.inj hx ▸ hk v hlast
      | none =>
        intro x hx
        rw [Option.none_or] at hx
        split_ifs at hx with hfit
        · exact Option.some.inj hx ▸ hkeep
        · exact absurd hx.symm (Option.some_ne_none x)
    · cases hlast : lastField (ascii "type=") (injected value (valueRoom topic type key)) with
      | some v => exact fun x hx => Option.some.inj hx ▸ ht v hlast
      | none =>
        intro x hx
        rw [Option.none_or, if_pos (by omega)] at hx
        obtain rfl := Option.some.inj hx
        by_cases hfit : type.length ≤ 506 - topic.val.length - 5
        · exact .inl (List.take_of_length_le hfit)
        · refine .inr (.inr ?_)
          rw [List.length_take]
          omega

/-- The line of a message. -/
theorem cmosPublish_eq_some {topic : CStr 64} {line : Bytes} :
    cmosPublish topic none (some type) (some key) (some value) = some line ↔
      10 + type.length + key.length ≤ 896 ∧
        line = messageLine topic.val ((messageText none (some type) key value).take 895) := by
  rw [cmosPublish, encodeData_eq, ← header, length_header]
  split_ifs with hfit
  · rw [Option.map_some, Option.some.injEq]
    exact ⟨fun h => ⟨hfit, h.symm⟩, fun h => h.2.symm⟩
  · exact ⟨fun h => absurd h.symm (Option.some_ne_none line), fun h => absurd h.1 hfit⟩

/-- A slot that is not called back for the data leads to no callback. -/
theorem ctxHandleLine_eq_none {subSlots : List (SubSlot κ)} {s : ℕ} {slot : SubSlot κ}
    {line topic data : Bytes} (hparts : messageParts line = some (topic, data))
    (hslot : subSlots[s]? = some slot) (hpayload : slot.payload data = none) :
    ctxHandleLine subSlots (some s) line = none := by
  simp only [ctxHandleLine, hparts, hslot, hpayload, Option.bind_eq_bind, Option.bind_some,
    Option.bind_none, Option.bind_fun_none]
  split_ifs <;> rfl

section Message

variable {topic : CStr 64} (htopic : IsWord topic.val)
  (htext : IsText (messageText none (some type) key value))

include htopic htext

/-- What a published message is read as. -/
theorem messageParts_publish :
    messageParts (lineBuffer (messageLine topic.val
        ((messageText none (some type) key value).take 895))) =
      some (topic.val, (messageText none (some type) key value).take (506 - topic.val.length)) := by
  have hne : (messageText none (some type) key value).take 895 ≠ [] := by
    rw [messageText_eq]
    simp
  have hdata : IsText ((messageText none (some type) key value).take 895) :=
    fun b hb => htext b (List.mem_of_mem_take hb)
  rw [messageParts_message htopic topic.short hdata hne, List.take_take, Nat.min_eq_left (by omega)]

/-- A slot for another key or type that lets the fields pass is reached. -/
theorem not_keptApart (slot : SubSlot κ) {cb : κ} (hother : slot.Other type key)
    (hused : slot.used = true) (hcb : slot.cb = some cb) (hsub : slot.topic = topic)
    (hpayload : (slot.payload
      ((messageText none (some type) key value).take (506 - topic.val.length))).isSome) :
    ¬ KeptApart κ topic type key value := by
  rintro ⟨line, hline, hapart⟩
  obtain ⟨-, rfl⟩ := cmosPublish_eq_some.mp hline
  have hdata : IsText ((messageText none (some type) key value).take 895) :=
    fun b hb => htext b (List.mem_of_mem_take hb)
  obtain ⟨p, hp⟩ := Option.isSome_iff_exists.mp hpayload
  have hparts := messageParts_publish htopic htext
  have hne : messageLine topic.val ((messageText none (some type) key value).take 895) ≠ [] := by
    have hempty : messageParts (lineBuffer []) = none := rfl
    intro hnil
    rw [hnil, hempty] at hparts
    exact Option.some_ne_none _ hparts.symm
  have hlen := List.length_take_le 1023
    (ascii "MSG " ++ topic.val ++ ascii " " ++ (messageText none (some type) key value).take 895 ++
      [newline])
  obtain ⟨hstream, hslot⟩ := streamOf_delivery [slot] 0 [] _ hne (hlen.trans (by decide))
  have hnone := hapart [slot] _ 0 0 slot [] [] rfl hother hslot rfl
    (by rw [hstream, List.nil_append, List.append_nil])
  rw [callbacksOf_eq, hslot, hstream, ← streamCalls,
    streamCalls_messageLine htopic.2 topic.short hdata (List.length_take_le _ _)] at hnone
  simp [ctxHandleLine, hparts, hused, hcb, hsub, hp, streamCalls, feed] at hnone

/-- A slot whose filters for the type and the key let the message pass asks for them, if the message
is kept apart. -/
theorem not_other_of_keptApart [Inhabited κ] (filterType filterKey : CStr 32)
    (htype : passes filterType (parseFields
      ((messageText none (some type) key value).take (506 - topic.val.length))).type)
    (hkey : passes filterKey (parseFields
      ((messageText none (some type) key value).take (506 - topic.val.length))).key)
    (h : KeptApart κ topic type key value) :
    ¬ ((filterKey.val ≠ [] ∧ filterKey.val ≠ key) ∨
      (filterType.val ≠ [] ∧ filterType.val ≠ type)) :=
  fun hother => not_keptApart htopic htext
    ⟨topic, CStr.copy 31 [], filterType, filterKey, some (default : κ), true⟩ hother rfl rfl rfl
    ((SubSlot.payload_isSome _ _).mpr ⟨passes_iff.mpr (.inl rfl), htype, hkey⟩) h

/-- The fields of a message that is kept apart do no harm. -/
theorem fieldsHarmless_of_keptApart [Inhabited κ] (h : KeptApart κ topic type key value) :
    FieldsHarmless topic type key value := by
  have hzero : ∀ tag x : Bytes, lastField tag (tokens isSpace
      (((messageText none (some type) key value).take (506 - topic.val.length)).take 511)) =
        some x → 0 ∉ x := by
    intro tag x hlast hmem
    have hsub := subset_of_mem_tokens (mem_of_lastField hlast) (List.mem_append_right tag hmem)
    exact (htext 0 (List.mem_of_mem_take (List.mem_of_mem_take hsub))).1 rfl
  have hempty : ∀ field, passes (CStr.copy 31 []) field = true :=
    fun _ => passes_iff.mpr (.inl rfl)
  constructor
  · intro x hx
    by_contra hharm
    obtain ⟨hne, hnil, hlen⟩ := not_harmless.mp hharm
    have hzeroKey : 0 ∉ x := by
      rw [parseFields_eq] at hx
      exact hzero _ x hx
    exact not_other_of_keptApart htopic htext _ ⟨x, hzeroKey, hlen⟩ (hempty _)
      (passes_iff.mpr (.inr hx)) h (.inl ⟨hnil, hne⟩)
  · intro x hx
    by_contra hharm
    obtain ⟨hne, hnil, hlen⟩ := not_harmless.mp hharm
    have hzeroType : 0 ∉ x := by
      rw [parseFields_eq] at hx
      exact hzero _ x hx
    exact not_other_of_keptApart htopic htext ⟨x, hzeroType, hlen⟩ _
      (passes_iff.mpr (.inr hx)) (hempty _) h (.inr ⟨hnil, hne⟩)

/-- A message that is published is kept apart if its fields do no harm. -/
theorem keptApart_of_fieldsHarmless (hfit : 10 + type.length + key.length ≤ 896)
    (h : FieldsHarmless topic type key value) : KeptApart κ topic type key value := by
  obtain ⟨hkeyHarm, htypeHarm⟩ := h
  refine ⟨_, cmosPublish_eq_some.mpr ⟨hfit, rfl⟩, ?_⟩
  intro subSlots actions sock s slot sent later hslot hother hconn hsent hstream
  have hdata : IsText ((messageText none (some type) key value).take 895) :=
    fun b hb => htext b (List.mem_of_mem_take hb)
  have hpayload : slot.payload
      ((messageText none (some type) key value).take (506 - topic.val.length)) = none := by
    rw [← Option.not_isSome_iff_eq_none, SubSlot.payload_isSome]
    rintro ⟨-, ht, hk⟩
    rcases hother with ⟨hne, hown⟩ | ⟨hne, hown⟩
    · exact not_passes hne hown hkeyHarm hk
    · exact not_passes hne hown htypeHarm ht
  have hfeed := feed_messageLine htopic.2 topic.short hdata (List.length_take_le _ _)
  have hline : streamCalls subSlots (some s) (messageLine topic.val
      ((messageText none (some type) key value).take 895)) = [] := by
    rw [streamCalls_messageLine htopic.2 topic.short hdata (List.length_take_le _ _),
      ctxHandleLine_eq_none (messageParts_publish htopic htext) hslot hpayload]
    rfl
  rw [callbacksOf_eq, hconn, hstream, ← streamCalls, List.append_assoc,
    streamCalls_append hsent, streamCalls_append (by rw [hfeed]), hline, List.nil_append]

end Message

/-- **Which messages are kept apart.** A message with a type and a key without whitespace, and a
value without line ends, is kept apart from the slots for other keys and types if and only if its
value begins in the array `data`, its key is not cut off to another one, and of the fields in its
value the last key and the last type, if there are any, are those of the message, empty, or too long
for a filter. -/
theorem keptApart_iff [Inhabited κ] {topic : CStr 64} (htopic : IsWord topic.val)
    (htype : IsField type) (hkey : IsField key) (hvalue : IsText value) :
    KeptApart κ topic type key value ↔
      10 + type.length + key.length ≤ 896 ∧
        Harmless key (key.take (496 - topic.val.length - type.length)) ∧
        (∀ x ∈ lastField (ascii "key=") (injected value (valueRoom topic type key)),
          Harmless key x) ∧
        ∀ x ∈ lastField (ascii "type=") (injected value (valueRoom topic type key)),
          Harmless type x := by
  rw [← fieldsHarmless_iff htype hkey]
  have hsome : ∀ x ∈ some type, IsField x := fun x hx => Option.some.inj hx ▸ htype
  have htext : IsText (messageText none (some type) key value) :=
    isText_messageText (fun x hx => absurd hx.symm (Option.some_ne_none x)) hsome hkey hvalue
  constructor
  · intro hapart
    obtain ⟨line, hline, -⟩ := id hapart
    exact ⟨(cmosPublish_eq_some.mp hline).1, fieldsHarmless_of_keptApart htopic htext hapart⟩
  · rintro ⟨hfit, hharm⟩
    exact keptApart_of_fieldsHarmless htopic htext hfit hharm

theorem keptApart_ups_test :
    KeptApart Unit (CStr.copy 63 (ascii "hmi_ups")) (ascii "command") (ascii "ups_test")
      (ascii "1 0") := by
  have h := @keptApart_iff Unit (ascii "command") (ascii "ups_test") (ascii "1 0") _
    (CStr.copy 63 (ascii "hmi_ups")) (by decide) (by decide) (by decide) (by decide)
  exact h.mpr ⟨by decide, .inl (by decide), by decide, by decide⟩

/-- A value with a key in it reaches the slot for that key. -/
theorem callbacksOf_ups_shutdown :
    (commandSlot (ascii "ups_shutdown")).Other (ascii "command") (ascii "ups_test") ∧
      ∃ line, cmosPublish (CStr.copy 63 (ascii "hmi_ups")) none (some (ascii "command"))
          (some (ascii "ups_test")) (some (ascii "1 key=ups_shutdown")) = some line ∧
        let events := subMachine.trace (.init [commandSlot (ascii "ups_shutdown")])
          [.addPub 0 (ascii "hmi") true, .ready 0 line]
        slotOf 0 events = some 0 ∧ streamOf 0 events = line ∧
          callbacksOf 0 events = [((), ascii "hmi_ups", ascii "1")] := by
  refine ⟨.inl ⟨by decide, by decide⟩,
    ascii "MSG hmi_ups type=command key=ups_test value=1 key=ups_shutdown\n", by decide +kernel, ?_⟩
  obtain ⟨hstream, hslot⟩ := streamOf_delivery [commandSlot (ascii "ups_shutdown")] 0 (ascii "hmi")
    (ascii "MSG hmi_ups type=command key=ups_test value=1 key=ups_shutdown\n") (by decide)
    (by decide)
  refine ⟨hslot, hstream, ?_⟩
  rw [callbacksOf_eq, hslot, hstream]
  decide +kernel

end LoopCharger.Cmos

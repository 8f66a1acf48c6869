import LoopCharger.Cmos.Subscriber

/-!
# From a publisher to a callback

A message that `cmos_publish` sends, followed through the buffers of a subscriber to the callback of
a slot whose filters it matches. The line is put into an array of 512 chars before it is handled, so
that the fields of a longer line are cut off.

## Main definitions

* `streamCalls`: the callbacks for the bytes of a connection.
* `header`: the text of a message up to its value.

## Main results

* `streamCalls_message`: the callbacks for a stream with a message in it.
* `payload_messageText`: what a slot that matches is called back with.
* `delivered_iff`: when a message is delivered.
-/

namespace LoopCharger.Cmos

open Lib

variable {κ : Type}

/-! ### A message in a stream -/

/-- The callbacks for the bytes that arrive on a connection of the slot `s`. -/
def streamCalls (subSlots : List (SubSlot κ)) (s : Option ℕ) (stream : Bytes) :
    List (κ × Bytes × Bytes) :=
  ((feed newline 2047 [] stream).1.map lineBuffer).filterMap (ctxHandleLine subSlots s)

/-- Whole lines, and what comes behind them. -/
theorem streamCalls_append {sent : Bytes} (hsent : (feed newline 2047 [] sent).2 = [])
    (subSlots : List (SubSlot κ)) (s : Option ℕ) (rest : Bytes) :
    streamCalls subSlots s (sent ++ rest) =
      streamCalls subSlots s sent ++ streamCalls subSlots s rest := by
  simp only [streamCalls, feed_append, hsent, List.map_append, List.filterMap_append]

/-- A message line is one line. -/
theorem feed_messageLine {topic data : Bytes} (htopic : IsField topic) (hlen : topic.length < 64)
    (hdata : IsText data) (hfit : data.length ≤ 895) :
    feed newline 2047 [] (messageLine topic data) = ([messageLine topic data], []) := by
  have hcmd : ascii "MSG " = [77, 83, 71, 32] := by decide
  have hsep : ascii " " = [32] := by decide
  have hline : messageLine topic data =
      (ascii "MSG " ++ topic ++ ascii " " ++ data) ++ newline :: [] := by
    refine List.take_of_length_le ?_
    simp only [hcmd, hsep, List.length_append, List.length_cons, List.length_nil]
    omega
  have hnl : newline ∉ ascii "MSG " ++ topic ++ ascii " " ++ data := by
    simp only [List.mem_append, not_or]
    refine ⟨⟨⟨by decide, fun h => ?_⟩, by decide⟩, fun h => ?_⟩
    · exact (htopic _ h).2.2.1 rfl
    · exact (hdata _ h).2.2 rfl
  rw [hline, feed_line hnl]
  · rfl
  · simp only [hcmd, hsep, List.length_append, List.length_cons, List.length_nil]
    omega

/-- A message line is handled once. -/
theorem streamCalls_messageLine {topic data : Bytes} (htopic : IsField topic)
    (hlen : topic.length < 64) (hdata : IsText data) (hfit : data.length ≤ 895)
    (subSlots : List (SubSlot κ)) (s : Option ℕ) :
    streamCalls subSlots s (messageLine topic data) =
      (ctxHandleLine subSlots s (lineBuffer (messageLine topic data))).toList := by
  rw [streamCalls, feed_messageLine htopic hlen hdata hfit, List.map_singleton,
    List.filterMap_cons]
  cases ctxHandleLine subSlots s (lineBuffer (messageLine topic data)) <;> rfl

/-- **The callbacks for one message line**: what its slot gives for the data that fits. -/
theorem streamCalls_message {topic data : Bytes} (htopic : IsWord topic) (hlen : topic.length < 64)
    (hdata : IsText data) (hne : data ≠ []) (hfit : data.length ≤ 895)
    {subSlots : List (SubSlot κ)} {s : ℕ} {slot : SubSlot κ} {cb : κ}
    (hslot : subSlots[s]? = some slot) (hused : slot.used = true) (hcb : slot.cb = some cb)
    (hsub : slot.topic.val = topic) :
    streamCalls subSlots (some s) (messageLine topic data) =
      ((slot.payload (data.take (506 - topic.length))).map fun p => (cb, topic, p)).toList := by
  have hparts := messageParts_message htopic hlen hdata hne
  rw [streamCalls_messageLine htopic.2 hlen hdata hfit]
  simp only [ctxHandleLine, hparts, hslot, hused, hcb, hsub, Option.bind_eq_bind,
    Option.bind_some, not_true_eq_false, ne_eq, if_false]
  cases slot.payload (data.take (506 - topic.length)) <;> rfl

/-! ### The fields that fit -/

/-- The text of a message up to its value. -/
def header (state type : Option Bytes) (key : Bytes) : Bytes :=
  [space].intercalate (fieldWords state type key)

theorem messageText_eq (state type : Option Bytes) (key value : Bytes) :
    messageText state type key value =
      header state type key ++ space :: (ascii "value=" ++ value) := by
  rw [messageText, intercalate_concat _ (by simp [fieldWords]), header, List.append_assoc]
  rfl

theorem length_messageText (state type : Option Bytes) (key value : Bytes) :
    (messageText state type key value).length =
      (header state type key).length + 7 + value.length := by
  have htag : (ascii "value=").length = 6 := by decide
  rw [messageText_eq, List.length_append, List.length_cons, List.length_append, htag]
  omega

theorem IsField.isToken {s : Bytes} (h : IsField s) {tag : Bytes} (htag : IsWord tag) :
    IsToken isSpace (tag ++ s) := by
  refine ⟨by simp [htag.1], fun b hb => ?_⟩
  rcases List.mem_append.mp hb with hb | hb
  · exact htag.2.isSpace_eq_false b hb
  · exact h.isSpace_eq_false b hb

theorem isToken_of_mem_fieldWords {state type : Option Bytes} {key w : Bytes}
    (hstate : ∀ x ∈ state, IsField x) (htype : ∀ x ∈ type, IsField x) (hkey : IsField key)
    (hw : w ∈ fieldWords state type key) : IsToken isSpace w := by
  rcases mem_fieldWords hw with ⟨v, hv, rfl⟩ | ⟨v, hv, rfl⟩ | rfl
  · exact (hstate v hv).isToken (by decide)
  · exact (htype v hv).isToken (by decide)
  · exact hkey.isToken (by decide)

/-- The words of a message that is cut off. -/
theorem tokens_take_messageText {state type : Option Bytes} {key value : Bytes}
    (hstate : ∀ x ∈ state, IsField x) (htype : ∀ x ∈ type, IsField x) (hkey : IsField key)
    (hvalue : IsField value) (n : ℕ) :
    tokens isSpace ((messageText state type key value).take n) =
      cutWords n (fieldWords state type key ++ [ascii "value=" ++ value]) := by
  refine tokens_take_intercalate rfl (fun w hw => ?_) n
  rcases List.mem_append.mp hw with hw | hw
  · exact isToken_of_mem_fieldWords hstate htype hkey hw
  · obtain rfl := List.mem_singleton.mp hw
    exact hvalue.isToken (by decide)

theorem lastField_optional (tag : Bytes) (v : Option Bytes) :
    lastField tag (v.map (tag ++ ·)).toList = v := by
  cases v <;> simp

theorem lastField_optional_of_apart {tag tag' : Bytes} (h : Apart tag tag') (v : Option Bytes) :
    lastField tag (v.map (tag' ++ ·)).toList = none := by
  cases v with
  | none => rfl
  | some v => exact (lastField_singleton tag _).trans (untag_eq_none h List.prefix_rfl)

theorem not_prefix_of_mem_optional {tag tag' s w : Bytes} (h : Apart tag tag') {v : Option Bytes}
    (hw : w ∈ (v.map (tag' ++ ·)).toList) : ¬ tag ++ s <+: w := by
  intro hpre
  obtain ⟨v, -, rfl⟩ := Option.map_eq_some_iff.mp (Option.mem_toList.mp hw)
  have hself := untag_append tag s
  rw [untag_eq_none h hpre] at hself
  exact Option.some_ne_none s hself.symm

theorem lastField_singleton_of_apart {tag tag' : Bytes} (h : Apart tag tag') (v : Bytes) :
    lastField tag [tag' ++ v] = none :=
  lastField_optional_of_apart h (some v)

/-- The fields before the value are found. -/
theorem lastField_fieldWords (state type : Option Bytes) (key : Bytes) :
    lastField (ascii "state=") (fieldWords state type key) = state ∧
      lastField (ascii "type=") (fieldWords state type key) = type ∧
      lastField (ascii "key=") (fieldWords state type key) = some key ∧
      lastField (ascii "value=") (fieldWords state type key) = none := by
  simp only [fieldWords, lastField_append]
  refine ⟨?_, ?_, ?_, ?_⟩
  · rw [lastField_optional, lastField_optional_of_apart (by decide),
      lastField_singleton_of_apart (by decide)]
    rfl
  · rw [lastField_optional, lastField_optional_of_apart (by decide),
      lastField_singleton_of_apart (by decide), Option.none_or, Option.or_none]
  · rw [lastField_optional_of_apart (by decide), lastField_optional_of_apart (by decide),
      lastField_singleton, untag_append]
    rfl
  · rw [lastField_optional_of_apart (by decide), lastField_optional_of_apart (by decide),
      lastField_singleton_of_apart (by decide)]
    rfl

/-- What is left of a tagged word. -/
theorem lastField_cutWords_self {tag : Bytes} (hne : tag ≠ []) (n : ℕ) (v : Bytes) :
    lastField tag (cutWords n [tag ++ v]) =
      if tag.length ≤ n then some (v.take (n - tag.length)) else none := by
  by_cases hn : n = 0
  · have hpos : 0 < tag.length := List.length_pos_iff.mpr hne
    rw [hn, cutWords_zero, lastField_nil, if_neg (by omega)]
  · rw [cutWords_singleton _ hn, lastField_singleton, untag_take]

/-- What is left of the value. -/
theorem lastField_cutWords_value (n : ℕ) (value : Bytes) :
    (lastField (ascii "value=") (cutWords n [ascii "value=" ++ value])).getD [] =
      value.take (n - 6) := by
  have htag : (ascii "value=").length = 6 := by decide
  rw [lastField_cutWords_self (by decide), htag]
  split_ifs with hlen
  · rfl
  · rw [Nat.sub_eq_zero_of_le (by omega), List.take_zero]
    rfl

theorem lastField_cutWords_of_apart {tag tag' : Bytes} (h : Apart tag tag') (n : ℕ) (v : Bytes) :
    lastField tag (cutWords n [tag' ++ v]) = none := by
  by_cases hn : n = 0
  · rw [hn, cutWords_zero, lastField_nil]
  · rw [cutWords_singleton _ hn, lastField_singleton]
    exact untag_eq_none h (List.take_prefix _ _)

/-- The key of a message that is cut off before its value is not found as it was sent. -/
theorem lastField_key_of_lt {state type : Option Bytes} {key value : Bytes} {n : ℕ}
    (hn : n < (header state type key).length) :
    lastField (ascii "key=") (cutWords n (fieldWords state type key ++ [ascii "value=" ++ value])) ≠
      some key := by
  intro hlast
  have hmem := mem_of_lastField hlast
  rw [fieldWords, List.append_assoc, List.singleton_append] at hmem
  have hother : ∀ w ∈ (state.map (ascii "state=" ++ ·)).toList ++
      (type.map (ascii "type=" ++ ·)).toList, ¬ ascii "key=" ++ key <+: w := by
    intro w hw hpre
    rcases List.mem_append.mp hw with hw | hw
    · exact not_prefix_of_mem_optional (by decide) hw hpre
    · exact not_prefix_of_mem_optional (by decide) hw hpre
  rcases mem_cutWords_of_lt space hn hmem with hpre | ⟨w, hw, hpre, hlen⟩
  · exact hother _ hpre List.prefix_rfl
  · rcases List.mem_append.mp hw with hw | hw
    · exact hother w hw hpre
    · obtain rfl := List.mem_singleton.mp hw
      exact absurd hlen (Nat.lt_irrefl _)

/-- **What a slot that matches is called back with**, for the first `n` bytes of a message. -/
theorem payload_messageText {state type : Option Bytes} {key value : Bytes}
    (hstate : ∀ x ∈ state, IsField x) (htype : ∀ x ∈ type, IsField x) (hkey : IsField key)
    (hvalue : IsField value) {slot : SubSlot κ}
    (hfilterState : slot.filterState.val = [] ∨ state = some slot.filterState.val)
    (hfilterType : slot.filterType.val = [] ∨ type = some slot.filterType.val)
    (hfilterKey : slot.filterKey.val = key) (hne : key ≠ []) {n : ℕ} (hn : n ≤ 511) :
    slot.payload ((messageText state type key value).take n) =
      if (header state type key).length ≤ n then
        some (value.take (n - (header state type key).length - 7))
      else none := by
  have htokens : tokens isSpace (((messageText state type key value).take n).take 511) =
      cutWords n (fieldWords state type key ++ [ascii "value=" ++ value]) := by
    rw [List.take_take, Nat.min_eq_right hn]
    exact tokens_take_messageText hstate htype hkey hvalue n
  rw [SubSlot.payload_of_filterKey (hfilterKey ▸ hne), parseFields_eq, htokens]
  by_cases hfit : (header state type key).length ≤ n
  · have hcut : cutWords n (fieldWords state type key ++ [ascii "value=" ++ value]) =
        fieldWords state type key ++
          cutWords (n - (header state type key).length - 1) [ascii "value=" ++ value] :=
      cutWords_append space (by simp [fieldWords]) (fun w hw => fieldWords_ne_nil hw) hfit _
    obtain ⟨hs, ht, hk, hv⟩ := lastField_fieldWords state type key
    simp only [hcut, lastField_append, hs, ht, hk, hv, Option.or_none, passes_iff,
      lastField_cutWords_of_apart (show Apart (ascii "state=") (ascii "value=") by decide),
      lastField_cutWords_of_apart (show Apart (ascii "type=") (ascii "value=") by decide),
      lastField_cutWords_of_apart (show Apart (ascii "key=") (ascii "value=") by decide),
      Option.none_or, lastField_cutWords_value]
    rw [if_pos ⟨hfilterState, hfilterType, .inr (congrArg some hfilterKey.symm)⟩, if_pos hfit,
      Nat.sub_sub]
  · have hkey' := @lastField_key_of_lt state type key value _ (Nat.not_le.mp hfit)
    rw [if_neg hfit]
    refine if_neg fun h => ?_
    rcases passes_iff.mp h.2.2 with hnil | hsome
    · exact hne (hfilterKey ▸ hnil)
    · exact hkey' (hfilterKey ▸ hsome)

/-! ### The value that arrives -/

theorem le_of_notMem_take {b : UInt8} {p q : Bytes} {n : ℕ} (h : b ∉ (p ++ b :: q).take n) :
    n ≤ p.length := by
  by_contra hlt
  obtain ⟨m, hm⟩ : ∃ m, n - p.length = m + 1 := ⟨n - p.length - 1, by omega⟩
  refine h ?_
  rw [List.take_append, hm, List.take_succ_cons]
  exact List.mem_append_right _ List.mem_cons_self

/-- The text of a message without a key does not begin with the value, when it is cut off where the
array of a line ends: it would be longer than what is sent. -/
theorem take_messageText_ne {state type : Option Bytes} {value : Bytes} (hvalue : IsField value)
    (hfit : (messageText state type [] value).length ≤ 895) {n : ℕ} (hn : 443 ≤ n) :
    (messageText state type [] value).take n ≠ value := by
  intro heq
  have hspace : space ∉ (messageText state type [] value).take n :=
    fun hmem => (hvalue space (heq ▸ hmem)).2.2.2 rfl
  have htag : (ascii "key=").length = 4 := by decide
  have hlen := congrArg List.length heq
  have htext := length_messageText state type [] value
  rw [List.length_take] at hlen
  by_cases hws : (state.map (ascii "state=" ++ ·)).toList ++
      (type.map (ascii "type=" ++ ·)).toList = []
  · have hheader : header state type [] = ascii "key=" := by
      rw [header, fieldWords, hws, List.append_nil, List.nil_append, List.intercalate_singleton]
    rw [messageText_eq, hheader] at hspace
    have := le_of_notMem_take hspace
    omega
  · have hheader : header state type [] = [space].intercalate
        ((state.map (ascii "state=" ++ ·)).toList ++ (type.map (ascii "type=" ++ ·)).toList) ++
          space :: ascii "key=" := by
      rw [header, fieldWords, intercalate_concat _ hws, List.append_nil, List.append_assoc]
      rfl
    rw [messageText_eq, hheader, List.append_assoc, List.cons_append] at hspace
    have hle := le_of_notMem_take hspace
    rw [hheader, List.length_append, List.length_cons, htag] at htext
    omega

/-- A slot without a key gets all of the data, if it is called back. -/
theorem SubSlot.payload_of_filterKey_nil {slot : SubSlot κ} (hkey : slot.filterKey.val = [])
    {data p : Bytes} (h : slot.payload data = some p) : p = data := by
  rw [payload] at h
  simp only [hkey, ne_eq, not_true_eq_false, if_false] at h
  split_ifs at h <;> exact (Option.some.inj h).symm

theorem payload_eq_value_iff {state type : Option Bytes} {key value : Bytes}
    (hstate : ∀ x ∈ state, IsField x) (htype : ∀ x ∈ type, IsField x) (hkey : IsField key)
    (hvalue : IsField value) (hfit : (messageText state type key value).length ≤ 895)
    {slot : SubSlot κ}
    (hfilterState : slot.filterState.val = [] ∨ state = some slot.filterState.val)
    (hfilterType : slot.filterType.val = [] ∨ type = some slot.filterType.val)
    (hfilterKey : slot.filterKey.val = key) {t : ℕ} (ht : t < 64) :
    slot.payload ((messageText state type key value).take (506 - t)) = some value ↔
      key ≠ [] ∧
        5 + t + (header state type key).length + (if value = [] then 0 else 7 + value.length) ≤
          511 := by
  by_cases hne : key = []
  · subst hne
    refine ⟨fun h => ?_, fun h => absurd rfl h.1⟩
    exact absurd (SubSlot.payload_of_filterKey_nil hfilterKey h).symm
      (take_messageText_ne hvalue hfit (by omega))
  rw [payload_messageText hstate htype hkey hvalue hfilterState hfilterType hfilterKey hne
    (by omega)]
  have hvalueLen : value = [] ↔ value.length = 0 := List.length_eq_zero_iff.symm
  constructor
  · intro h
    split_ifs at h with hheader
    have hlen := congrArg List.length (Option.some.inj h)
    rw [List.length_take] at hlen
    refine ⟨hne, ?_⟩
    split_ifs with hnil
    · omega
    · rw [hvalueLen] at hnil
      omega
  · rintro ⟨-, hle⟩
    rw [if_pos (by omega)]
    refine congrArg some (List.take_of_length_le ?_)
    split_ifs at hle with hnil
    · rw [hnil]
      exact Nat.zero_le _
    · omega

theorem isText_messageText {state type : Option Bytes} {key value : Bytes}
    (hstate : ∀ x ∈ state, IsField x) (htype : ∀ x ∈ type, IsField x) (hkey : IsField key)
    (hvalue : IsText value) : IsText (messageText state type key value) := by
  have hjoin : ∀ ws : List Bytes, (∀ w ∈ ws, IsText w) → IsText ([space].intercalate ws) := by
    intro ws hws
    induction ws with
    | nil => exact fun b hb => absurd hb List.not_mem_nil
    | cons w ws ih =>
      have hw := hws w List.mem_cons_self
      cases ws with
      | nil => rwa [List.intercalate_singleton]
      | cons v ws =>
        rw [List.intercalate_cons_cons]
        exact (hw.append (by decide)).append (ih fun u hu => hws u (List.mem_cons_of_mem w hu))
  have htagged : ∀ tag v : Bytes, IsText tag → IsText v → IsText (tag ++ v) :=
    fun _ _ ht hv => ht.append hv
  refine hjoin _ fun w hw => ?_
  rcases List.mem_append.mp hw with hw | hw
  · rcases mem_fieldWords hw with ⟨v, hv, rfl⟩ | ⟨v, hv, rfl⟩ | rfl
    · exact htagged _ _ (by decide) (hstate v hv).isText
    · exact htagged _ _ (by decide) (htype v hv).isText
    · exact htagged _ _ (by decide) hkey.isText
  · obtain rfl := List.mem_singleton.mp hw
    exact htagged _ _ (by decide) hvalue

/-- The line of a message that fits. -/
theorem cmosPublish_eq {topic : CStr 64} {state type : Option Bytes} {key value line : Bytes}
    (hfit : (messageText state type key value).length ≤ 895)
    (hline : cmosPublish topic state type (some key) (some value) = some line) :
    line = messageLine topic.val (messageText state type key value) := by
  have hlen := length_messageText state type key value
  rw [cmosPublish, encodeData_eq, if_pos (by rw [← header]; omega), Option.map_some,
    Option.some.injEq, List.take_of_length_le hfit] at hline
  exact hline.symm

/-- **When a message is delivered.** A message of fields without spaces arrives on a connection
whose slot matches it, between whole lines before it and other bytes behind it, in any chunks. The
callback is called once for it, with the topic and the value, if and only if the key is not empty
and the line is not longer than 511 chars up to the key, and up to the end of a value that is not
empty. -/
theorem delivered_iff {subSlots : List (SubSlot κ)} {actions : List SubAction} {sock s : ℕ}
    {slot : SubSlot κ} {cb : κ} {topic : CStr 64} {state type : Option Bytes}
    {key value line sent later : Bytes}
    (htopic : IsWord topic.val) (hstate : ∀ x ∈ state, IsField x) (htype : ∀ x ∈ type, IsField x)
    (hkey : IsField key) (hvalue : IsField value)
    (hfit : (messageText state type key value).length ≤ 895)
    (hline : cmosPublish topic state type (some key) (some value) = some line)
    (hslot : subSlots[s]? = some slot) (hused : slot.used = true) (hcb : slot.cb = some cb)
    (hsub : slot.topic = topic)
    (hfilterState : slot.filterState.val = [] ∨ state = some slot.filterState.val)
    (hfilterType : slot.filterType.val = [] ∨ type = some slot.filterType.val)
    (hfilterKey : slot.filterKey.val = key)
    (hconn : slotOf sock (subMachine.trace (.init subSlots) actions) = some s)
    (hsent : (feed newline 2047 [] sent).2 = [])
    (hstream : streamOf sock (subMachine.trace (.init subSlots) actions) = sent ++ line ++ later) :
    callbacksOf sock (subMachine.trace (.init subSlots) actions) =
        streamCalls subSlots (some s) sent ++ [(cb, topic.val, value)] ++
          streamCalls subSlots (some s) later ↔
      key ≠ [] ∧
        5 + topic.val.length + (header state type key).length +
          (if value = [] then 0 else 7 + value.length) ≤ 511 := by
  have htext : messageText state type key value ≠ [] := by
    rw [messageText_eq]
    simp
  have hrest : (feed newline 2047 [] line).2 = [] := by
    rw [cmosPublish_eq hfit hline, feed_messageLine htopic.2 topic.short
      (isText_messageText hstate htype hkey hvalue.isText) hfit]
  have hcalls := callbacksOf_eq subSlots actions sock
  simp only [hconn, hstream] at hcalls
  rw [hcalls, ← streamCalls, List.append_assoc, streamCalls_append hsent, streamCalls_append hrest,
    List.append_assoc, List.append_right_inj, List.append_left_inj, cmosPublish_eq hfit hline,
    streamCalls_message htopic topic.short (isText_messageText hstate htype hkey hvalue.isText)
      htext hfit hslot hused hcb (congrArg CStr.val hsub),
    ← payload_eq_value_iff hstate htype hkey hvalue hfit hfilterState hfilterType hfilterKey
      topic.short]
  cases slot.payload ((messageText state type key value).take (506 - topic.val.length)) <;> simp

/-- A subscription of the HMI bridge, to one command. -/
def commandSlot (key : Bytes) : SubSlot Unit where
  topic := CStr.copy 63 (ascii "hmi_ups")
  filterState := CStr.copy 31 []
  filterType := CStr.copy 31 (ascii "command")
  filterKey := CStr.copy 31 key
  cb := some ()
  used := true

theorem delivered_ups_test :
    callbacksOf 0 (subMachine.trace (.init [commandSlot (ascii "ups_test")])
        [.addPub 0 (ascii "hmi") true,
          .ready 0 (ascii "MSG hmi_ups type=command key=ups_test value=1\n")]) =
      [((), ascii "hmi_ups", ascii "1")] := by
  have hrun := streamOf_delivery [commandSlot (ascii "ups_test")] 0 (ascii "hmi")
    (ascii "MSG hmi_ups type=command key=ups_test value=1\n") (by decide) (by decide)
  have h := @delivered_iff Unit [commandSlot (ascii "ups_test")]
    [.addPub 0 (ascii "hmi") true,
      .ready 0 (ascii "MSG hmi_ups type=command key=ups_test value=1\n")]
    0 0 (commandSlot (ascii "ups_test")) () (CStr.copy 63 (ascii "hmi_ups")) none
    (some (ascii "command")) (ascii "ups_test") (ascii "1")
    (ascii "MSG hmi_ups type=command key=ups_test value=1\n") [] []
    (by decide) (by simp) (by decide) (by decide) (by decide) (by decide) (by decide) rfl rfl rfl
    rfl (by decide) (by decide) (by decide) hrun.2 rfl (by rw [hrun.1]; rfl)
  exact h.mpr ⟨by decide, by decide⟩

/-- What the self test gets of a value, in one delivery. -/
theorem callbacksOf_ups_test {value : Bytes} (hvalue : IsField value) (hlen : value.length ≤ 863) :
    ∃ line, cmosPublish (CStr.copy 63 (ascii "hmi_ups")) none (some (ascii "command"))
        (some (ascii "ups_test")) (some value) = some line ∧
      let events := subMachine.trace (.init [commandSlot (ascii "ups_test")])
        [.addPub 0 (ascii "hmi") true, .ready 0 line]
      streamOf 0 events = line ∧ slotOf 0 events = some 0 ∧
        callbacksOf 0 events = [((), ascii "hmi_ups", value.take 467)] := by
  have hstate : ∀ x ∈ (none : Option Bytes), IsField x := fun x hx => by simp at hx
  have hcommand : ∀ x ∈ some (ascii "command"), IsField x := by decide
  have hkey : IsField (ascii "ups_test") := by decide
  have hheader : (header none (some (ascii "command")) (ascii "ups_test")).length = 25 := by decide
  have htextLen := length_messageText none (some (ascii "command")) (ascii "ups_test") value
  rw [hheader] at htextLen
  have hfit :
      (messageText none (some (ascii "command")) (ascii "ups_test") value).length ≤ 895 := by
    omega
  have htext : messageText none (some (ascii "command")) (ascii "ups_test") value ≠ [] := by
    rw [messageText_eq]
    simp
  have hplain := isText_messageText hstate hcommand hkey hvalue.isText
  have hpayload : (commandSlot (ascii "ups_test")).payload ((messageText none
      (some (ascii "command")) (ascii "ups_test") value).take 499) = some (value.take 467) := by
    rw [payload_messageText hstate hcommand hkey hvalue (by decide) (by decide) (by decide)
      (by decide) (by decide), hheader, if_pos (by decide)]
  refine ⟨messageLine (ascii "hmi_ups")
    (messageText none (some (ascii "command")) (ascii "ups_test") value), ?_, ?_⟩
  · rw [cmosPublish, encodeData_eq, if_pos (by rw [← header, hheader]; decide), Option.map_some,
      List.take_of_length_le hfit]
    rfl
  have hlineLen : (messageLine (ascii "hmi_ups")
      (messageText none (some (ascii "command")) (ascii "ups_test") value)).length ≤ 1023 :=
    List.length_take_le _ _
  have hlineNe : messageLine (ascii "hmi_ups")
      (messageText none (some (ascii "command")) (ascii "ups_test") value) ≠ [] := by
    have hshort : (ascii "hmi_ups").length < 64 := by decide
    have hbytes := take_messageLine hshort
      (messageText none (some (ascii "command")) (ascii "ups_test") value)
    intro hnil
    rw [hnil, List.take_nil] at hbytes
    simp at hbytes
  obtain ⟨hstream, hslot⟩ := streamOf_delivery [commandSlot (ascii "ups_test")] 0 (ascii "hmi") _
    hlineNe (hlineLen.trans (by decide))
  refine ⟨hstream, hslot, ?_⟩
  rw [callbacksOf_eq, hslot, hstream, ← streamCalls,
    streamCalls_message (by decide) (by decide) hplain htext hfit rfl rfl rfl (by decide),
    show 506 - (ascii "hmi_ups").length = 499 by decide, hpayload]
  rfl

/-- The end of a value of 468 chars is cut off, in a message of 500 chars. -/
theorem callbacksOf_long_value :
    ∃ line, cmosPublish (CStr.copy 63 (ascii "hmi_ups")) none (some (ascii "command"))
        (some (ascii "ups_test")) (some (List.replicate 468 97)) = some line ∧
      let events := subMachine.trace (.init [commandSlot (ascii "ups_test")])
        [.addPub 0 (ascii "hmi") true, .ready 0 line]
      streamOf 0 events = line ∧ slotOf 0 events = some 0 ∧
        callbacksOf 0 events = [((), ascii "hmi_ups", List.replicate 467 97)] ∧
        callbacksOf 0 events ≠ [((), ascii "hmi_ups", List.replicate 468 97)] := by
  have hvalue : IsField (List.replicate 468 97) := fun b hb => by
    rw [List.eq_of_mem_replicate hb]
    decide
  obtain ⟨line, hline, hstream, hslot, hcalls⟩ := callbacksOf_ups_test hvalue
    (by rw [List.length_replicate]; decide)
  rw [List.take_replicate] at hcalls
  refine ⟨line, hline, hstream, hslot, hcalls, fun h => ?_⟩
  have hlen := congrArg (List.map fun r => r.2.2.length) (hcalls.symm.trans h)
  simp only [List.map_cons, List.map_nil, List.length_replicate] at hlen
  exact absurd hlen (by decide)

end LoopCharger.Cmos

import LoopCharger.Lib.Decimal
import LoopCharger.Cmos.Broadcast
import LoopCharger.Cmos.Delivery

/-!
# From publisher to subscriber

The messages of one publisher, sent over a connection and handled by a subscriber. Of the
connection it is used only that a first part of the bytes that were sent has arrived, in chunks of
any size. As long as no `send` is cut short, the callbacks are then those of the first messages, in
their order, each once.

## Main definitions

* `Message`: the arguments of `cmos_publish`, for a message that a subscriber reads whole.
* `SubSlot.gets`: what a slot is called back with for a message.

## Main results

* `parseFields_text`: the fields of a message are found as they were given.
* `streamCalls_lines`: the callbacks for the lines of messages.
* `delivered_in_order`: what a subscriber gets of a publisher.
-/

namespace LoopCharger.Cmos

open Lib

variable {κ : Type}

/-! ### Messages -/

/-- The arguments of `cmos_publish` on a topic: fields without spaces, and a line that the array of
a subscriber has room for. -/
structure Message (topic : CStr 64) where
  state : Option Bytes
  type : Option Bytes
  key : Bytes
  value : Bytes
  isField_state : ∀ x ∈ state, IsField x
  isField_type : ∀ x ∈ type, IsField x
  isField_key : IsField key
  isField_value : IsField value
  fits : 5 + topic.val.length + (messageText state type key value).length ≤ 511

namespace Message

variable {topic : CStr 64} (m : Message topic)

def text : Bytes := messageText m.state m.type m.key m.value

def line : Bytes := messageLine topic.val m.text

theorem isText_text : IsText m.text :=
  isText_messageText m.isField_state m.isField_type m.isField_key m.isField_value.isText

theorem text_ne_nil : m.text ≠ [] := by
  rw [text, messageText_eq]
  simp

theorem length_text : 5 + topic.val.length + m.text.length ≤ 511 := m.fits

/-- The line is the one that `cmos_publish` sends. -/
theorem cmosPublish_eq_line :
    cmosPublish topic m.state m.type (some m.key) (some m.value) = some m.line := by
  have htext : m.text.length = (header m.state m.type m.key).length + 7 + m.value.length :=
    length_messageText m.state m.type m.key m.value
  have hlen := m.length_text
  have hheader : ([space].intercalate (fieldWords m.state m.type m.key)).length ≤ 896 := by
    rw [← header]
    omega
  have hfit : m.text.take 895 = m.text := List.take_of_length_le (by omega)
  rw [cmosPublish, encodeData_eq, if_pos hheader, Option.map_some]
  exact congrArg (fun data => some (messageLine topic.val data)) hfit

/-- **The fields of a message** are found as they were given. -/
theorem parseFields_text :
    parseFields m.text = ⟨m.state, m.type, some m.key, some m.value⟩ := by
  have hlen := m.length_text
  have htokens : tokens isSpace (m.text.take 511) =
      fieldWords m.state m.type m.key ++ [ascii "value=" ++ m.value] := by
    have hne : ∀ w ∈ fieldWords m.state m.type m.key ++ [ascii "value=" ++ m.value], w ≠ [] := by
      intro w hw
      rcases List.mem_append.mp hw with hw | hw
      · exact fieldWords_ne_nil hw
      · rw [List.mem_singleton.mp hw]
        exact List.append_ne_nil_of_left_ne_nil (by decide) _
    have hcut := cutWords_append space (by simp) hne (show m.text.length ≤ 511 by omega) []
    rw [cutWords_nil, List.append_nil] at hcut
    rw [text, tokens_take_messageText m.isField_state m.isField_type m.isField_key
      m.isField_value 511, hcut]
  obtain ⟨hs, ht, hk, hv⟩ := lastField_fieldWords m.state m.type m.key
  have hnone : ∀ tag, Apart tag (ascii "value=") →
      lastField tag [ascii "value=" ++ m.value] = none :=
    fun tag h => lastField_singleton_of_apart h m.value
  rw [parseFields_eq, htokens]
  simp only [lastField_append, hs, ht, hk, hv, hnone _ (show Apart (ascii "state=") _ by decide),
    hnone _ (show Apart (ascii "type=") _ by decide),
    hnone _ (show Apart (ascii "key=") _ by decide), Option.none_or, Option.or_none,
    lastField_singleton, untag_append]

end Message

/-! ### Fields -/

theorem isField_none : ∀ x ∈ (none : Option Bytes), IsField x := fun _ hx =>
  absurd hx (Option.not_mem_none _)

/-- A decimal number has no spaces in it. -/
theorem isField_decimal (n : ℕ) : IsField (decimal n) := by
  intro b hb
  obtain ⟨hlow, -⟩ := mem_decimal hb
  have hlow : 48 ≤ b.toNat := hlow
  refine ⟨?_, ?_, ?_, ?_⟩ <;> rintro rfl <;> exact absurd hlow (by decide)

theorem length_decimal_toNat (w : UInt16) : (decimal w.toNat).length ≤ 5 :=
  length_decimal_le (by decide) (w.toNat_lt.trans (by decide))

/-! ### Callbacks -/

/-- What a slot is called back with for a message: the value when it asks for a key, and else the
whole text; and nothing when a filter does not let the message pass. -/
def SubSlot.gets {topic : CStr 64} (slot : SubSlot κ) (m : Message topic) : Option Bytes :=
  if passes slot.filterState m.state ∧ passes slot.filterType m.type ∧
      passes slot.filterKey (some m.key) then
    some (if slot.filterKey.val = [] then m.text else m.value)
  else none

section Calls

variable {topic : CStr 64}

theorem SubSlot.payload_text (slot : SubSlot κ) (m : Message topic) :
    slot.payload m.text = slot.gets m := by
  have hfields := m.parseFields_text
  by_cases hnone : slot.filterState.val = [] ∧ slot.filterType.val = [] ∧ slot.filterKey.val = []
  · have hpass : passes slot.filterState m.state ∧ passes slot.filterType m.type ∧
        passes slot.filterKey (some m.key) := by
      simp [passes_iff, hnone]
    rw [payload, if_pos hnone, gets, if_pos hpass, if_pos hnone.2.2]
  · rw [payload, if_neg hnone, gets, hfields]
    by_cases hs : passes slot.filterState m.state = true <;>
      by_cases ht : passes slot.filterType m.type = true <;>
      by_cases hk : passes slot.filterKey (some m.key) = true <;>
      by_cases hkey : slot.filterKey.val = [] <;> simp [hs, ht, hk, hkey]

/-- The callbacks of a slot for some messages. -/
def SubSlot.calls (slot : SubSlot κ) (cb : κ) (ms : List (Message topic)) :
    List (κ × Bytes × Bytes) :=
  ms.filterMap fun m => (slot.gets m).map fun p => (cb, topic.val, p)

variable {subSlots : List (SubSlot κ)} {s : ℕ} {slot : SubSlot κ} {cb : κ}

theorem Message.feed_line (m : Message topic) (htopic : IsField topic.val) :
    feed newline 2047 [] m.line = ([m.line], []) :=
  feed_messageLine htopic topic.short m.isText_text (by have := m.length_text; omega)

/-- A message line is handled once. -/
theorem streamCalls_line (m : Message topic) (htopic : IsWord topic.val)
    (hslot : subSlots[s]? = some slot) (hused : slot.used = true) (hcb : slot.cb = some cb)
    (hsub : slot.topic = topic) :
    streamCalls subSlots (some s) m.line = slot.calls cb [m] := by
  have hlen := m.length_text
  have htake : m.text.take (506 - topic.val.length) = m.text := List.take_of_length_le (by omega)
  rw [Message.line, streamCalls_message htopic topic.short m.isText_text m.text_ne_nil
    (by omega) hslot hused hcb (congrArg CStr.val hsub), htake, slot.payload_text]
  cases hgets : slot.gets m <;> simp [SubSlot.calls, hgets]

/-- **The callbacks for the lines of messages**, one after the other. -/
theorem streamCalls_lines (htopic : IsWord topic.val) (hslot : subSlots[s]? = some slot)
    (hused : slot.used = true) (hcb : slot.cb = some cb) (hsub : slot.topic = topic)
    (ms : List (Message topic)) :
    streamCalls subSlots (some s) (ms.map Message.line).flatten = slot.calls cb ms := by
  induction ms with
  | nil => rfl
  | cons m ms ih =>
    have hrest : (feed newline 2047 [] m.line).2 = [] := by rw [m.feed_line htopic.2]
    rw [List.map_cons, List.flatten_cons, streamCalls_append hrest, ih,
      streamCalls_line m htopic hslot hused hcb hsub]
    exact List.filterMap_append.symm

/-- Of a first part of a stream, the callbacks are the first. -/
theorem streamCalls_part (subSlots : List (SubSlot κ)) (s : Option ℕ) {bs stream : Bytes}
    (h : bs <+: stream) : streamCalls subSlots s bs <+: streamCalls subSlots s stream := by
  obtain ⟨rest, rfl⟩ := h
  simp only [streamCalls, feed_append, List.map_append, List.filterMap_append]
  exact List.prefix_append _ _

end Calls

/-! ### From one to the other -/

section Transfer

variable {topic : CStr 64} {subSlots : List (SubSlot κ)} {s : ℕ} {slot : SubSlot κ} {cb : κ}

/-- The callbacks for a first part of the lines of some messages are those of the first messages. -/
theorem callbacksOf_part (htopic : IsWord topic.val) (hslot : subSlots[s]? = some slot)
    (hused : slot.used = true) (hcb : slot.cb = some cb) (hsub : slot.topic = topic)
    {actions : List SubAction} {sock : ℕ} {ms : List (Message topic)}
    (hconn : slotOf sock (subMachine.trace (.init subSlots) actions) = some s)
    (harrived : streamOf sock (subMachine.trace (.init subSlots) actions) <+:
      (ms.map Message.line).flatten) :
    callbacksOf sock (subMachine.trace (.init subSlots) actions) <+: slot.calls cb ms ∧
      (streamOf sock (subMachine.trace (.init subSlots) actions) = (ms.map Message.line).flatten →
        callbacksOf sock (subMachine.trace (.init subSlots) actions) = slot.calls cb ms) := by
  have hall := streamCalls_lines htopic hslot hused hcb hsub ms
  have hcalls := callbacksOf_eq subSlots actions sock
  simp only [hconn] at hcalls
  rw [hcalls, ← streamCalls, ← hall]
  exact ⟨streamCalls_part subSlots (some s) harrived, fun heq => by rw [heq]⟩

/-- A subscriber to which no `send` was cut short has been sent the lines published since it was
accepted. -/
theorem Serving.received_eq {p : Publisher} {events : List PublisherEvent} (h : Serving p events)
    {sock : ℕ} (hserved : sock ∈ p.subSocks)
    (hwhole : ∀ send ∈ sendsTo sock events, send.1.length ≤ send.2.toNat) :
    received sock events = (linesSince sock events).flatten := by
  rw [received, (flatMap_take_eq_iff _).mpr hwhole, h.lines sock hserved]

/-- **Delivery in order.** A publisher has messages of its topic published since it accepted a
subscriber, and no `send` to it was cut short; the subscriber has received a first part of the bytes
that were sent, on a connection of a slot of the topic. Then its callbacks are those of the first
messages, in their order and each once; and they are those of all messages when all bytes have
arrived. -/
theorem delivered_in_order (htopic : IsWord topic.val) (hslot : subSlots[s]? = some slot)
    (hused : slot.used = true) (hcb : slot.cb = some cb) (hsub : slot.topic = topic)
    (pubActions : List PublisherAction) (subActions : List SubAction) {p sock : ℕ}
    (ms : List (Message topic))
    (hserved : p ∈ (publisherMachine.state .init pubActions).subSocks)
    (hlines : linesSince p (publisherMachine.trace .init pubActions) = ms.map Message.line)
    (hwhole : ∀ send ∈ sendsTo p (publisherMachine.trace .init pubActions),
      send.1.length ≤ send.2.toNat)
    (hconn : slotOf sock (subMachine.trace (.init subSlots) subActions) = some s)
    (harrived : streamOf sock (subMachine.trace (.init subSlots) subActions) <+:
      received p (publisherMachine.trace .init pubActions)) :
    callbacksOf sock (subMachine.trace (.init subSlots) subActions) <+: slot.calls cb ms ∧
      (streamOf sock (subMachine.trace (.init subSlots) subActions) =
          received p (publisherMachine.trace .init pubActions) →
        callbacksOf sock (subMachine.trace (.init subSlots) subActions) = slot.calls cb ms) := by
  have hreceived := (serving pubActions).received_eq hserved hwhole
  rw [hlines] at hreceived
  rw [hreceived] at harrived ⊢
  exact callbacksOf_part htopic hslot hused hcb hsub hconn harrived

/-- The command for a self test, published to one subscriber. -/
def upsTestMessage : Message (CStr.copy 63 (ascii "hmi_ups")) where
  state := none
  type := some (ascii "command")
  key := ascii "ups_test"
  value := ascii "1"
  isField_state x hx := by simp at hx
  isField_type := by decide
  isField_key := by decide
  isField_value := by decide
  fits := by decide

theorem delivered_in_order_ups_test :
    let events := subMachine.trace (.init [commandSlot (ascii "ups_test")])
      [.addPub 0 (ascii "hmi") true, .ready 0 upsTestMessage.line]
    callbacksOf 0 events = (commandSlot (ascii "ups_test")).calls () [upsTestMessage] ∧
      callbacksOf 0 events = [((), ascii "hmi_ups", ascii "1")] := by
  intro events
  obtain ⟨hstream, hslot⟩ := streamOf_delivery [commandSlot (ascii "ups_test")] 0 (ascii "hmi")
    upsTestMessage.line (by decide) (by decide)
  have hreceived : received 0 (publisherMachine.trace .init [.poll true,
      .publish upsTestMessage.line fun _ => upsTestMessage.line.length]) = upsTestMessage.line := by
    decide +kernel
  have hall : callbacksOf 0 events = (commandSlot (ascii "ups_test")).calls () [upsTestMessage] :=
    (delivered_in_order (by decide) rfl rfl rfl rfl [.poll true, .publish upsTestMessage.line
      fun _ => upsTestMessage.line.length] _ [upsTestMessage] (by decide +kernel)
      (by decide +kernel) (by decide +kernel) hslot
      (by rw [hstream, hreceived])).2 (hstream.trans hreceived.symm)
  exact ⟨hall, hall.trans (by decide +kernel)⟩

end Transfer

end LoopCharger.Cmos

import LoopCharger.Cmos.Publish

/-!
# The subscriber's parser

`ctx_handle_line` of `cmos_sub.c`: a line is cut into its command, its topic and its data; the data
is cut into words, and of each kind of field the last one is compared with the filters of the slot.

## Main definitions

* `SubSlot`: a subscription, with its filters and its callback.
* `Fields`: the fields found in a message.
* `ctxHandleLine`: the callback that a line leads to, and what it is called with.
* `lineBuffer`: the array that a line is copied to before it is handled.

## Main results

* `parseFields_eq`: of each kind of field, the last one is kept.
* `messageParts_message`: what a message line is read as.
-/

namespace LoopCharger.Cmos

open Lib

/-- A subscription: its topic, its filters, where an empty one is none, and its callback. -/
structure SubSlot (κ : Type) where
  topic : CStr 64
  filterState : CStr 32
  filterType : CStr 32
  filterKey : CStr 32
  cb : Option κ
  used : Bool

/-- The fields of a message, as far as they have come. -/
structure Fields where
  state : Option Bytes
  type : Option Bytes
  key : Option Bytes
  value : Option Bytes
  deriving DecidableEq

def Fields.empty : Fields := ⟨none, none, none, none⟩

/-- A word with one of the tags is the field of this kind from now on. -/
def Fields.scan (f : Fields) (t : Bytes) : Fields :=
  if ascii "state=" <+: t then { f with state := some (t.drop 6) }
  else if ascii "type=" <+: t then { f with type := some (t.drop 5) }
  else if ascii "key=" <+: t then { f with key := some (t.drop 4) }
  else if ascii "value=" <+: t then { f with value := some (t.drop 6) }
  else f

def isSpace (b : UInt8) : Bool := b == space

def isEol (b : UInt8) : Bool := b == carriageReturn || b == newline

def isBlank (b : UInt8) : Bool := b == space || b == carriageReturn || b == newline

/-- The fields of the part of the data that fits into `tmp`. -/
def parseFields (data : Bytes) : Fields := (tokens isSpace (data.take 511)).foldl Fields.scan .empty

/-- A filter lets a field pass if it is empty or equal to the field. -/
def passes (filter : CStr 32) (field : Option Bytes) : Bool :=
  filter.val = [] ∨ field = some filter.val

variable {κ : Type}

/-- What a slot is called back with for a message. -/
def SubSlot.payload (slot : SubSlot κ) (data : Bytes) : Option Bytes :=
  if slot.filterState.val = [] ∧ slot.filterType.val = [] ∧ slot.filterKey.val = [] then some data
  else
    let f := parseFields data
    if ¬ passes slot.filterState f.state then none
    else if ¬ passes slot.filterType f.type then none
    else if ¬ passes slot.filterKey f.key then none
    else if slot.filterKey.val ≠ [] then some (f.value.getD []) else some data

/-- The topic and the data of a line with the command `MSG`. -/
def messageParts (line : Bytes) : Option (Bytes × Bytes) := do
  let (cmd, rest) ← strtok isBlank (cString line)
  if cmd ≠ ascii "MSG" then none
  else
    let (topic, rest) ← strtok isBlank rest
    let (data, _) ← strtok isEol rest
    some (topic, data)

/-- The callback that a line on a connection leads to, with the topic and the data that it gets. -/
def ctxHandleLine (subSlots : List (SubSlot κ)) (subSlot : Option ℕ) (line : Bytes) :
    Option (κ × Bytes × Bytes) := do
  let (topic, data) ← messageParts line
  let s ← subSlot
  let slot ← subSlots[s]?
  if ¬ slot.used then none
  else if topic ≠ slot.topic.val then none
  else
    let cb ← slot.cb
    let payload ← slot.payload data
    some (cb, topic, payload)

/-! ### Fields -/

/-- What a word has behind the tag, if it has the tag. -/
def untag (tag t : Bytes) : Option Bytes := if tag <+: t then some (t.drop tag.length) else none

/-- The last of the words that has the tag. -/
def lastField (tag : Bytes) (ts : List Bytes) : Option Bytes := (ts.filterMap (untag tag)).getLast?

/-- Neither tag begins with the other. -/
def Apart (tag tag' : Bytes) : Prop := ¬ tag <+: tag' ∧ ¬ tag' <+: tag

instance (tag tag' : Bytes) : Decidable (Apart tag tag') := inferInstanceAs (Decidable (_ ∧ _))

@[simp] theorem untag_append (tag s : Bytes) : untag tag (tag ++ s) = some s := by
  rw [untag, if_pos (List.prefix_append tag s), List.drop_left]

/-- A part of a word with one tag does not have another. -/
theorem untag_eq_none {tag tag' s t : Bytes} (h : Apart tag tag') (ht : t <+: tag' ++ s) :
    untag tag t = none := by
  refine if_neg fun hpre => ?_
  rcases List.prefix_or_prefix_of_prefix (hpre.trans ht) (List.prefix_append tag' s) with h' | h'
  · exact h.1 h'
  · exact h.2 h'

/-- A word that is cut off loses its tag, or a part of what is behind it. -/
theorem untag_take (tag s : Bytes) (n : ℕ) :
    untag tag ((tag ++ s).take n) =
      if tag.length ≤ n then some (s.take (n - tag.length)) else none := by
  rw [untag]
  by_cases hn : tag.length ≤ n
  · rw [if_pos hn, List.take_append, List.take_of_length_le hn, if_pos (List.prefix_append _ _),
      List.drop_left]
  · rw [if_neg hn, if_neg fun hpre => hn (hpre.length_le.trans (List.length_take_le _ _))]

theorem eq_of_untag {tag t v : Bytes} (h : untag tag t = some v) : t = tag ++ v := by
  rw [untag] at h
  split_ifs at h with hpre
  obtain ⟨s, rfl⟩ := hpre
  rw [List.drop_left, Option.some.injEq] at h
  rw [h]

theorem mem_of_lastField {tag v : Bytes} {ts : List Bytes} (h : lastField tag ts = some v) :
    tag ++ v ∈ ts := by
  obtain ⟨t, ht, hv⟩ := List.mem_filterMap.mp (List.mem_of_getLast? h)
  exact eq_of_untag hv ▸ ht

theorem lastField_append (tag : Bytes) (ts us : List Bytes) :
    lastField tag (ts ++ us) = (lastField tag us).or (lastField tag ts) := by
  rw [lastField, List.filterMap_append, List.getLast?_append]
  rfl

@[simp] theorem lastField_nil (tag : Bytes) : lastField tag [] = none := rfl

@[simp] theorem lastField_singleton (tag t : Bytes) : lastField tag [t] = untag tag t := by
  rw [lastField, List.filterMap_cons]
  cases untag tag t <;> rfl

/-- A field that each word sets if it has the tag is in the end that of the last such word. -/
theorem foldl_scan (field : Fields → Option Bytes) {tag : Bytes}
    (hstep : ∀ f t, field (f.scan t) = (untag tag t).or (field f)) (ts : List Bytes) (f : Fields) :
    field (ts.foldl Fields.scan f) = (lastField tag ts).or (field f) := by
  induction ts using List.reverseRecOn with
  | nil => rfl
  | append_singleton ts t ih =>
    rw [List.foldl_append, List.foldl_cons, List.foldl_nil, hstep, ih, lastField_append,
      lastField_singleton, Option.or_assoc]

/-- Each word sets the field of its tag, and no other. -/
theorem Fields.scan_eq (f : Fields) (t : Bytes) :
    f.scan t = ⟨(untag (ascii "state=") t).or f.state, (untag (ascii "type=") t).or f.type,
      (untag (ascii "key=") t).or f.key, (untag (ascii "value=") t).or f.value⟩ := by
  have hmiss : ∀ tag, ¬ tag <+: t → untag tag t = none := fun tag h => if_neg h
  have hother : ∀ tag tag', Apart tag tag' → tag' <+: t → untag tag t = none := by
    rintro tag tag' h ⟨s, rfl⟩
    exact untag_eq_none h List.prefix_rfl
  have hstate : ascii "state=" <+: t → untag (ascii "state=") t = some (t.drop 6) :=
    fun h => if_pos h
  have htype : ascii "type=" <+: t → untag (ascii "type=") t = some (t.drop 5) := fun h => if_pos h
  have hkey : ascii "key=" <+: t → untag (ascii "key=") t = some (t.drop 4) := fun h => if_pos h
  have hvalue : ascii "value=" <+: t → untag (ascii "value=") t = some (t.drop 6) :=
    fun h => if_pos h
  rw [scan]
  split_ifs with h₁ h₂ h₃ h₄
  · rw [hstate h₁, hother (ascii "type=") _ (by decide) h₁, hother (ascii "key=") _ (by decide) h₁,
      hother (ascii "value=") _ (by decide) h₁]
    rfl
  · rw [hmiss _ h₁, htype h₂, hother (ascii "key=") _ (by decide) h₂,
      hother (ascii "value=") _ (by decide) h₂]
    rfl
  · rw [hmiss _ h₁, hmiss _ h₂, hkey h₃, hother (ascii "value=") _ (by decide) h₃]
    rfl
  · rw [hmiss _ h₁, hmiss _ h₂, hmiss _ h₃, hvalue h₄]
    rfl
  · rw [hmiss _ h₁, hmiss _ h₂, hmiss _ h₃, hmiss _ h₄]
    rfl

/-- **The fields of a message**: of each kind the last one counts. -/
theorem parseFields_eq (data : Bytes) :
    let ts := tokens isSpace (data.take 511)
    parseFields data = ⟨lastField (ascii "state=") ts, lastField (ascii "type=") ts,
      lastField (ascii "key=") ts, lastField (ascii "value=") ts⟩ := by
  intro ts
  have hscan := Fields.scan_eq
  have hstate := foldl_scan Fields.state (fun f t => by rw [hscan f t]) ts .empty
  have htype := foldl_scan Fields.type (fun f t => by rw [hscan f t]) ts .empty
  have hkey := foldl_scan Fields.key (fun f t => by rw [hscan f t]) ts .empty
  have hvalue := foldl_scan Fields.value (fun f t => by rw [hscan f t]) ts .empty
  rw [parseFields]
  simp only [Fields.empty, Option.or_none] at hstate htype hkey hvalue ⊢
  rw [← hstate, ← htype, ← hkey, ← hvalue]

theorem passes_iff {filter : CStr 32} {field : Option Bytes} :
    passes filter field = true ↔ filter.val = [] ∨ field = some filter.val := by simp [passes]

/-- A slot is called back when all its filters let the message pass. -/
theorem SubSlot.payload_isSome (slot : SubSlot κ) (data : Bytes) :
    (slot.payload data).isSome ↔
      passes slot.filterState (parseFields data).state ∧
        passes slot.filterType (parseFields data).type ∧
        passes slot.filterKey (parseFields data).key := by
  by_cases hnone : slot.filterState.val = [] ∧ slot.filterType.val = [] ∧ slot.filterKey.val = []
  · rw [payload, if_pos hnone]
    simp [passes_iff, hnone]
  · rw [payload, if_neg hnone]
    by_cases hs : passes slot.filterState (parseFields data).state = true <;>
      by_cases ht : passes slot.filterType (parseFields data).type = true <;>
      by_cases hk : passes slot.filterKey (parseFields data).key = true <;>
      by_cases hne : slot.filterKey.val = [] <;> simp [hs, ht, hk, hne]

/-- A slot with a key gets the value. -/
theorem SubSlot.payload_of_filterKey {slot : SubSlot κ} (hkey : slot.filterKey.val ≠ [])
    (data : Bytes) :
    slot.payload data =
      if passes slot.filterState (parseFields data).state ∧
        passes slot.filterType (parseFields data).type ∧
        passes slot.filterKey (parseFields data).key then
        some ((parseFields data).value.getD [])
      else none := by
  rw [payload, if_neg fun h => hkey h.2.2]
  by_cases hs : passes slot.filterState (parseFields data).state = true <;>
    by_cases ht : passes slot.filterType (parseFields data).type = true <;>
    by_cases hk : passes slot.filterKey (parseFields data).key = true <;> simp [hs, ht, hk, hkey]

/-! ### The array of a line -/

/-- The array `line`, after at most 511 bytes of a line and a NUL are stored. -/
def lineBuffer (l : Bytes) : Bytes :=
  let ll := if l.length ≥ 512 then 511 else l.length
  storeAt (storeAt (List.replicate 512 0) 0 (l.take ll)) ll [0]

theorem lineBuffer_eq (l : Bytes) :
    lineBuffer l = l.take 511 ++ 0 :: List.replicate (511 - (l.take 511).length) 0 := by
  have hll : l.take (if l.length ≥ 512 then 511 else l.length) = l.take 511 := by
    split_ifs with h
    · rfl
    · rw [List.take_length, List.take_of_length_le (by omega)]
  have hlen : (if l.length ≥ 512 then 511 else l.length) = (l.take 511).length := by
    rw [List.length_take]
    split_ifs <;> omega
  rw [lineBuffer, hll, hlen, storeAt_storeAt, storeAt_zero, List.drop_replicate]
  simp only [List.length_append, List.length_singleton, List.append_assoc, List.singleton_append]
  congr 3
  omega

/-- No write leaves the array of a line. -/
theorem length_lineBuffer (l : Bytes) : (lineBuffer l).length = 512 := by
  have h : (l.take 511).length ≤ 511 := List.length_take_le _ _
  rw [lineBuffer_eq, List.length_append, List.length_cons, List.length_replicate]
  omega

theorem cString_lineBuffer {l : Bytes} (h : 0 ∉ l) : cString (lineBuffer l) = l.take 511 := by
  rw [lineBuffer_eq]
  exact cString_append_zero (fun hmem => h (List.mem_of_mem_take hmem)) _

/-! ### The line of a message -/

/-- A text that stands in a line of its own: it has no NUL, no CR and no LF. -/
def IsText (s : Bytes) : Prop := ∀ b ∈ s, b ≠ 0 ∧ b ≠ carriageReturn ∧ b ≠ newline

/-- A text without a space. -/
def IsField (s : Bytes) : Prop := ∀ b ∈ s, b ≠ 0 ∧ b ≠ carriageReturn ∧ b ≠ newline ∧ b ≠ space

/-- A field that is not empty. -/
def IsWord (s : Bytes) : Prop := s ≠ [] ∧ IsField s

instance (s : Bytes) : Decidable (IsText s) := List.decidableBAll _ s

instance (s : Bytes) : Decidable (IsField s) := List.decidableBAll _ s

instance (s : Bytes) : Decidable (IsWord s) := inferInstanceAs (Decidable (_ ∧ _))

theorem IsField.isSpace_eq_false {s : Bytes} (h : IsField s) : ∀ b ∈ s, isSpace b = false :=
  fun b hb => by simpa [isSpace] using (h b hb).2.2.2

theorem IsField.isText {s : Bytes} (h : IsField s) : IsText s :=
  fun b hb => ⟨(h b hb).1, (h b hb).2.1, (h b hb).2.2.1⟩

theorem IsText.append {s t : Bytes} (hs : IsText s) (ht : IsText t) : IsText (s ++ t) :=
  fun b hb => (List.mem_append.mp hb).elim (hs b) (ht b)

theorem IsWord.isToken_isBlank {s : Bytes} (h : IsWord s) : IsToken isBlank s :=
  ⟨h.1, fun b hb => by simp [isBlank, h.2 b hb]⟩

theorem IsText.isToken_isEol {s : Bytes} (h : IsText s) (hne : s ≠ []) : IsToken isEol s :=
  ⟨hne, fun b hb => by simpa [isEol] using (h b hb).2⟩

/-- The string in the array of a message line. -/
theorem take_messageLine {topic : Bytes} (hlen : topic.length < 64) (data : Bytes) :
    (messageLine topic data).take 511 = ascii "MSG" ++ space ::
      (topic ++ space :: (data ++ [newline]).take (506 - topic.length)) := by
  have hcmd : ascii "MSG " = ascii "MSG" ++ [space] := by decide
  have hsep : ascii " " = [space] := by decide
  have hthree : (ascii "MSG").length = 3 := by decide
  rw [messageLine, List.take_take, hcmd, hsep]
  simp only [List.append_assoc, List.cons_append, List.nil_append]
  have htopic : topic.take 507 = topic := List.take_of_length_le (by omega)
  have hrest : 507 - topic.length = 506 - topic.length + 1 := by omega
  rw [List.take_append, hthree, List.take_of_length_le (by omega),
    show min 511 1023 - 3 = 507 + 1 from rfl, List.take_succ_cons, List.take_append, htopic,
    hrest, List.take_succ_cons]

/-- **What a message line is read as**: the topic, and the data as far as it fits into the array. -/
theorem messageParts_message {topic data : Bytes} (htopic : IsWord topic)
    (hlen : topic.length < 64) (hdata : IsText data) (hne : data ≠ []) :
    messageParts (lineBuffer (messageLine topic data)) =
      some (topic, data.take (506 - topic.length)) := by
  have hzero : 0 ∉ messageLine topic data := by
    intro h
    have hmem := List.mem_of_mem_take h
    simp only [List.mem_append] at hmem
    rcases hmem with (((hcmd | h) | hsep) | h) | hnl
    · exact absurd hcmd (by decide)
    · exact (htopic.2 0 h).1 rfl
    · exact absurd hsep (by decide)
    · exact (hdata 0 h).1 rfl
    · exact absurd hnl (by decide)
  have hcmd : IsToken isBlank (ascii "MSG") := IsWord.isToken_isBlank (by decide)
  have htake : IsToken isEol (data.take (506 - topic.length)) :=
    (hdata.isToken_isEol hne).take (by omega)
  have hlast : strtok isEol ((data ++ [newline]).take (506 - topic.length)) =
      some (data.take (506 - topic.length), []) := by
    by_cases hshort : data.length < 506 - topic.length
    · rw [List.take_of_length_le (l := data) (by omega)] at htake ⊢
      rw [List.take_of_length_le (by rw [List.length_append, List.length_singleton]; omega)]
      exact strtok_word_cons htake rfl []
    · rw [List.take_append_of_le_length (Nat.not_lt.mp hshort)]
      exact strtok_word htake
  have hspace : isBlank space = true := rfl
  rw [messageParts, cString_lineBuffer hzero, take_messageLine hlen,
    strtok_word_cons hcmd hspace]
  simp only [Option.bind_eq_bind, Option.bind_some, ne_eq, not_true_eq_false, if_false,
    strtok_word_cons htopic.isToken_isBlank hspace, hlast]

end LoopCharger.Cmos

import LoopCharger.Cmos.Publish
import LoopCharger.Lib.Stores

/-!
# The line of a message

`cmos_publish` of `cmos_pub.c` up to its sends, call by call of `snprintf`: where each call writes,
the size that it is given, and what the calls leave in `data`, an array on the stack that is not
initialised. A call is known by the text that its format makes. `pos` is an `int`, and so is what
`snprintf` returns.

## Main definitions

* `SnprintfCall`, `publishCalls`: the calls of `snprintf`.
* `publishedLine`: the line that is sent, for any contents of `data` and of what lies behind it.
* `PublishSound`: the calls stay in the array, and the line does not depend on its contents.
* `InRoom`: every field begins in the array.

## Main results

* `holds_of_encodeData`: `encodeData` is what the calls leave in the array.
* `publish_sound_iff`: the messages that are sound.
-/

namespace LoopCharger.Cmos

open Lib

/-! ### The calls -/

/-- A call of `snprintf(data + offset, size, ...)`. -/
structure SnprintfCall where
  offset : ℤ
  size : UInt64
  piece : Bytes

/-- What `snprintf` returns: the length of the text, or an error when no `int` holds it. -/
def snprintfResult (piece : Bytes) : ℤ := if piece.length ≤ 0x7FFFFFFF then piece.length else -1

/-- The variable `pos`, and the calls made so far. -/
structure PublishVars where
  pos : ℤ
  calls : List SnprintfCall

/-- `pos += snprintf(data + pos, sizeof(data) - pos, ...)`. -/
def PublishVars.snprintf (v : PublishVars) (piece : Bytes) : PublishVars :=
  ⟨(v.pos + snprintfResult piece).bmod 0x100000000, v.calls ++ [⟨v.pos, 896 - .ofInt v.pos, piece⟩]⟩

/-- A call that is made when an argument is not `NULL`. -/
def PublishVars.optional (v : PublishVars) (piece : Bytes → Bytes) : Option Bytes → PublishVars
  | none => v
  | some s => v.snprintf (piece s)

def PublishVars.sep (v : PublishVars) : Bytes := if v.pos ≠ 0 then [space] else []

def PublishVars.init : PublishVars := ⟨0, []⟩

/-- The variables before the value. -/
def fieldVars (state type key : Option Bytes) : PublishVars :=
  let v := PublishVars.init.optional (ascii "state=" ++ ·) state
  let v := v.optional (v.sep ++ ascii "type=" ++ ·) type
  v.optional (v.sep ++ ascii "key=" ++ ·) key

/-- The variables when the line is made. -/
def publishVars (state type key value : Option Bytes) : PublishVars :=
  let v := fieldVars state type key
  v.optional (fun s => if v.pos ≠ 0 then ascii " value=" ++ s else s) value

def publishCalls (state type key value : Option Bytes) : List SnprintfCall :=
  (publishVars state type key value).calls

/-- The memory from `data` on after a call, which ends what it writes with a NUL. What it writes
before the array is left out. -/
def SnprintfCall.run (data : ℕ → UInt8) (c : SnprintfCall) : ℕ → UInt8 :=
  if c.size = 0 then data
  else
    stored data (block c.offset.toNat
      ((c.piece.take (c.size.toNat - 1) ++ [0]).drop (-c.offset).toNat))

/-- The line that is sent, when `data` is the memory from the array on. No more of the string in the
array than what the line has room for is read. -/
def publishedLine (pubTopic : CStr 64) (data : ℕ → UInt8) (state type key value : Option Bytes) :
    Bytes :=
  let data := (publishCalls state type key value).foldl SnprintfCall.run data
  messageLine pubTopic.val (cString ((List.range 1023).map data))

/-- The calls stay in the array. -/
def CallsFit (calls : List SnprintfCall) : Prop :=
  ∀ c ∈ calls, 0 ≤ c.offset ∧ c.offset ≤ 896 ∧ c.size.toNat = 896 - c.offset

theorem toNat_size {pos : ℤ} (h0 : 0 ≤ pos) (h : pos ≤ 896) :
    (896 - UInt64.ofInt pos).toNat = 896 - pos := by
  rw [UInt64.toNat_sub, UInt64.ofInt, UInt64.toNat_ofNat']
  simp only [UInt64.reduceToNat]
  omega

/-- One more call stays in the array when it begins in it. -/
theorem callsFit_snprintf {v : PublishVars} {piece : Bytes} :
    CallsFit (v.snprintf piece).calls ↔ CallsFit v.calls ∧ 0 ≤ v.pos ∧ v.pos ≤ 896 := by
  simp only [CallsFit, PublishVars.snprintf, List.forall_mem_append, List.forall_mem_singleton]
  exact and_congr_right fun _ => ⟨fun h => ⟨h.1, h.2.1⟩, fun h => ⟨h.1, h.2, toNat_size h.1 h.2⟩⟩

/-! ### The string in the array -/

/-- The calls leave a string in the array, and `pos` is not behind its end, unless the array is
full. -/
structure Holds (v : PublishVars) (text : Bytes) : Prop where
  short : text.length ≤ 895
  reach : v.pos ≤ text.length ∨ text.length = 895
  begins : v.calls ≠ [] → ∀ data, BeginsWith (v.calls.foldl SnprintfCall.run data) (text ++ [0])
  empty : v.calls = [] → text = []

theorem holds_init : Holds .init [] where
  short := Nat.zero_le _
  reach := .inl (Int.le_refl 0)
  begins h := absurd rfl h
  empty _ := rfl

theorem bmod_le {x : ℤ} (hx : -1 ≤ x) : x.bmod 0x100000000 ≤ x := by
  rw [Int.bmod_def]
  split_ifs <;> omega

theorem snprintfResult_bounds (piece : Bytes) :
    -1 ≤ snprintfResult piece ∧ snprintfResult piece ≤ piece.length ∧
      snprintfResult piece ≤ 0x7FFFFFFF := by
  rw [snprintfResult]
  split_ifs <;> omega

/-- What stands before `pos` in the array. -/
theorem Holds.beginsWith_take {v : PublishVars} {text : Bytes} (h : Holds v text)
    (data : ℕ → UInt8) (n : ℕ) :
    BeginsWith (v.calls.foldl SnprintfCall.run data) (text.take n) := by
  by_cases hcalls : v.calls = []
  · rw [h.empty hcalls, List.take_nil]
    exact BeginsWith.nil _
  · have hbegins := h.begins hcalls data
    rw [← List.take_append_drop n text, List.append_assoc] at hbegins
    exact hbegins.of_append

/-- A call that begins in the array puts its text where it begins. -/
theorem Holds.snprintf {v : PublishVars} {text : Bytes} (h : Holds v text) (h0 : 0 ≤ v.pos)
    (hpos : v.pos ≤ 896) (piece : Bytes) :
    Holds (v.snprintf piece) (text.take v.pos.toNat ++ piece.take (895 - v.pos.toNat)) := by
  obtain ⟨hlow, hle, -⟩ := snprintfResult_bounds piece
  have hshort := h.short
  have hreach := h.reach
  have hsize := toNat_size h0 hpos
  refine ⟨?_, ?_, fun _ data => ?_, fun hnil => absurd hnil (by simp [PublishVars.snprintf])⟩
  · simp only [List.length_append, List.length_take]
    omega
  · have hbmod := bmod_le (x := v.pos + snprintfResult piece) (by omega)
    simp only [PublishVars.snprintf, List.length_append, List.length_take]
    omega
  · have hbefore := h.beginsWith_take data v.pos.toNat
    simp only [PublishVars.snprintf, List.foldl_append, List.foldl_cons, List.foldl_nil]
    by_cases hfull : v.pos = 896
    · -- a size of zero: nothing is written
      have hzero : 896 - UInt64.ofInt v.pos = 0 := by rw [hfull]; rfl
      have hcalls : v.calls ≠ [] := fun hnil => by
        rw [h.empty hnil, List.length_nil] at hreach
        omega
      rw [SnprintfCall.run, if_pos hzero, hfull, List.take_of_length_le (by omega)]
      simpa using h.begins hcalls data
    · have hne : 896 - UInt64.ofInt v.pos ≠ 0 := fun hzero => by
        rw [hzero, UInt64.toNat_zero] at hsize
        omega
      have hlen : (text.take v.pos.toNat).length = v.pos.toNat := by
        rw [List.length_take]
        omega
      have hroom : (896 - UInt64.ofInt v.pos).toNat - 1 = 895 - v.pos.toNat := by omega
      have hdrop : (-v.pos).toNat = 0 := by omega
      have hstored := hbefore.stored_block (piece.take (895 - v.pos.toNat) ++ [0])
      rw [SnprintfCall.run, if_neg hne]
      dsimp only
      rw [hroom, hdrop, List.drop_zero, List.append_assoc]
      rwa [hlen] at hstored

/-! ### Room for the fields -/

/-- The fields that are given before the value. -/
def keyFields (state type key : Option Bytes) : List Bytes :=
  (state.map (ascii "state=" ++ ·)).toList ++ (type.map (ascii "type=" ++ ·)).toList ++
    (key.map (ascii "key=" ++ ·)).toList

/-- The fields that are given. A value alone has no tag. -/
def messageFields (state type key value : Option Bytes) : List Bytes :=
  let ws := keyFields state type key
  ws ++ (value.map fun s => if ws = [] then s else ascii "value=" ++ s).toList

/-- What fields with a space before each add to `pos`. -/
def takenBehind : List Bytes → ℤ
  | [] => 0
  | w :: ws => snprintfResult (space :: w) + takenBehind ws

/-- What `pos` comes to with the fields: their lengths, and one for each space between them. A field
whose length no `int` holds is one less. -/
def taken : List Bytes → ℤ
  | [] => 0
  | w :: ws => snprintfResult w + takenBehind ws

/-- Every field begins in the array. -/
def InRoom (ws : List Bytes) : Prop :=
  ∀ k < ws.length, 0 ≤ taken (ws.take k) ∧ taken (ws.take k) ≤ 896

theorem takenBehind_concat (ws : List Bytes) (w : Bytes) :
    takenBehind (ws ++ [w]) = takenBehind ws + snprintfResult (space :: w) := by
  induction ws with
  | nil => simp [takenBehind]
  | cons v ws ih => rw [List.cons_append, takenBehind, takenBehind, ih, Int.add_assoc]

theorem taken_concat (ws : List Bytes) (w : Bytes) :
    taken (ws ++ [w]) = taken ws + snprintfResult (if ws = [] then w else space :: w) := by
  cases ws with
  | nil => simp [taken, takenBehind]
  | cons v ws =>
    rw [List.cons_append, taken, taken, takenBehind_concat, if_neg (List.cons_ne_nil v ws),
      Int.add_assoc]

theorem inRoom_concat {ws : List Bytes} {w : Bytes} :
    InRoom (ws ++ [w]) ↔ InRoom ws ∧ 0 ≤ taken ws ∧ taken ws ≤ 896 := by
  have htake : ∀ k ≤ ws.length, (ws ++ [w]).take k = ws.take k := fun k hk =>
    List.take_append_of_le_length hk
  rw [InRoom, List.length_append, List.length_singleton]
  constructor
  · intro h
    refine ⟨fun k hk => ?_, ?_⟩
    · rw [← htake k (Nat.le_of_lt hk)]
      exact h k (Nat.lt_succ_of_lt hk)
    · have hall := h ws.length (Nat.lt_succ_self _)
      rwa [htake _ (Nat.le_refl _), List.take_length] at hall
  · rintro ⟨hroom, hall⟩ k hk
    rw [htake k (Nat.le_of_lt_succ hk)]
    rcases Nat.lt_succ_iff_lt_or_eq.mp hk with hlt | rfl
    · exact hroom k hlt
    · rwa [List.take_length]

/-- What `pos` can come to. -/
theorem InRoom.taken_bounds {ws : List Bytes} (h : InRoom ws) :
    -1 ≤ taken ws ∧ taken ws ≤ 896 + 0x7FFFFFFF := by
  rcases List.eq_nil_or_concat ws with rfl | ⟨ws, w, rfl⟩
  · exact ⟨by decide, by decide⟩
  · rw [List.concat_eq_append] at h ⊢
    obtain ⟨-, h0, hle⟩ := inRoom_concat.mp h
    have := snprintfResult_bounds (if ws = [] then w else space :: w)
    rw [taken_concat]
    omega

/-- A field that is not empty is counted by its length, or as one less. -/
theorem snprintfResult_ne {w : Bytes} {n : ℕ} (hw : n ≤ w.length) :
    snprintfResult w = -1 ∨ (n : ℤ) ≤ snprintfResult w := by
  rw [snprintfResult]
  split_ifs
  · exact .inr (by omega)
  · exact .inl rfl

theorem neg_length_le_takenBehind (ws : List Bytes) : -(ws.length : ℤ) ≤ takenBehind ws := by
  induction ws with
  | nil => exact Int.le_refl 0
  | cons w ws ih =>
    have := (snprintfResult_bounds (space :: w)).1
    rw [takenBehind, List.length_cons]
    omega

/-- `pos` is zero only before the first field. -/
theorem InRoom.taken_eq_zero {ws : List Bytes} (h : InRoom ws) (hws : ∀ w ∈ ws, 4 ≤ w.length)
    (hlen : ws.length ≤ 3) : taken ws = 0 ↔ ws = [] := by
  refine ⟨fun hzero => ?_, fun hnil => by rw [hnil]; rfl⟩
  cases ws with
  | nil => rfl
  | cons w ws =>
    exfalso
    have hsum := neg_length_le_takenBehind ws
    rw [taken] at hzero
    rw [List.length_cons] at hlen
    rcases snprintfResult_ne (hws w List.mem_cons_self) with hbig | hlow
    · cases ws with
      | nil =>
        rw [takenBehind] at hzero
        omega
      | cons v ws =>
        have hfirst := (h 1 (by simp)).1
        simp only [List.take_succ_cons, List.take_zero, taken, takenBehind] at hfirst
        omega
    · omega

theorem bmod_eq_zero {x : ℤ} (hx : -1 ≤ x ∧ x ≤ 896 + 0x7FFFFFFF) :
    x.bmod 0x100000000 = 0 ↔ x = 0 := by
  rw [Int.bmod_def]
  split_ifs <;> omega

/-- Overflow does not take `pos` back into the array. -/
theorem bmod_in_room {x : ℤ} (hx : -1 ≤ x ∧ x ≤ 896 + 0x7FFFFFFF) :
    0 ≤ x.bmod 0x100000000 ∧ x.bmod 0x100000000 ≤ 896 ↔ 0 ≤ x ∧ x ≤ 896 := by
  rw [Int.bmod_def]
  split_ifs <;> omega

/-- The variables after the calls for the fields `ws`. -/
structure Tracks (ws : List Bytes) (v : PublishVars) : Prop where
  fit : CallsFit v.calls ↔ InRoom ws
  pos : InRoom ws → v.pos = (taken ws).bmod 0x100000000
  calls : v.calls = [] ↔ ws = []
  holds : InRoom ws → ∃ text, Holds v text

theorem tracks_init : Tracks [] .init where
  fit := ⟨fun _ k hk => absurd hk (Nat.not_lt_zero k), fun _ _ hc => absurd hc List.not_mem_nil⟩
  pos _ := rfl
  calls := ⟨fun _ => rfl, fun _ => rfl⟩
  holds _ := ⟨[], holds_init⟩

theorem Tracks.pos_in_room {ws : List Bytes} {v : PublishVars} (h : Tracks ws v)
    (hroom : InRoom ws) : 0 ≤ v.pos ∧ v.pos ≤ 896 ↔ 0 ≤ taken ws ∧ taken ws ≤ 896 := by
  rw [h.pos hroom, bmod_in_room hroom.taken_bounds]

theorem Tracks.pos_eq_zero {ws : List Bytes} {v : PublishVars} (h : Tracks ws v)
    (hroom : InRoom ws) (hws : ∀ w ∈ ws, 4 ≤ w.length) (hlen : ws.length ≤ 3) :
    v.pos = 0 ↔ ws = [] := by
  rw [h.pos hroom, bmod_eq_zero hroom.taken_bounds, hroom.taken_eq_zero hws hlen]

/-- One more field is one more call. -/
theorem Tracks.snprintf {ws : List Bytes} {v : PublishVars} (h : Tracks ws v) {w piece : Bytes}
    (hpiece : InRoom ws → piece = if ws = [] then w else space :: w) :
    Tracks (ws ++ [w]) (v.snprintf piece) where
  fit := by
    rw [callsFit_snprintf, inRoom_concat, h.fit]
    exact and_congr_right h.pos_in_room
  pos hroom := by
    have hbefore := (inRoom_concat.mp hroom).1
    rw [taken_concat, ← hpiece hbefore, PublishVars.snprintf, h.pos hbefore]
    exact Int.bmod_add_bmod
  calls := by simp [PublishVars.snprintf]
  holds hroom := by
    obtain ⟨hbefore, hlast⟩ := inRoom_concat.mp hroom
    obtain ⟨text, htext⟩ := h.holds hbefore
    obtain ⟨h0, hle⟩ := (h.pos_in_room hbefore).mpr hlast
    exact ⟨_, htext.snprintf h0 hle piece⟩

/-- A field with a tag. -/
theorem Tracks.field {ws : List Bytes} {v : PublishVars} (h : Tracks ws v)
    (hws : ∀ w ∈ ws, 4 ≤ w.length) (hlen : ws.length ≤ 3) (tag : Bytes) (o : Option Bytes) :
    Tracks (ws ++ (o.map (tag ++ ·)).toList) (v.optional (v.sep ++ tag ++ ·) o) := by
  cases o with
  | none => simpa [PublishVars.optional] using h
  | some s =>
    refine h.snprintf fun hroom => ?_
    simp only [PublishVars.sep, ite_not, h.pos_eq_zero hroom hws hlen]
    split_ifs <;> rfl

theorem length_of_mem_keyFields {state type key : Option Bytes} {w : Bytes}
    (hw : w ∈ keyFields state type key) : 4 ≤ w.length := by
  have htag : ∀ (tag : String) (o : Option Bytes), 4 ≤ (ascii tag).length →
      w ∈ (o.map (ascii tag ++ ·)).toList → 4 ≤ w.length := by
    intro tag o htag hw
    obtain ⟨s, -, rfl⟩ := Option.map_eq_some_iff.mp (Option.mem_toList.mp hw)
    rw [List.length_append]
    omega
  simp only [keyFields, List.mem_append] at hw
  rcases hw with (hw | hw) | hw
  · exact htag _ state (by decide) hw
  · exact htag _ type (by decide) hw
  · exact htag _ key (by decide) hw

theorem length_keyFields_le (state type key : Option Bytes) :
    (keyFields state type key).length ≤ 3 := by
  cases state <;> cases type <;> cases key <;> simp [keyFields]

theorem tracks_fieldVars (state type key : Option Bytes) :
    Tracks (keyFields state type key) (fieldVars state type key) := by
  have hlong := @length_of_mem_keyFields state type key
  have hlen := length_keyFields_le state type key
  simp only [keyFields, List.mem_append, List.length_append] at hlong hlen
  have hstate : Tracks (state.map (ascii "state=" ++ ·)).toList
      (PublishVars.init.optional (ascii "state=" ++ ·) state) :=
    tracks_init.field (by simp) (by simp) (ascii "state=") state
  have htype := hstate.field (fun w hw => hlong (.inl (.inl hw))) (by omega) (ascii "type=") type
  exact htype.field (fun w hw => hlong (.inl (List.mem_append.mp hw)))
    (by rw [List.length_append]; omega) (ascii "key=") key

/-- The calls of a message. -/
theorem tracks_publishVars (state type key value : Option Bytes) :
    Tracks (messageFields state type key value) (publishVars state type key value) := by
  have hfields := tracks_fieldVars state type key
  cases value with
  | none => simpa [messageFields, publishVars, PublishVars.optional] using hfields
  | some s =>
    refine hfields.snprintf fun hroom => ?_
    simp only [ite_not, hfields.pos_eq_zero hroom (fun w => length_of_mem_keyFields)
      (length_keyFields_le state type key)]
    split_ifs <;> rfl

/-! ### The array of `encodeData` -/

/-- The variables and the array of `encodeData`. -/
structure Agrees (v : PublishVars) (b : DataBuf) : Prop where
  pos : v.pos = (b.pos : ℤ).bmod 0x100000000
  bound : b.pos ≤ 896 + 0x7FFFFFFF
  calls : v.calls = [] ↔ b.text = none
  holds : Holds v (b.text.getD [])
  length : (b.text.getD []).length = min b.pos 895

theorem agrees_init : Agrees .init .empty where
  pos := by simp [PublishVars.init, DataBuf.empty]
  bound := by simp [DataBuf.empty]
  calls := ⟨fun _ => rfl, fun _ => rfl⟩
  holds := holds_init
  length := (Nat.zero_min 895).symm

theorem Agrees.pos_eq_zero {v : PublishVars} {b : DataBuf} (h : Agrees v b) :
    v.pos = 0 ↔ b.pos = 0 := by
  have hbound := h.bound
  rw [h.pos, bmod_eq_zero (by omega)]
  omega

theorem Agrees.snprintf {v : PublishVars} {b b' : DataBuf} (h : Agrees v b) {piece : Bytes}
    (hpiece : piece.length ≤ 0x7FFFFFFF) (hb : b.snprintf piece = some b') :
    Agrees (v.snprintf piece) b' := by
  have hlength := h.length
  have hle : b.pos ≤ 896 := by
    by_contra hover
    rw [DataBuf.snprintf, if_pos (Nat.not_le.mp hover)] at hb
    exact absurd hb (by simp)
  have hpos : v.pos = b.pos := by
    rw [h.pos, Int.bmod_def]
    split_ifs <;> omega
  have hnext : (v.snprintf piece).pos = ((b.pos + piece.length : ℕ) : ℤ).bmod 0x100000000 := by
    rw [PublishVars.snprintf, hpos, snprintfResult, if_pos hpiece, Int.natCast_add]
  have hholds := h.holds.snprintf (by omega) (by omega) piece
  rw [hpos, Int.toNat_natCast] at hholds
  have hnil : (v.snprintf piece).calls ≠ [] := by simp [PublishVars.snprintf]
  rw [DataBuf.snprintf, if_neg (Nat.not_lt.mpr hle)] at hb
  split_ifs at hb with hfull
  · obtain rfl := Option.some.inj hb
    have htext : b.text ≠ none := fun hnone => by
      rw [hnone, hfull] at hlength
      exact absurd hlength (by decide)
    have hnothing : 895 - b.pos = 0 := by omega
    rw [hnothing, List.take_zero, List.append_nil, List.take_of_length_le (by omega)] at hholds
    exact ⟨hnext, by dsimp only; omega, iff_of_false hnil htext, hholds, by dsimp only; omega⟩
  · obtain rfl := Option.some.inj hb
    rw [List.take_of_length_le (by omega)] at hholds
    refine ⟨hnext, by dsimp only; omega, iff_of_false hnil (by simp), hholds, ?_⟩
    simp only [Option.getD_some, List.length_append, List.length_take]
    omega

/-- The next field. -/
theorem Agrees.field {v : PublishVars} {b b' : DataBuf} (h : Agrees v b) {tag : Bytes}
    {o : Option Bytes} (ho : ∀ s ∈ o, tag.length + s.length + 1 ≤ 0x7FFFFFFF)
    (hb : b.optional (b.sep ++ tag ++ ·) o = some b') :
    Agrees (v.optional (v.sep ++ tag ++ ·) o) b' := by
  have hsep : v.sep = b.sep := by
    simp only [PublishVars.sep, DataBuf.sep, ne_eq, h.pos_eq_zero]
  have hlen : b.sep.length ≤ 1 := by
    rw [DataBuf.sep]
    split_ifs <;> simp
  cases o with
  | none =>
    obtain rfl := Option.some.inj hb
    exact h
  | some s =>
    have hs := ho s rfl
    rw [PublishVars.optional, hsep]
    exact h.snprintf (by simp only [List.length_append]; omega) hb

/-- The fields before the value. -/
theorem agrees_putFields {state type key : Option Bytes} {b : DataBuf}
    (hshort : ∀ o ∈ [state, type, key], ∀ s ∈ o, s.length + 7 ≤ 0x7FFFFFFF)
    (h : putFields state type key = some b) : Agrees (fieldVars state type key) b := by
  obtain ⟨b₁, h₁, h⟩ := Option.bind_eq_some_iff.mp h
  obtain ⟨b₂, h₂, h₃⟩ := Option.bind_eq_some_iff.mp h
  have htag : ∀ o ∈ [state, type, key], ∀ tag : Bytes, tag.length ≤ 6 →
      ∀ s ∈ o, tag.length + s.length + 1 ≤ 0x7FFFFFFF := fun o ho tag htag s hs => by
    have := hshort o ho s hs
    omega
  have hstate : Agrees (PublishVars.init.optional (ascii "state=" ++ ·) state) b₁ :=
    agrees_init.field (htag state (by simp) _ (by decide)) h₁
  have htype := hstate.field (htag type (by simp) (ascii "type=") (by decide)) h₂
  exact htype.field (htag key (by simp) (ascii "key=") (by decide)) h₃

/-- **What the calls leave in the array** is the string of the message, and a NUL. -/
theorem holds_of_encodeData {state type key value : Option Bytes} {text : Bytes}
    (hshort : ∀ o ∈ [state, type, key, value], ∀ s ∈ o, s.length + 7 ≤ 0x7FFFFFFF)
    (h : encodeData state type key value = some text) :
    Holds (publishVars state type key value) text ∧ publishCalls state type key value ≠ [] := by
  obtain ⟨b, hfields, h⟩ := Option.bind_eq_some_iff.mp h
  obtain ⟨b', hvalue, htext⟩ := Option.bind_eq_some_iff.mp h
  have hb := agrees_putFields (fun o ho => hshort o (by simp at ho ⊢; tauto)) hfields
  have hb' : Agrees (publishVars state type key value) b' := by
    cases value with
    | none =>
      obtain rfl := Option.some.inj hvalue
      exact hb
    | some s =>
      have hs := hshort (some s) (by simp) s rfl
      have htag : (ascii " value=").length = 7 := rfl
      have hpiece : (if b.pos ≠ 0 then ascii " value=" ++ s else s).length ≤ 0x7FFFFFFF := by
        split_ifs
        · rw [List.length_append]
          omega
        · omega
      have hsame : publishVars state type key (some s) =
          (fieldVars state type key).snprintf (if b.pos ≠ 0 then ascii " value=" ++ s else s) := by
        simp only [publishVars, PublishVars.optional, ne_eq, hb.pos_eq_zero]
      rw [hsame]
      exact hb.snprintf hpiece hvalue
  refine ⟨by simpa [htext] using hb'.holds, mt hb'.calls.mp (by simp [htext])⟩

/-! ### The line -/

/-- What stands behind the NUL is not read. -/
theorem cString_of_beginsWith {data : ℕ → UInt8} {text : Bytes}
    (h : BeginsWith data (text ++ [0])) {n : ℕ} (hn : text.length < n) :
    cString ((List.range n).map data) = cString text := by
  induction text generalizing data n with
  | nil =>
    obtain ⟨m, rfl⟩ := Nat.exists_eq_succ_of_ne_zero (Nat.ne_of_gt hn)
    have hzero : data 0 = 0 := h 0 Nat.zero_lt_one
    rw [List.range_succ_eq_map, List.map_cons, hzero]
    rfl
  | cons a text ih =>
    obtain ⟨m, rfl⟩ := Nat.exists_eq_succ_of_ne_zero (Nat.ne_of_gt (Nat.zero_lt_of_lt hn))
    have hfirst : data 0 = a := h 0 (Nat.zero_lt_succ _)
    have hrest : BeginsWith (data ∘ Nat.succ) (text ++ [0]) := fun i hi =>
      h (i + 1) (Nat.succ_lt_succ hi)
    have hcut := ih hrest (Nat.lt_of_succ_lt_succ hn)
    rw [List.range_succ_eq_map, List.map_cons, List.map_map, hfirst, cString_cons, cString_cons,
      hcut]

/-- The line is made of the string that the calls leave. -/
theorem publishedLine_of_holds {state type key value : Option Bytes} {text : Bytes}
    (h : Holds (publishVars state type key value) text)
    (hcalls : publishCalls state type key value ≠ []) (pubTopic : CStr 64) (data : ℕ → UInt8) :
    publishedLine pubTopic data state type key value =
      messageLine pubTopic.val (cString text) := by
  have hshort := h.short
  have hcut := cString_of_beginsWith (h.begins hcalls data) (n := 1023) (by omega)
  rw [publishedLine, publishCalls, hcut]

/-- The line is the one of `encodeData`. -/
theorem publishedLine_of_encodeData {state type key value : Option Bytes} {text : Bytes}
    (hshort : ∀ o ∈ [state, type, key, value], ∀ s ∈ o, s.length + 7 ≤ 0x7FFFFFFF)
    (h : encodeData state type key value = some text) (pubTopic : CStr 64) (data : ℕ → UInt8) :
    publishedLine pubTopic data state type key value = messageLine pubTopic.val (cString text) := by
  obtain ⟨hholds, hcalls⟩ := holds_of_encodeData hshort h
  exact publishedLine_of_holds hholds hcalls pubTopic data

/-- Without a call, the line is made of what is in the array before. -/
theorem publishedLine_of_nil {state type key value : Option Bytes}
    (hcalls : publishCalls state type key value = []) (pubTopic : CStr 64) (data : ℕ → UInt8) :
    publishedLine pubTopic data state type key value =
      messageLine pubTopic.val (cString ((List.range 1023).map data)) := by
  rw [publishedLine, hcalls, List.foldl_nil]

theorem length_cString_le (s : Bytes) : (cString s).length ≤ s.length :=
  (List.takeWhile_sublist _).length_le

/-- A line with a string of the array is not cut off. -/
theorem messageLine_eq {pubTopic : CStr 64} {text : Bytes} (h : text.length ≤ 895) :
    messageLine pubTopic.val text =
      ascii "MSG " ++ pubTopic.val ++ ascii " " ++ text ++ [newline] := by
  have htopic := pubTopic.short
  have hmsg : (ascii "MSG ").length = 4 := rfl
  have hspace : (ascii " ").length = 1 := rfl
  refine List.take_of_length_le ?_
  simp only [List.length_append, hmsg, hspace, List.length_singleton]
  omega

/-- Without a call, the line depends on the array. -/
theorem exists_publishedLine_ne {state type key value : Option Bytes}
    (hcalls : publishCalls state type key value = []) (pubTopic : CStr 64) :
    ∃ data data', publishedLine pubTopic data state type key value ≠
      publishedLine pubTopic data' state type key value := by
  -- an empty string in the array, and one of one byte
  refine ⟨fun i => ([] ++ [0] : Bytes).getD i 0, fun i => ([65] ++ [0] : Bytes).getD i 0,
    fun hlines => ?_⟩
  rw [publishedLine_of_nil hcalls, publishedLine_of_nil hcalls,
    cString_of_beginsWith (BeginsWith.getD _ 0) (by simp),
    cString_of_beginsWith (BeginsWith.getD _ 0) (by simp), messageLine_eq (by decide),
    messageLine_eq (by decide)] at hlines
  simp [cString] at hlines

/-- **A message is sound** when every call of `snprintf` stays in the array, and the line is one
line and does not depend on what was in the array before. -/
structure PublishSound (pubTopic : CStr 64) (state type key value : Option Bytes) : Prop where
  offsets : CallsFit (publishCalls state type key value)
  determined : ∀ data data', publishedLine pubTopic data state type key value =
    publishedLine pubTopic data' state type key value
  length_le : ∀ data, (publishedLine pubTopic data state type key value).length ≤ 1023
  ends : ∀ data, (publishedLine pubTopic data state type key value).getLast? = some newline

/-- **The messages that are sound** are those with a field whose fields all begin in the array. -/
theorem publish_sound_iff (pubTopic : CStr 64) (state type key value : Option Bytes) :
    PublishSound pubTopic state type key value ↔
      messageFields state type key value ≠ [] ∧ InRoom (messageFields state type key value) := by
  have htracks := tracks_publishVars state type key value
  constructor
  · intro h
    refine ⟨fun hnil => ?_, htracks.fit.mp h.offsets⟩
    obtain ⟨data, data', hdata⟩ := exists_publishedLine_ne (htracks.calls.mpr hnil) pubTopic
    exact hdata (h.determined data data')
  · rintro ⟨hne, hroom⟩
    obtain ⟨text, htext⟩ := htracks.holds hroom
    have hline := publishedLine_of_holds htext (mt htracks.calls.mp hne) pubTopic
    have hshort : (cString text).length ≤ 895 :=
      Nat.le_trans (length_cString_le text) htext.short
    refine ⟨htracks.fit.mpr hroom, fun data data' => ?_, fun data => ?_, fun data => ?_⟩
    · rw [hline data, hline data']
    · rw [hline data]
      exact List.length_take_le _ _
    · rw [hline data, messageLine_eq hshort, List.getLast?_concat]

/-- A state of 900 bytes and a value: the value begins 10 bytes behind the end of the array. -/
theorem not_publishSound : ¬ PublishSound (CStr.copy 63 (ascii "hmi_ups"))
    (some (List.replicate 900 97)) none none (some (ascii "1")) := by
  intro h
  have hroom := (tracks_publishVars _ _ _ _).fit.mp h.offsets
  have hvalue := (hroom 1 (by decide)).2
  have hlen : (ascii "state=" ++ List.replicate 900 97).length = 906 := by
    rw [List.length_append, List.length_replicate]
    rfl
  have htaken : taken [ascii "state=" ++ List.replicate 900 97] = 906 := by
    rw [taken, snprintfResult, hlen]
    rfl
  exact absurd (htaken ▸ hvalue) (by decide)

end LoopCharger.Cmos

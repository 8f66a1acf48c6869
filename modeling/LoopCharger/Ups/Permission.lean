import LoopCharger.DeviceMap.Access
import LoopCharger.DeviceMap.Pool
import LoopCharger.Ups.Bridge

/-!
# The permissions of the bridge

`on_write` and `on_read` of `src/ups_cmos_bridge.c` look up a register by its device address and
look at its access themselves; `check_register_access_range` looks at the rows of a range of pool
addresses. On a well-formed profile both decide in the same way.

## Main definitions

* `checked`: the checks that `on_write` and `on_read` make, and what they do behind them.
* `onWriteOf`, `onReadOf`, `onRead`: the functions, over any pool and any queue.
* `WritePasses`, `ReadPasses`: the checks are passed, so that the queue or the pool is called.

## Main results

* `accessReturns_zero_iff`: the range check of the one register of a row.
* `permissions_agree`: the two ways to check a permission agree.
* `onRead_of_readPasses`: a read that passes its checks succeeds.
-/

namespace LoopCharger.Ups

open DeviceMap

/-! ### The functions -/

section Functions

variable {α : Type*} (map : UidProfileMap)

/-- Look up the register and reject the access `forbidden`; `call` is what is done behind. -/
def checked (forbidden : RegisterAccess) (call : DeviceRegisterMapping → α → ℤ × α) (s : α)
    (uid : UInt8) (addr : UInt16) : ℤ × α :=
  match upsFindProfileByUid map uid with
  | none => (-1, s)
  | some profile =>
    match deviceFindSlot profile addr with
    | none => (-1, s)
    | some entry => if entry.access = forbidden then (-1, s) else call entry s

/-- `on_write`, with the call of `ups_cmd_push` that it makes. -/
def onWriteOf (push : α → ℤ × α) : α → UInt8 → UInt16 → ℤ × α :=
  checked map .ro fun _ s =>
    let r := push s
    if r.1 ≠ 0 then (-1, r.2) else (0, r.2)

/-- `on_read`, with the call of `pool_read_register` that it makes. -/
def onReadOf (read : UInt16 → α → Bool × α) : α → UInt8 → UInt16 → ℤ × α :=
  checked map .wo fun entry s =>
    let r := read entry.poolAddress s
    if !r.1 then (-1, r.2) else (0, r.2)

/-- `ups_cmd_push` of the value of one register. -/
def pushOne {γ : Type*} (uid : UInt8) (addr val : UInt16) (units : List (UnitThread γ)) :
    ℤ × List (UnitThread γ) :=
  upsCmdPush units uid addr (fun _ => val) 1 .auto

theorem onWrite_eq {γ : Type*} (units : List (UnitThread γ)) (uid : UInt8) (addr val : UInt16) :
    onWrite map units uid addr val = onWriteOf map (pushOne uid addr val) units uid addr :=
  rfl

/-- `pool_read_register` into the variable that `out` is the value of. -/
def readInto (pool : Pool) (poolAddress out : UInt16) : Bool × UInt16 :=
  match poolReadRegister pool poolAddress with
  | none => (false, out)
  | some v => (true, v)

/-- Validate and read one register: `0` on success, `-1` on failure, and the value that `*out_val`
has then. -/
def onRead (pool : Pool) (uid : UInt8) (addr outVal : UInt16) : ℤ × UInt16 :=
  onReadOf map (readInto pool) outVal uid addr

/-- A function whose calls are counted. -/
def counted {β : Type*} (f : α → β × α) (s : α × ℕ) : β × α × ℕ :=
  ((f s.1).1, (f s.1).2, s.2 + 1)

/-- `on_write` gets past its checks: it calls `ups_cmd_push`. -/
def WritePasses {γ : Type*} (units : List (UnitThread γ)) (uid : UInt8) (addr val : UInt16) :
    Prop :=
  (onWriteOf map (counted (pushOne uid addr val)) (units, 0) uid addr).2.2 ≠ 0

/-- `on_read` gets past its checks: it calls `pool_read_register`. -/
def ReadPasses (pool : Pool) (uid : UInt8) (addr outVal : UInt16) : Prop :=
  (onReadOf map (fun poolAddress => counted (readInto pool poolAddress)) (outVal, 0) uid addr).2.2
    ≠ 0

end Functions

/-! ### What the functions check -/

section Checks

variable {α : Type*} {map : UidProfileMap} {uid : UInt8} {profile : DeviceMapProfile}
  {addr : UInt16} (hprofile : upsFindProfileByUid map uid = some profile)

include hprofile

/-- The checks are passed for a register of the profile with another access. -/
theorem checked_cases (forbidden : RegisterAccess) (call : DeviceRegisterMapping → α → ℤ × α)
    (s : α) :
    (∃ entry, deviceFindSlot profile addr = some entry ∧ entry.access ≠ forbidden ∧
        checked map forbidden call s uid addr = call entry s) ∨
      (∀ entry, deviceFindSlot profile addr = some entry → entry.access = forbidden) ∧
        checked map forbidden call s uid addr = (-1, s) := by
  simp only [checked, hprofile]
  cases deviceFindSlot profile addr with
  | none => exact .inr ⟨fun entry h => absurd h.symm (Option.some_ne_none entry), rfl⟩
  | some entry =>
    by_cases haccess : entry.access = forbidden
    · refine .inr ⟨fun entry' h => Option.some.inj h ▸ haccess, ?_⟩
      simp only [haccess, if_true]
    · exact .inl ⟨entry, rfl, haccess, if_neg haccess⟩

/-- Behind the checks, the call that is counted is made. -/
theorem checked_counted_iff {forbidden : RegisterAccess}
    {call : DeviceRegisterMapping → α × ℕ → ℤ × α × ℕ}
    (hcall : ∀ entry s, (call entry s).2.2 = s.2 + 1) (s : α) :
    (checked map forbidden call (s, 0) uid addr).2.2 ≠ 0 ↔
      ∃ entry, deviceFindSlot profile addr = some entry ∧ entry.access ≠ forbidden := by
  rcases checked_cases hprofile forbidden call (s, 0) with
    ⟨entry, hfind, haccess, hchecked⟩ | ⟨hforbidden, hchecked⟩
  · rw [hchecked, hcall]
    exact iff_of_true (Nat.succ_ne_zero 0) ⟨entry, hfind, haccess⟩
  · rw [hchecked]
    refine iff_of_false (not_not_intro rfl) ?_
    rintro ⟨entry, hfind, haccess⟩
    exact haccess (hforbidden entry hfind)

theorem writePasses_iff {γ : Type*} (units : List (UnitThread γ)) (val : UInt16) :
    WritePasses map units uid addr val ↔
      ∃ entry, deviceFindSlot profile addr = some entry ∧ entry.access ≠ .ro := by
  refine checked_counted_iff hprofile (fun entry s => ?_) units
  dsimp only
  split_ifs <;> rfl

theorem readPasses_iff (pool : Pool) (outVal : UInt16) :
    ReadPasses map pool uid addr outVal ↔
      ∃ entry, deviceFindSlot profile addr = some entry ∧ entry.access ≠ .wo := by
  refine checked_counted_iff hprofile (fun entry s => ?_) outVal
  dsimp only
  split_ifs <;> rfl

end Checks

/-! ### What the range check says of a row -/

section Rows

variable {profile : DeviceMapProfile} {m : DeviceRegisterMapping}

/-- The pool address of a row is granted when the row permits the operation. -/
theorem granted_iff (h : profile.WellFormed) (hm : m ∈ profile.table)
    (requiredAccess : RegisterAccess) :
    Granted profile requiredAccess m.poolAddress.toNat ↔ m.access.Permits requiredAccess := by
  constructor
  · rintro ⟨m', hm', hpool, hpermits⟩
    have hsame := List.inj_on_of_nodup_map h.distinct hm' hm (UInt16.toNat_inj.mp hpool)
    exact hsame ▸ hpermits
  · exact fun hpermits => ⟨m, hm, rfl, hpermits⟩

/-- **The range check of one row.** The range of one register ends below `0xFFFF`, and is permitted
when its row permits the operation. -/
theorem accessReturns_zero_iff (h : profile.WellFormed) (hm : m ∈ profile.table)
    (requiredAccess : RegisterAccess) :
    AccessReturns profile m.poolAddress 1 requiredAccess 0 ↔ m.access.Permits requiredAccess := by
  have hone : (1 : UInt16) ≠ 0 := by decide
  have hend : m.poolAddress.toNat + (1 : UInt16).toNat ≤ 65535 := h.inPool m hm
  have hchecked : RangeChecked profile m.poolAddress 1 requiredAccess :=
    rangeChecked_of_le h.distinct hone (Nat.le_succ_of_le hend) (.inl hend)
  rw [hchecked.zero_iff, ← granted_iff h hm requiredAccess]
  constructor
  · exact fun hall => (hall _ (Nat.le_refl _) (Nat.lt_succ_self _)).2
  · intro hgranted a hle hlt
    obtain rfl : m.poolAddress.toNat = a := Nat.le_antisymm hle (Nat.le_of_lt_succ hlt)
    exact ⟨Nat.le_of_lt_succ m.poolAddress.toNat_lt, hgranted⟩

/-- The row that is found permits the operation, if the range check says so. -/
theorem exists_accessReturns_zero_iff (h : profile.WellFormed) (addr : UInt16)
    (requiredAccess : RegisterAccess) :
    (∃ entry, deviceFindSlot profile addr = some entry ∧
        AccessReturns profile entry.poolAddress 1 requiredAccess 0) ↔
      ∃ entry, deviceFindSlot profile addr = some entry ∧ entry.access.Permits requiredAccess :=
  exists_congr fun _ => and_congr_right fun hfind =>
    accessReturns_zero_iff h (deviceFindSlot_sound hfind).1 requiredAccess

end Rows

/-! ### Both ways -/

/-- **The two ways to check a permission agree.** `on_write` gets past its checks exactly when the
register is mapped and the range check permits to write it, and `on_read` exactly when it is mapped
and the range check permits to read it. -/
theorem permissions_agree {γ : Type*} {map : UidProfileMap} {uid : UInt8}
    {profile : DeviceMapProfile} (hprofile : upsFindProfileByUid map uid = some profile)
    (h : profile.WellFormed) (units : List (UnitThread γ)) (pool : Pool)
    (addr val outVal : UInt16) :
    (WritePasses map units uid addr val ↔
      ∃ entry, deviceFindSlot profile addr = some entry ∧
        AccessReturns profile entry.poolAddress 1 .wo 0) ∧
      (ReadPasses map pool uid addr outVal ↔
        ∃ entry, deviceFindSlot profile addr = some entry ∧
          AccessReturns profile entry.poolAddress 1 .ro 0) := by
  rw [exists_accessReturns_zero_iff h, exists_accessReturns_zero_iff h]
  exact ⟨writePasses_iff hprofile units val, readPasses_iff hprofile pool outVal⟩

/-- A register of the unit that may only be read. -/
theorem permissions_agree_ups1 :
    (WritePasses upsUidProfileMap ([] : List (UnitThread Unit)) 1 0x0004 0 ↔
      ∃ entry, deviceFindSlot ups1Profile 0x0004 = some entry ∧
        AccessReturns ups1Profile entry.poolAddress 1 .wo 0) ∧
      (ReadPasses upsUidProfileMap deviceRegisterMapInit 1 0x0004 0 ↔
        ∃ entry, deviceFindSlot ups1Profile 0x0004 = some entry ∧
          AccessReturns ups1Profile entry.poolAddress 1 .ro 0) :=
  permissions_agree rfl wellFormed_ups1Profile [] deviceRegisterMapInit 0x0004 0 0

/-- A read that gets past its checks succeeds, with the value of the pool. -/
theorem onRead_of_readPasses {map : UidProfileMap} {uid : UInt8} {profile : DeviceMapProfile}
    (hprofile : upsFindProfileByUid map uid = some profile) (h : profile.WellFormed) {pool : Pool}
    {addr outVal : UInt16} (hpasses : ReadPasses map pool uid addr outVal) :
    ∃ v, poolReadByDeviceAddr pool profile addr = some v ∧
      onRead map pool uid addr outVal = (0, v) := by
  obtain ⟨entry, hfind, haccess⟩ := (readPasses_iff hprofile pool outVal).mp hpasses
  have hslot : entry.poolAddress.toNat < INTERNAL_POOL_SIZE :=
    h.inPool entry (deviceFindSlot_sound hfind).1
  have hread : poolReadRegister pool entry.poolAddress =
      some (pool ⟨entry.poolAddress.toNat, hslot⟩) := by
    rw [poolReadRegister, poolSlot, dif_pos hslot, Option.map_some]
  refine ⟨_, by rw [poolReadByDeviceAddr, hfind, Option.bind_some, hread], ?_⟩
  simp only [onRead, onReadOf, checked, hprofile, hfind, haccess, readInto, hread, if_false]
  rfl

end LoopCharger.Ups

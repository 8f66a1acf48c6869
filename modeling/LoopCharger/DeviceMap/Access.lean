import LoopCharger.DeviceMap.Profile
import LoopCharger.Lib.Loop
import LoopCharger.Modbus.Defines

/-!
# The access of a range of the pool

`check_register_access_range` of `lib/device_map/device_register_map.c`, which looks at the rows of
a range of pool addresses for an external request. The last address and the counter of the loop are
16-bit words: the last address of a range that goes past `0xFFFF` lies below the first one, and no
counter lies above `0xFFFF`. The profile and its table are not `NULL`; log output is left out.

## Main definitions

* `rowCheck`: the loop over the table, for one address.
* `checkRegisterAccessRange`, `AccessReturns`: the function, and what it returns.
* `Granted`, `exceptionAt`: what a profile says of a pool address.
* `RangeChecked`: the result is the one of the first address that is not granted.
* `FirstRowPermits`: an address at which the loop over the range goes on.

## Main results

* `rowCheck_of_not_granted`, `rowCheck_of_granted`: the loop over the table computes what the
  profile says.
* `range_checked_iff`: the ranges that are checked.
* `exists_accessReturns_iff`: the loops that end.
-/

namespace LoopCharger.DeviceMap

open Lib Modbus

/-! ### The function -/

/-- The loop over the table for the address `pa`: the exception, `none` when the access is
permitted. -/
def rowCheck (requiredAccess : RegisterAccess) (pa : UInt16) :
    List DeviceRegisterMapping → Option UInt8
  | [] => some MODBUS_EX_ILLEGAL_DATA_ADDRESS
  | m :: table =>
    if m.poolAddress ≠ pa then rowCheck requiredAccess pa table
    else if requiredAccess = .ro ∧ m.access = .wo then some MODBUS_EX_ILLEGAL_FUNCTION
    else if requiredAccess = .wo ∧ m.access = .ro then some MODBUS_EX_ILLEGAL_FUNCTION
    else none

/-- One pass of the loop over the range, with the condition in front of it. -/
def rangePass (profile : DeviceMapProfile) (poolEnd : UInt16) (requiredAccess : RegisterAccess)
    (pa : UInt16) : UInt16 ⊕ UInt8 :=
  if pa ≤ poolEnd then
    match rowCheck requiredAccess pa profile.table with
    | some ex => .inr ex
    | none => .inl (pa + 1)
  else .inr 0

/-- Validate access permission for a pool address range, with a number of passes of the loop. -/
def checkRegisterAccessRange (passes : ℕ) (profile : DeviceMapProfile) (poolStart count : UInt16)
    (requiredAccess : RegisterAccess) : Option UInt8 :=
  if count = 0 then some MODBUS_EX_ILLEGAL_DATA_ADDRESS
  else
    let poolEnd := poolStart + count - 1
    loop (rangePass profile poolEnd requiredAccess) passes poolStart

/-- The function returns `rc`. -/
def AccessReturns (profile : DeviceMapProfile) (poolStart count : UInt16)
    (requiredAccess : RegisterAccess) (rc : UInt8) : Prop :=
  ∃ passes, checkRegisterAccessRange passes profile poolStart count requiredAccess = some rc

/-! ### What a profile says of an address -/

/-- A row permits the operation: a read is `ACCESS_RO`, a write is `ACCESS_WO`. -/
def RegisterAccess.Permits (access : RegisterAccess) : RegisterAccess → Prop
  | .ro => access ≠ .wo
  | .wo => access ≠ .ro
  | .rw => True

/-- The address is mapped. -/
def Mapped (profile : DeviceMapProfile) (a : ℕ) : Prop :=
  ∃ m ∈ profile.table, m.poolAddress.toNat = a

/-- The address is mapped, and its row permits the operation. -/
def Granted (profile : DeviceMapProfile) (requiredAccess : RegisterAccess) (a : ℕ) : Prop :=
  ∃ m ∈ profile.table, m.poolAddress.toNat = a ∧ m.access.Permits requiredAccess

instance (profile : DeviceMapProfile) (a : ℕ) : Decidable (Mapped profile a) :=
  inferInstanceAs (Decidable (∃ m ∈ profile.table, m.poolAddress.toNat = a))

/-- The exception for an address that is not granted. -/
def exceptionAt (profile : DeviceMapProfile) (a : ℕ) : UInt8 :=
  if Mapped profile a then MODBUS_EX_ILLEGAL_FUNCTION else MODBUS_EX_ILLEGAL_DATA_ADDRESS

theorem exceptionAt_ne_zero (profile : DeviceMapProfile) (a : ℕ) : exceptionAt profile a ≠ 0 := by
  unfold exceptionAt
  split_ifs <;> decide

/-! ### One address -/

section Rows

variable {profile : DeviceMapProfile} {requiredAccess : RegisterAccess} {pa poolEnd : UInt16}

/-- The loop over the table ends with the first row of the address. -/
theorem rowCheck_cases (requiredAccess : RegisterAccess) (pa : UInt16)
    (table : List DeviceRegisterMapping) :
    (∀ m ∈ table, m.poolAddress ≠ pa) ∧
        rowCheck requiredAccess pa table = some MODBUS_EX_ILLEGAL_DATA_ADDRESS ∨
      ∃ m ∈ table, m.poolAddress = pa ∧
        (m.access.Permits requiredAccess ∧ rowCheck requiredAccess pa table = none ∨
          ¬ m.access.Permits requiredAccess ∧
            rowCheck requiredAccess pa table = some MODBUS_EX_ILLEGAL_FUNCTION) := by
  induction table with
  | nil => exact .inl ⟨fun m hm => absurd hm List.not_mem_nil, rfl⟩
  | cons m table ih =>
    by_cases hpa : m.poolAddress = pa
    · refine .inr ⟨m, List.mem_cons_self, hpa, ?_⟩
      rw [rowCheck, if_neg (not_not_intro hpa)]
      cases requiredAccess <;> cases m.access <;> simp [RegisterAccess.Permits]
    · rw [rowCheck, if_pos hpa]
      rcases ih with ⟨hne, hcheck⟩ | ⟨m', hm', hrow⟩
      · refine .inl ⟨fun m' hm' => ?_, hcheck⟩
        rcases List.mem_cons.mp hm' with rfl | hm'
        · exact hpa
        · exact hne m' hm'
      · exact .inr ⟨m', List.mem_cons_of_mem m hm', hrow⟩

/-- Of an address that is not granted, the loop over the table gives the exception. -/
theorem rowCheck_of_not_granted (h : ¬ Granted profile requiredAccess pa.toNat) :
    rowCheck requiredAccess pa profile.table = some (exceptionAt profile pa.toNat) := by
  rcases rowCheck_cases requiredAccess pa profile.table with ⟨hne, hcheck⟩ | ⟨m, hm, hpa, hrow⟩
  · have hmapped : ¬ Mapped profile pa.toNat := by
      rintro ⟨m, hm, hpa⟩
      exact hne m hm (UInt16.toNat_inj.mp hpa)
    rw [hcheck, exceptionAt, if_neg hmapped]
  · have hmapped : Mapped profile pa.toNat := ⟨m, hm, congrArg UInt16.toNat hpa⟩
    rcases hrow with ⟨hpermits, -⟩ | ⟨-, hcheck⟩
    · exact absurd ⟨m, hm, congrArg UInt16.toNat hpa, hpermits⟩ h
    · rw [hcheck, exceptionAt, if_pos hmapped]

/-- With distinct pool addresses the first row of an address is its only one. -/
theorem rowCheck_of_granted (hdistinct : (profile.table.map (·.poolAddress)).Nodup)
    (h : Granted profile requiredAccess pa.toNat) :
    rowCheck requiredAccess pa profile.table = none := by
  obtain ⟨m, hm, hpa, hpermits⟩ := h
  have hpa : m.poolAddress = pa := UInt16.toNat_inj.mp hpa
  rcases rowCheck_cases requiredAccess pa profile.table with ⟨hne, -⟩ | ⟨m', hm', hpa', hrow⟩
  · exact absurd hpa (hne m hm)
  · have hsame : m' = m := List.inj_on_of_nodup_map hdistinct hm' hm (hpa'.trans hpa.symm)
    rcases hrow with ⟨-, hcheck⟩ | ⟨hforbids, -⟩
    · exact hcheck
    · exact absurd (hsame ▸ hpermits) hforbids

theorem rangePass_of_not_granted (hle : pa ≤ poolEnd)
    (h : ¬ Granted profile requiredAccess pa.toNat) :
    rangePass profile poolEnd requiredAccess pa = .inr (exceptionAt profile pa.toNat) := by
  rw [rangePass, if_pos hle, rowCheck_of_not_granted h]

theorem rangePass_of_granted (hdistinct : (profile.table.map (·.poolAddress)).Nodup)
    (hle : pa ≤ poolEnd) (h : Granted profile requiredAccess pa.toNat) :
    rangePass profile poolEnd requiredAccess pa = .inl (pa + 1) := by
  rw [rangePass, if_pos hle, rowCheck_of_granted hdistinct h]

/-- An exception is not taken for a success. -/
theorem rangePass_ne_zero (hle : pa ≤ poolEnd) :
    rangePass profile poolEnd requiredAccess pa ≠ .inr 0 := by
  rw [rangePass, if_pos hle]
  rcases rowCheck_cases requiredAccess pa profile.table with
    ⟨-, hcheck⟩ | ⟨m, -, -, ⟨-, hcheck⟩ | ⟨-, hcheck⟩⟩
  · rw [hcheck]
    exact fun h => absurd (Sum.inr.inj h) (by decide)
  · rw [hcheck]
    exact Sum.inl_ne_inr
  · rw [hcheck]
    exact fun h => absurd (Sum.inr.inj h) (by decide)

theorem rangePass_of_lt (hlt : poolEnd < pa) :
    rangePass profile poolEnd requiredAccess pa = .inr 0 := by
  rw [rangePass, if_neg (UInt16.not_le.mpr hlt)]

end Rows

/-! ### A range of addresses -/

section Ranges

variable {profile : DeviceMapProfile} {requiredAccess : RegisterAccess}
  {poolStart count : UInt16} {rc : UInt8}

theorem accessReturns_iff (hcount : count ≠ 0) :
    AccessReturns profile poolStart count requiredAccess rc ↔
      Returns (rangePass profile (poolStart + count - 1) requiredAccess) poolStart rc := by
  simp only [AccessReturns, checkRegisterAccessRange, if_neg hcount]
  rfl

/-- The last address of a range, by its value. -/
theorem toNat_poolEnd (hcount : count ≠ 0) :
    (poolStart + count - 1).toNat = (poolStart.toNat + count.toNat - 1) % 65536 := by
  have hpos : count.toNat ≠ 0 := fun h => hcount (UInt16.toNat_inj.mp h)
  rw [UInt16.toNat_sub, UInt16.toNat_add]
  simp only [UInt16.toNat_one]
  omega

/-- The counter of the loop, before it wraps. -/
theorem toNat_counter {k : ℕ} (hk : poolStart.toNat + k < 65536) :
    (poolStart + UInt16.ofNat k).toNat = poolStart.toNat + k := by
  rw [UInt16.toNat_add, UInt16.toNat_ofNat']
  omega

/-- The loop goes over the granted addresses of a range that does not go past `0xFFFF`. -/
theorem accessReturns_iff_behind (hdistinct : (profile.table.map (·.poolAddress)).Nodup)
    (hcount : count ≠ 0) (hrange : poolStart.toNat + count.toNat ≤ 65536) {k : ℕ}
    (hk : k ≤ count.toNat) (hgranted : ∀ j < k, Granted profile requiredAccess
      (poolStart.toNat + j)) :
    AccessReturns profile poolStart count requiredAccess rc ↔
      Returns (rangePass profile (poolStart + count - 1) requiredAccess)
        (poolStart + UInt16.ofNat k) rc := by
  have hgoes : ∀ j < k, rangePass profile (poolStart + count - 1) requiredAccess
      (poolStart + UInt16.ofNat j) = .inl (poolStart + UInt16.ofNat (j + 1)) := fun j hj => by
    have hcounter : (poolStart + UInt16.ofNat j).toNat = poolStart.toNat + j :=
      toNat_counter (by omega)
    have hle : poolStart + UInt16.ofNat j ≤ poolStart + count - 1 := by
      rw [UInt16.le_iff_toNat_le, hcounter, toNat_poolEnd hcount]
      omega
    rw [rangePass_of_granted hdistinct hle (hcounter ▸ hgranted j hj), UInt16.ofNat_add,
      UInt16.add_assoc]
    rfl
  have hstart : poolStart + UInt16.ofNat 0 = poolStart := UInt16.add_zero poolStart
  have hbehind := returns_iff_of_goesOn (r := rc) (fun j => poolStart + UInt16.ofNat j) hgoes
  rw [accessReturns_iff hcount, ← hbehind, hstart]

/-- The first address that is not granted decides. -/
theorem accessReturns_exceptionAt (hdistinct : (profile.table.map (·.poolAddress)).Nodup)
    (hcount : count ≠ 0) (hrange : poolStart.toNat + count.toNat ≤ 65536) {k : ℕ}
    (hk : k < count.toNat) (hgranted : ∀ j < k, Granted profile requiredAccess
      (poolStart.toNat + j)) (hnot : ¬ Granted profile requiredAccess (poolStart.toNat + k)) :
    AccessReturns profile poolStart count requiredAccess
      (exceptionAt profile (poolStart.toNat + k)) := by
  have hcounter : (poolStart + UInt16.ofNat k).toNat = poolStart.toNat + k :=
    toNat_counter (by omega)
  have hle : poolStart + UInt16.ofNat k ≤ poolStart + count - 1 := by
    rw [UInt16.le_iff_toNat_le, hcounter, toNat_poolEnd hcount]
    omega
  rw [accessReturns_iff_behind hdistinct hcount hrange (Nat.le_of_lt hk) hgranted, ← hcounter]
  rw [← hcounter] at hnot
  exact (returns_of_inr (rangePass_of_not_granted hle hnot)).mpr rfl

/-- A range of granted addresses that ends below `0xFFFF`. -/
theorem accessReturns_zero (hdistinct : (profile.table.map (·.poolAddress)).Nodup)
    (hcount : count ≠ 0) (hrange : poolStart.toNat + count.toNat ≤ 65535)
    (hgranted : ∀ j < count.toNat, Granted profile requiredAccess (poolStart.toNat + j)) :
    AccessReturns profile poolStart count requiredAccess 0 := by
  have hlt : poolStart + count - 1 < poolStart + UInt16.ofNat count.toNat := by
    have hpos : count.toNat ≠ 0 := fun h => hcount (UInt16.toNat_inj.mp h)
    rw [UInt16.lt_iff_toNat_lt, toNat_counter (by omega), toNat_poolEnd hcount]
    omega
  rw [accessReturns_iff_behind hdistinct hcount (Nat.le_succ_of_le hrange) (Nat.le_refl _) hgranted]
  exact (returns_of_inr (rangePass_of_lt hlt)).mpr rfl

/-- A range that comes to `0xFFFF` is not empty. -/
theorem count_ne_zero (h : 65536 ≤ poolStart.toNat + count.toNat) : count ≠ 0 := by
  rintro rfl
  have := poolStart.toNat_lt
  rw [UInt16.toNat_zero] at h
  omega

/-- A range that goes past `0xFFFF`: no address is looked at. -/
theorem accessReturns_zero_of_wrap (hwrap : 65536 < poolStart.toNat + count.toNat) :
    AccessReturns profile poolStart count requiredAccess 0 := by
  have hstart := poolStart.toNat_lt
  have hcount := count_ne_zero hwrap.le
  have hlt : poolStart + count - 1 < poolStart := by
    have := count.toNat_lt
    rw [UInt16.lt_iff_toNat_lt, toNat_poolEnd hcount]
    omega
  rw [accessReturns_iff hcount]
  exact (returns_of_inr (rangePass_of_lt hlt)).mpr rfl

/-- A range that ends at `0xFFFF`: no address is behind its end, so that the loop ends at an address
that is looked up. -/
theorem exists_exit_of_last (hend : poolStart.toNat + count.toNat = 65536)
    (h : AccessReturns profile poolStart count requiredAccess rc) :
    ∃ pa, pa ≤ poolStart + count - 1 ∧
      rangePass profile (poolStart + count - 1) requiredAccess pa = .inr rc := by
  have hcount := count_ne_zero hend.ge
  obtain ⟨pa, -, hexit⟩ := ((accessReturns_iff hcount).mp h).exists_exit (I := fun _ => True)
    (fun _ _ _ _ => trivial) trivial
  refine ⟨pa, ?_, hexit⟩
  have := pa.toNat_lt
  rw [UInt16.le_iff_toNat_le, toNat_poolEnd hcount]
  omega

/-- A range that ends at `0xFFFF`: the loop ends at an address that is not granted, or not at
all. -/
theorem ne_zero_of_accessReturns (hend : poolStart.toNat + count.toNat = 65536)
    (h : AccessReturns profile poolStart count requiredAccess rc) : rc ≠ 0 := by
  obtain ⟨pa, hle, hexit⟩ := exists_exit_of_last hend h
  rintro rfl
  exact rangePass_ne_zero hle hexit

/-! ### The ranges that are checked -/

/-- The result is 0 when every address of the range is granted, and else the exception of the first
one that is not. -/
structure RangeChecked (profile : DeviceMapProfile) (poolStart count : UInt16)
    (requiredAccess : RegisterAccess) : Prop where
  zero_iff : AccessReturns profile poolStart count requiredAccess 0 ↔
    ∀ a, poolStart.toNat ≤ a → a < poolStart.toNat + count.toNat →
      a ≤ 0xFFFF ∧ Granted profile requiredAccess a
  first : ∀ a, poolStart.toNat ≤ a → a < poolStart.toNat + count.toNat →
    ¬ (a ≤ 0xFFFF ∧ Granted profile requiredAccess a) →
    (∀ b, poolStart.toNat ≤ b → b < a → b ≤ 0xFFFF ∧ Granted profile requiredAccess b) →
    AccessReturns profile poolStart count requiredAccess (exceptionAt profile a)

theorem AccessReturns.unique {rc' : UInt8} (hcount : count ≠ 0)
    (h : AccessReturns profile poolStart count requiredAccess rc)
    (h' : AccessReturns profile poolStart count requiredAccess rc') : rc = rc' :=
  Returns.unique ((accessReturns_iff hcount).mp h) ((accessReturns_iff hcount).mp h')

/-- A range that does not go past `0xFFFF`: the exception is the one of the first address that is
not granted. -/
theorem accessReturns_first (hdistinct : (profile.table.map (·.poolAddress)).Nodup)
    (hcount : count ≠ 0) (hrange : poolStart.toNat + count.toNat ≤ 65536) {a : ℕ}
    (hstart : poolStart.toNat ≤ a) (ha : a < poolStart.toNat + count.toNat)
    (hnot : ¬ (a ≤ 0xFFFF ∧ Granted profile requiredAccess a))
    (hfirst : ∀ b, poolStart.toNat ≤ b → b < a →
      b ≤ 0xFFFF ∧ Granted profile requiredAccess b) :
    AccessReturns profile poolStart count requiredAccess (exceptionAt profile a) := by
  obtain ⟨k, rfl⟩ := Nat.exists_eq_add_of_le hstart
  have hgranted : ¬ Granted profile requiredAccess (poolStart.toNat + k) := fun h =>
    hnot ⟨by omega, h⟩
  exact accessReturns_exceptionAt hdistinct hcount hrange (by omega)
    (fun j hj => (hfirst _ (by omega) (by omega)).2) hgranted

/-- Such a range is checked when it ends below `0xFFFF`, or has an address that is not granted. -/
theorem rangeChecked_of_le (hdistinct : (profile.table.map (·.poolAddress)).Nodup)
    (hcount : count ≠ 0) (hrange : poolStart.toNat + count.toNat ≤ 65536)
    (hend : poolStart.toNat + count.toNat ≤ 65535 ∨
      ∃ a, poolStart.toNat ≤ a ∧ a < poolStart.toNat + count.toNat ∧
        ¬ Granted profile requiredAccess a) :
    RangeChecked profile poolStart count requiredAccess where
  zero_iff := by
    constructor
    · intro hzero a
      induction a using Nat.strong_induction_on with
      | _ a ih =>
        intro hstart ha
        by_contra hnot
        have hfirst := accessReturns_first hdistinct hcount hrange hstart ha hnot
          fun b hb hba => ih b hba hb (Nat.lt_trans hba ha)
        exact exceptionAt_ne_zero profile a (hfirst.unique hcount hzero)
    · intro hall
      rcases hend with hend | ⟨a, hstart, ha, hnot⟩
      · exact accessReturns_zero hdistinct hcount hend fun j hj =>
          (hall _ (Nat.le_add_right _ j) (Nat.add_lt_add_left hj _)).2
      · exact absurd (hall a hstart ha).2 hnot
  first _ hstart ha hnot hfirst :=
    accessReturns_first hdistinct hcount hrange hstart ha hnot hfirst

end Ranges

/-- **The ranges that are checked.** Those that end below `0xFFFF`, and those that end there and
have an address that is not granted. -/
theorem range_checked_iff {profile : DeviceMapProfile} {poolStart count : UInt16}
    {requiredAccess : RegisterAccess} (hdistinct : (profile.table.map (·.poolAddress)).Nodup)
    (hcount : count ≠ 0) :
    RangeChecked profile poolStart count requiredAccess ↔
      poolStart.toNat + count.toNat ≤ 0xFFFF ∨
        poolStart.toNat + count.toNat = 0x10000 ∧
          ∃ a, poolStart.toNat ≤ a ∧ a ≤ 0xFFFF ∧ ¬ Granted profile requiredAccess a := by
  have hstart := poolStart.toNat_lt
  constructor
  · intro h
    by_contra hcond
    rw [not_or, not_and, Nat.not_le] at hcond
    obtain ⟨hend, hgranted⟩ := hcond
    rcases Nat.lt_or_eq_of_le (Nat.succ_le_of_lt hend) with hwrap | hlast
    · -- past 0xFFFF: the last address of the range is not in the pool
      have hall := h.zero_iff.mp (accessReturns_zero_of_wrap hwrap)
      exact absurd (hall 65536 (Nat.le_of_lt hstart) hwrap).1 (by decide)
    · have hall : ∀ a, poolStart.toNat ≤ a → a < poolStart.toNat + count.toNat →
          a ≤ 0xFFFF ∧ Granted profile requiredAccess a := fun a hle hlt => by
        refine ⟨by omega, ?_⟩
        by_contra hnot
        exact hgranted hlast.symm ⟨a, hle, by omega, hnot⟩
      exact ne_zero_of_accessReturns hlast.symm (h.zero_iff.mpr hall) rfl
  · rintro (hend | ⟨hend, a, hle, ha, hnot⟩)
    · exact rangeChecked_of_le hdistinct hcount (Nat.le_succ_of_le hend) (.inl hend)
    · exact rangeChecked_of_le hdistinct hcount (Nat.le_of_eq hend)
        (.inr ⟨a, hle, by omega, hnot⟩)

/-- A range with a register that may only be read. -/
theorem range_checked_read_only :
    RangeChecked ⟨"ups", [⟨0, 10, .rw, "setpoint"⟩, ⟨1, 11, .ro, "input"⟩], 125⟩ 10 2 .wo :=
  (range_checked_iff (by decide) (by decide)).mpr (.inl (by decide))

/-- A read past the end of the pool is permitted, and nothing is mapped there. -/
theorem not_range_checked :
    ¬ ∀ (profile : DeviceMapProfile) (poolStart count : UInt16) (requiredAccess : RegisterAccess),
      (profile.table.map (·.poolAddress)).Nodup → count ≠ 0 →
        (requiredAccess = .ro ∨ requiredAccess = .wo) →
        RangeChecked profile poolStart count requiredAccess := by
  intro h
  have hchecked := h ⟨"ups", [⟨0, 10, .rw, "setpoint"⟩], 125⟩ 0xFFFF 2 .ro (by decide) (by decide)
    (.inl rfl)
  have hall := hchecked.zero_iff.mp ⟨1, by decide⟩
  exact absurd (hall 65536 (by decide) (by decide)).1 (by decide)

/-! ### The loops that end -/

/-- The address is mapped, and the first of its rows permits the operation. -/
def FirstRowPermits (profile : DeviceMapProfile) (requiredAccess : RegisterAccess)
    (pa : UInt16) : Prop :=
  ∃ m, profile.table.find? (·.poolAddress = pa) = some m ∧ m.access.Permits requiredAccess

theorem rowCheck_eq_none_iff {requiredAccess : RegisterAccess} {pa : UInt16}
    {table : List DeviceRegisterMapping} :
    rowCheck requiredAccess pa table = none ↔
      ∃ m, table.find? (·.poolAddress = pa) = some m ∧ m.access.Permits requiredAccess := by
  induction table with
  | nil => simp [rowCheck]
  | cons m table ih =>
    by_cases hpa : m.poolAddress = pa
    · rw [rowCheck, if_neg (not_not_intro hpa), List.find?_cons_of_pos (by simpa using hpa)]
      cases requiredAccess <;> cases haccess : m.access <;>
        simp [RegisterAccess.Permits, haccess]
    · rw [rowCheck, if_pos hpa, ih, List.find?_cons_of_neg (by simpa using hpa)]

section Ends

variable {profile : DeviceMapProfile} {requiredAccess : RegisterAccess}
  {poolStart count poolEnd : UInt16}

/-- The loop goes on from an address to the next one. -/
theorem rangePass_eq_inl {pa pa' : UInt16}
    (h : rangePass profile poolEnd requiredAccess pa = .inl pa') :
    pa ≤ poolEnd ∧ FirstRowPermits profile requiredAccess pa ∧ pa' = pa + 1 := by
  rw [rangePass] at h
  split_ifs at h with hle
  cases hcheck : rowCheck requiredAccess pa profile.table with
  | some ex =>
    rw [hcheck] at h
    cases h
  | none =>
    rw [hcheck] at h
    exact ⟨hle, rowCheck_eq_none_iff.mp hcheck, (Sum.inl.inj h).symm⟩

/-- The loop ends at an address that is not permitted. -/
theorem rangePass_of_not_permits {pa : UInt16}
    (h : ¬ FirstRowPermits profile requiredAccess pa) :
    ∃ rc, rangePass profile poolEnd requiredAccess pa = .inr rc := by
  cases hpass : rangePass profile poolEnd requiredAccess pa with
  | inl pa' => exact absurd (rangePass_eq_inl hpass).2.1 h
  | inr rc => exact ⟨rc, rfl⟩

/-- With a last address below `0xFFFF`, the loop comes to its end. -/
theorem exists_returns_of_poolEnd (hend : poolEnd.toNat < 0xFFFF) :
    ∃ rc, Returns (rangePass profile poolEnd requiredAccess) poolStart rc := by
  refine exists_returns_of_stop (I := fun k pa => pa.toNat = poolStart.toNat + k)
    (n := poolEnd.toNat + 1 - poolStart.toNat) (fun k pa pa' hpa hpass => ?_) (fun pa hpa => ?_)
    (Nat.zero_le _) rfl
  · obtain ⟨hle, -, rfl⟩ := rangePass_eq_inl hpass
    have := UInt16.le_iff_toNat_le.mp hle
    rw [UInt16.toNat_add, UInt16.toNat_one]
    omega
  · have hlt : poolEnd < pa := by
      rw [UInt16.lt_iff_toNat_lt]
      omega
    exact ⟨0, rangePass_of_lt hlt⟩

/-- With an address that is not permitted, the loop comes to it, if it does not end before. -/
theorem exists_returns_of_not_permits {pa : UInt16}
    (h : ¬ FirstRowPermits profile requiredAccess pa) :
    ∃ rc, Returns (rangePass profile poolEnd requiredAccess) poolStart rc := by
  refine exists_returns_of_stop (I := fun k pa => pa = poolStart + UInt16.ofNat k)
    (n := (pa - poolStart).toNat) (fun k pa pa' hpa hpass => ?_) (fun pa' hpa => ?_)
    (Nat.zero_le _) (UInt16.add_zero poolStart).symm
  · obtain ⟨-, -, rfl⟩ := rangePass_eq_inl hpass
    rw [hpa, UInt16.ofNat_add, UInt16.add_assoc]
    rfl
  · have hpa' : pa' = pa := by
      rw [hpa, UInt16.ofNat_toNat, UInt16.add_comm, UInt16.sub_add_cancel]
    exact rangePass_of_not_permits (hpa' ▸ h)

/-- A range that ends at `0xFFFF`, in a pool whose addresses are all permitted. -/
theorem not_exists_accessReturns (hlast : poolStart.toNat + count.toNat = 0x10000)
    (hall : ∀ pa, FirstRowPermits profile requiredAccess pa) :
    ¬ ∃ rc, AccessReturns profile poolStart count requiredAccess rc := by
  rintro ⟨rc, h⟩
  obtain ⟨pa, hle, hexit⟩ := exists_exit_of_last hlast h
  rw [rangePass, if_pos hle, rowCheck_eq_none_iff.mpr (hall pa)] at hexit
  cases hexit

end Ends

/-- **The loops that end.** Those over a range that does not end at `0xFFFF`, and those over a pool
with an address that is not permitted, whether it is in the range or not. -/
theorem exists_accessReturns_iff (profile : DeviceMapProfile) (poolStart count : UInt16)
    (requiredAccess : RegisterAccess) :
    (∃ rc, AccessReturns profile poolStart count requiredAccess rc) ↔
      poolStart.toNat + count.toNat ≠ 0x10000 ∨
        ∃ pa, ¬ FirstRowPermits profile requiredAccess pa := by
  constructor
  · intro h
    by_contra hnot
    rw [not_or, not_not, not_exists_not] at hnot
    exact not_exists_accessReturns hnot.1 hnot.2 h
  · intro h
    by_cases hcount : count = 0
    · refine ⟨MODBUS_EX_ILLEGAL_DATA_ADDRESS, 0, ?_⟩
      rw [checkRegisterAccessRange, if_pos hcount]
    · simp only [accessReturns_iff hcount]
      rcases h with hlast | ⟨pa, hpa⟩
      · refine exists_returns_of_poolEnd ?_
        have := poolStart.toNat_lt
        have := count.toNat_lt
        rw [toNat_poolEnd hcount]
        omega
      · exact exists_returns_of_not_permits hpa

/-- A register of the pool in which every address may be read and written. -/
def fullRow (i : ℕ) : DeviceRegisterMapping :=
  ⟨.ofNat i, .ofNat i, .rw, "register"⟩

theorem firstRowPermits_of_full {n : ℕ} {requiredAccess : RegisterAccess} {pa : UInt16}
    (h : pa.toNat < n) :
    FirstRowPermits ⟨"full", (List.range n).map fullRow, 125⟩ requiredAccess pa := by
  obtain ⟨m, hm⟩ : ∃ m, ((List.range n).map fullRow).find? (·.poolAddress = pa) = some m := by
    rw [← Option.isSome_iff_exists, List.find?_isSome]
    exact ⟨fullRow pa.toNat, List.mem_map_of_mem (List.mem_range.mpr h), by simp [fullRow]⟩
  refine ⟨m, hm, ?_⟩
  obtain ⟨i, -, rfl⟩ := List.mem_map.mp (List.mem_of_find?_eq_some hm)
  cases requiredAccess <;> simp [RegisterAccess.Permits, fullRow]

/-- A read of the last address of a pool in which every address may be read. -/
theorem not_forall_exists_accessReturns :
    ¬ ∀ (profile : DeviceMapProfile) (poolStart count : UInt16) (requiredAccess : RegisterAccess),
      ∃ rc, AccessReturns profile poolStart count requiredAccess rc := by
  intro h
  exact not_exists_accessReturns rfl (fun pa => firstRowPermits_of_full pa.toNat_lt)
    (h ⟨"full", (List.range 65536).map fullRow, 125⟩ 0xFFFF 1 .ro)

end LoopCharger.DeviceMap

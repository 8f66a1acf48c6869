import LoopCharger.Cmos.Publish
import LoopCharger.Lib.Fill

/-!
# Loading the configuration

The configuration file of `src/config_loader.c`, from the document that json-c has parsed on. Of
json-c the loader relies on its documented behaviour at `NULL`, the pointer of a JSON `null`: no key
is found in it, and it has no string. A string that is missing and is given to `strncpy` or `strcmp`
ends the run, so that there is no result.

## Main definitions

* `JsonC`: the functions of json-c that are called.
* `ModuleConfig`, `SystemConfig`: the configuration of a unit, and of all units.
* `JsonC.loadModuleConfig`, `JsonC.loadUpsConfig`, `JsonC.loadJsonConfig`: the loader.

## Main results

* `loads_iff`: the documents that are loaded.
-/

namespace LoopCharger.Config

open Lib Cmos

/-! ### json-c -/

/-- The functions of json-c that the loader calls. A `json_object *` is `NULL` or points to an
object of the type `J`. -/
structure JsonC (J : Type*) where
  /-- The value of a key, if the key is present. The value is `NULL` where it is a JSON `null`. -/
  objectGetEx : Option J → String → Option (Option J)
  isArray : Option J → Bool
  arrayLength : J → ℕ
  arrayGetIdx : J → ℕ → Option J
  getBoolean : Option J → Bool
  getInt : Option J → Int32
  getString : Option J → Option Bytes
  objectGetEx_null : ∀ key, objectGetEx none key = none
  getString_null : getString none = none
  /-- An object that is not a string has the string of its JSON text. -/
  getString_isSome : ∀ j, (getString (some j)).isSome

/-! ### The configuration -/

def MAX_UPS_COUNT : ℕ := 10

inductive ModbusFormat
  | rtu
  | tcp
  deriving DecidableEq, Repr

/-- The fields of `module_config_t` that are loaded. -/
structure ModuleConfig where
  name : CStr 64
  enabled : Bool
  isServer : Bool
  modbusUid : Int32
  format : ModbusFormat
  path : CStr 256
  gpio : CStr 16
  /-- The 68 bytes of the union: `baud_rate`, or `ip` and `port`. -/
  link : Bytes
  modbusRole : CStr 16
  rtuPollIntervalMs : UInt32
  deriving DecidableEq

/-- The configuration after the `memset`. -/
def ModuleConfig.zero : ModuleConfig where
  name := CStr.copy 63 []
  enabled := false
  isServer := false
  modbusUid := 0
  format := .rtu
  path := CStr.copy 255 []
  gpio := CStr.copy 15 []
  link := List.replicate 68 0
  modbusRole := CStr.copy 15 []
  rtuPollIntervalMs := 0

/-- The bytes of an `int` in the memory. -/
def intBytes (n : Int32) : Bytes :=
  (List.range 4).map fun i => UInt8.ofNat (n.toUInt32.toNat >>> (8 * i))

def ModuleConfig.setBaudRate (config : ModuleConfig) (n : Int32) : ModuleConfig :=
  { config with link := intBytes n ++ config.link.drop 4 }

/-- `strncpy` to `ip`: the rest of the 63 bytes is filled with NULs. -/
def ModuleConfig.setIp (config : ModuleConfig) (s : Bytes) : ModuleConfig :=
  { config with link := ((cString s).take 63).rightpad 63 0 ++ config.link.drop 63 }

def ModuleConfig.setPort (config : ModuleConfig) (n : Int32) : ModuleConfig :=
  { config with link := config.link.take 64 ++ intBytes n }

/-- `system_config_t`. -/
structure SystemConfig where
  ups : List ModuleConfig
  upsCount : ℕ

/-- The configuration after the `memset`. -/
def SystemConfig.zero : SystemConfig := ⟨List.replicate MAX_UPS_COUNT .zero, 0⟩

def parseModbusFormat (formatStr : Bytes) : ModbusFormat :=
  if formatStr = ascii "RTU" then .rtu
  else if formatStr = ascii "TCP" then .tcp
  else .rtu

def parseModbusRole (modbusRole : Bytes) : Bool :=
  if modbusRole = ascii "Server" ∨ modbusRole = ascii "Master" then true
  else if modbusRole = ascii "Slave" ∨ modbusRole = ascii "Client" then false
  else false

/-- The length of an array in an `int`. From `2 ^ 31` on it may be negative. -/
def arrayLengthInt (length : ℕ) : ℤ := (length : ℤ).bmod 0x100000000

/-! ### The loader -/

namespace JsonC

variable {J : Type*} (json : JsonC J)

/-- Load a field that is a string. There is no result when the string is missing. -/
def loadString (jsonObj : Option J) (key : String)
    (store : ModuleConfig → Bytes → ModuleConfig) (config : ModuleConfig) : Option ModuleConfig :=
  match json.objectGetEx jsonObj key with
  | none => some config
  | some field => (json.getString field).map (store config)

/-- Load a field that is not a string. -/
def loadField (jsonObj : Option J) (key : String)
    (store : ModuleConfig → Option J → ModuleConfig) (config : ModuleConfig) : ModuleConfig :=
  match json.objectGetEx jsonObj key with
  | none => config
  | some field => store config field

/-- Load the fields that depend on the format. -/
def loadLink (jsonObj : Option J) (config : ModuleConfig) : Option ModuleConfig :=
  match config.format with
  | .rtu => do
    let config ← json.loadString jsonObj "gpio" (fun c s => { c with gpio := .copy 15 s }) config
    some (json.loadField jsonObj "baud_rate"
      (fun c field => c.setBaudRate (json.getInt field)) config)
  | .tcp => do
    let config ← json.loadString jsonObj "gpio" (fun c s => { c with gpio := .copy 15 s }) config
    let config ← json.loadString jsonObj "ip" ModuleConfig.setIp config
    some (json.loadField jsonObj "port" (fun c field => c.setPort (json.getInt field)) config)

/-- Populate the configuration of a unit from an object. -/
def loadModuleConfig (jsonObj : Option J) (config : ModuleConfig) : Option ModuleConfig :=
  match jsonObj with
  | none => some config
  | some _ => do
    let config ← json.loadString jsonObj "name" (fun c s => { c with name := .copy 63 s }) config
    let config := json.loadField jsonObj "enabled"
      (fun c field => { c with enabled := json.getBoolean field }) config
    let config := json.loadField jsonObj "modbus_uid"
      (fun c field => { c with modbusUid := json.getInt field }) config
    let config ← json.loadString jsonObj "modbus_format"
      (fun c s => { c with format := parseModbusFormat (cString s) }) config
    let config ← json.loadString jsonObj "path" (fun c s => { c with path := .copy 255 s }) config
    let config ← json.loadString jsonObj "modbus_role"
      (fun c s =>
        let role : CStr 16 := .copy 15 s
        { c with modbusRole := role, isServer := parseModbusRole role.val }) config
    let config ← json.loadLink jsonObj config
    some { config with rtuPollIntervalMs := 200 }

/-- The entry is enabled. -/
def isEnabled (upsObj : Option J) : Bool :=
  match json.objectGetEx upsObj "enabled" with
  | none => false
  | some enabledObj => json.getBoolean enabledObj

/-- The loop over the entries: the number of those that are loaded, and the table. -/
def loadEntries : List (Option J) → ℕ → List ModuleConfig → Option (ℕ × List ModuleConfig)
  | [], validUpsCount, ups => some (validUpsCount, ups)
  | upsObj :: entries, validUpsCount, ups =>
    if !json.isEnabled upsObj then loadEntries entries validUpsCount ups
    else
      -- a row behind the end of the table would be none
      match fillRow json.loadModuleConfig upsObj validUpsCount ups with
      | none => none
      | some config =>
        let ups := ups.set validUpsCount config
        if MAX_UPS_COUNT ≤ validUpsCount + 1 then some (validUpsCount + 1, ups)
        else loadEntries entries (validUpsCount + 1) ups

/-- Load the enabled entries of an array. -/
def loadUpsConfig (upsArray : Option J) (config : SystemConfig) : Option SystemConfig :=
  match upsArray with
  | none => some config
  | some arr =>
    if !json.isArray upsArray then some config
    else
      let entries :=
        (List.range (arrayLengthInt (json.arrayLength arr)).toNat).map (json.arrayGetIdx arr)
      (json.loadEntries entries 0 config.ups).map fun r => ⟨r.2, r.1⟩

/-- Load a document. One that is not parsed, or is `null`, ends the program before. -/
def loadJsonConfig (jsonConfig : J) : Option SystemConfig :=
  match json.objectGetEx (some jsonConfig) "UPS" with
  | none => some .zero
  | some upsArray => json.loadUpsConfig upsArray .zero

/-! ### The configuration of a unit -/

/-- The key holds a JSON `null`. -/
def HoldsNull (jsonObj : Option J) (key : String) : Prop :=
  json.objectGetEx jsonObj key = some none

/-- The format that is loaded over the format of the configuration. -/
def formatOf (jsonObj : Option J) (format : ModbusFormat) : ModbusFormat :=
  match json.objectGetEx jsonObj "modbus_format" with
  | none => format
  | some field => parseModbusFormat (cString ((json.getString field).getD []))

/-- No field that is loaded as a string holds a JSON `null`. -/
def StringsPresent (jsonObj : Option J) (format : ModbusFormat) : Prop :=
  (∀ key ∈ ["name", "modbus_format", "path", "modbus_role", "gpio"], ¬ json.HoldsNull jsonObj key) ∧
    (json.formatOf jsonObj format = .tcp → ¬ json.HoldsNull jsonObj "ip")

section Module

variable {json} {jsonObj : Option J} {key : String} {store : ModuleConfig → Bytes → ModuleConfig}
  {config config' : ModuleConfig}

/-- A string is loaded, and what follows goes on with it, or the key holds a JSON `null`. -/
theorem exists_loadString_bind_iff {f : ModuleConfig → Option ModuleConfig} {p : Prop}
    (hf : ∀ c, json.loadString jsonObj key store config = some c → ((∃ r, f c = some r) ↔ p)) :
    (∃ r, (json.loadString jsonObj key store config).bind f = some r) ↔
      ¬ json.HoldsNull jsonObj key ∧ p := by
  rw [loadString] at hf ⊢
  rw [HoldsNull]
  rcases hfield : json.objectGetEx jsonObj key with _ | _ | j
  · rw [hfield] at hf
    simpa using hf config rfl
  · simp [json.getString_null]
  · obtain ⟨s, hs⟩ := Option.isSome_iff_exists.mp (json.getString_isSome j)
    rw [hfield] at hf
    simp only [hs, Option.map_some] at hf
    simpa [hs] using hf _ rfl

/-- A string is loaded from its field, or there is no such field. -/
theorem loadString_cases (h : json.loadString jsonObj key store config = some config') :
    json.objectGetEx jsonObj key = none ∧ config' = config ∨
      ∃ field s, json.objectGetEx jsonObj key = some field ∧ json.getString field = some s ∧
        config' = store config s := by
  rw [loadString] at h
  cases hfield : json.objectGetEx jsonObj key with
  | none =>
    rw [hfield] at h
    exact .inl ⟨rfl, (Option.some.inj h).symm⟩
  | some field =>
    rw [hfield] at h
    obtain ⟨s, hs, rfl⟩ := Option.map_eq_some_iff.mp h
    exact .inr ⟨field, s, rfl, hs, rfl⟩

/-- A string that is no `modbus_format` leaves the format as it is. -/
theorem format_of_loadString (h : json.loadString jsonObj key store config = some config')
    (hstore : ∀ c s, (store c s).format = c.format) :
    config'.format = config.format := by
  rcases loadString_cases h with ⟨-, rfl⟩ | ⟨field, s, -, -, rfl⟩
  · rfl
  · exact hstore config s

theorem format_loadField {store : ModuleConfig → Option J → ModuleConfig}
    (hstore : ∀ c field, (store c field).format = c.format) :
    (json.loadField jsonObj key store config).format = config.format := by
  rw [loadField]
  cases json.objectGetEx jsonObj key with
  | none => rfl
  | some field => exact hstore config field

/-- The field `modbus_format`. -/
theorem format_of_loadString_format
    (h : json.loadString jsonObj "modbus_format"
      (fun c s => { c with format := parseModbusFormat (cString s) }) config = some config') :
    config'.format = json.formatOf jsonObj config.format := by
  rw [formatOf]
  rcases loadString_cases h with ⟨hfield, rfl⟩ | ⟨field, s, hfield, hs, rfl⟩
  · rw [hfield]
  · simp only [hfield, hs, Option.getD_some]

/-- The fields that depend on the format. -/
theorem exists_loadLink_iff :
    (∃ r, json.loadLink jsonObj config = some r) ↔
      ¬ json.HoldsNull jsonObj "gpio" ∧ (config.format = .tcp → ¬ json.HoldsNull jsonObj "ip") := by
  rw [loadLink]
  cases config.format with
  | rtu => exact exists_loadString_bind_iff fun c _ => by simp
  | tcp =>
    refine exists_loadString_bind_iff fun c _ => ?_
    refine (exists_loadString_bind_iff (p := True) fun c _ => by simp).trans ?_
    simp

/-- **The configuration of a unit** is loaded if and only if no string of it is a JSON `null`. -/
theorem exists_loadModuleConfig_iff :
    (∃ r, json.loadModuleConfig jsonObj config = some r) ↔
      json.StringsPresent jsonObj config.format := by
  cases jsonObj with
  | none => simp [loadModuleConfig, StringsPresent, HoldsNull, json.objectGetEx_null]
  | some j =>
    have hlink : ∀ c, c.format = json.formatOf (some j) config.format →
        ((∃ r, (json.loadLink (some j) c).bind
            (fun c => some { c with rtuPollIntervalMs := 200 }) = some r) ↔
          ¬ json.HoldsNull (some j) "gpio" ∧
            (json.formatOf (some j) config.format = .tcp → ¬ json.HoldsNull (some j) "ip")) := by
      intro c hc
      rw [← hc, ← exists_loadLink_iff]
      constructor
      · rintro ⟨r, h⟩
        obtain ⟨c', hc', -⟩ := Option.bind_eq_some_iff.mp h
        exact ⟨c', hc'⟩
      · rintro ⟨c', hc'⟩
        exact ⟨_, Option.bind_eq_some_iff.mpr ⟨c', hc', rfl⟩⟩
    have hkeys : json.StringsPresent (some j) config.format ↔
        ¬ json.HoldsNull (some j) "name" ∧ ¬ json.HoldsNull (some j) "modbus_format" ∧
          ¬ json.HoldsNull (some j) "path" ∧ ¬ json.HoldsNull (some j) "modbus_role" ∧
          ¬ json.HoldsNull (some j) "gpio" ∧
            (json.formatOf (some j) config.format = .tcp → ¬ json.HoldsNull (some j) "ip") := by
      simp [StringsPresent, and_assoc]
    rw [hkeys]
    -- the strings one after the other, with the format from `modbus_format` on
    refine exists_loadString_bind_iff fun named hname => ?_
    refine exists_loadString_bind_iff fun formatted hformat => ?_
    refine exists_loadString_bind_iff fun pathed hpath => ?_
    refine exists_loadString_bind_iff fun roled hrole => hlink roled ?_
    rw [format_of_loadString hrole fun _ _ => rfl, format_of_loadString hpath fun _ _ => rfl,
      format_of_loadString_format hformat, format_loadField, format_loadField,
      format_of_loadString hname fun _ _ => rfl]
    · exact fun _ _ => rfl
    · exact fun _ _ => rfl

end Module

/-! ### The entries -/

section Entries

variable {json} {n : ℕ} {ups : List ModuleConfig}

/-- The loop loads the enabled entries, as many as there are rows for. -/
theorem loadEntries_eq (entries : List (Option J)) (hn : n < MAX_UPS_COUNT) :
    json.loadEntries entries n ups =
      (fillRows json.loadModuleConfig ((entries.filter json.isEnabled).take (MAX_UPS_COUNT - n))
        n ups).map fun rows =>
          (n + ((entries.filter json.isEnabled).take (MAX_UPS_COUNT - n)).length, rows) := by
  induction entries generalizing n ups with
  | nil => simp [loadEntries, fillRows]
  | cons upsObj entries ih =>
    rw [loadEntries]
    cases henabled : json.isEnabled upsObj with
    | false =>
      rw [List.filter_cons_of_neg (by simp [henabled])]
      exact ih hn
    | true =>
      obtain ⟨k, hk⟩ : ∃ k, MAX_UPS_COUNT - n = k + 1 := ⟨MAX_UPS_COUNT - n - 1, by omega⟩
      rw [List.filter_cons_of_pos henabled, hk, List.take_succ_cons, fillRows]
      cases hrow : fillRow json.loadModuleConfig upsObj n ups with
      | none => rfl
      | some config =>
        rcases Nat.lt_or_ge (n + 1) MAX_UPS_COUNT with hlt | hfull
        · have hk' : MAX_UPS_COUNT - (n + 1) = k := by omega
          simp only [Bool.not_true, Bool.false_eq_true, if_false, if_neg (Nat.not_le.mpr hlt),
            ih hlt, hk', Option.bind_some, List.length_cons]
          congr 1
          funext rows
          rw [Nat.add_assoc, Nat.add_comm 1]
        · obtain rfl : k = 0 := by omega
          simp [fillRows, hfull]

end Entries

/-! ### Documents -/

/-- The entries of the array `UPS` of the document. Without the array there are none. -/
def upsEntries (doc : J) : List (Option J) :=
  match json.objectGetEx (some doc) "UPS" with
  | some (some arr) =>
    if json.isArray (some arr) then
      (List.range (json.arrayLength arr)).map (json.arrayGetIdx arr)
    else []
  | _ => []

/-- The enabled entries, in the order of the document. -/
def enabledEntries (doc : J) : List (Option J) := (json.upsEntries doc).filter json.isEnabled

/-- The entries that the `int` counter reaches. -/
def reach (doc : J) : ℕ := (arrayLengthInt (json.upsEntries doc).length).toNat

/-- No entry that is not reached is enabled, or as many are enabled before as there are rows. -/
def EntriesReached (doc : J) : Prop :=
  (∀ e ∈ (json.upsEntries doc).drop (json.reach doc), ¬ json.isEnabled e) ∨
    MAX_UPS_COUNT ≤ ((json.upsEntries doc).take (json.reach doc)).countP json.isEnabled

/-- The document is loaded, without a string that is missing: the first enabled entries, as many as
there are rows for, are loaded into the rows. -/
def Loads (doc : J) : Prop :=
  ∃ config, json.loadJsonConfig doc = some config ∧
    config.upsCount = min MAX_UPS_COUNT (json.enabledEntries doc).length ∧
    ∀ k e, k < config.upsCount → (json.enabledEntries doc)[k]? = some e →
      ∃ m, json.loadModuleConfig e .zero = some m ∧ config.ups[k]? = some m

/-- The entries that are loaded. -/
def loadedEntries (doc : J) : List (Option J) :=
  (((json.upsEntries doc).take (json.reach doc)).filter json.isEnabled).take MAX_UPS_COUNT

section Documents

variable {json} {doc : J}

theorem toNat_bmod_le (n m : ℕ) : ((n : ℤ).bmod m).toNat ≤ n := by
  have hmod : (n : ℤ) % m ≤ n := by exact_mod_cast Nat.mod_le n m
  rw [Int.bmod_def]
  split_ifs <;> omega

theorem toNat_arrayLengthInt_le (n : ℕ) : (arrayLengthInt n).toNat ≤ n := toNat_bmod_le n _

/-- The loader fills the rows with the entries that are loaded. -/
theorem loadJsonConfig_eq :
    json.loadJsonConfig doc =
      (fillRows json.loadModuleConfig (json.loadedEntries doc) 0
        (List.replicate MAX_UPS_COUNT .zero)).map fun rows =>
          ⟨rows, (json.loadedEntries doc).length⟩ := by
  have hnone : json.upsEntries doc = [] → json.loadedEntries doc = [] := fun h => by
    simp [loadedEntries, h]
  have hloaded : json.loadedEntries doc = (((json.upsEntries doc).take
    (arrayLengthInt (json.upsEntries doc).length).toNat).filter json.isEnabled).take
      (MAX_UPS_COUNT - 0) := rfl
  rw [loadJsonConfig]
  rw [upsEntries] at hnone hloaded
  rcases hups : json.objectGetEx (some doc) "UPS" with _ | _ | arr
  · rw [hups] at hnone
    rw [hnone rfl]
    rfl
  · rw [hups] at hnone
    rw [hnone rfl]
    rfl
  · simp only [hups] at hnone hloaded
    cases harray : json.isArray (some arr) with
    | false =>
      rw [harray] at hnone
      rw [hnone rfl]
      simp [loadUpsConfig, harray, fillRows, SystemConfig.zero]
    | true =>
      simp only [harray, if_true, List.length_map, List.length_range, ← List.map_take,
        List.take_range, Nat.min_eq_left (toNat_arrayLengthInt_le _)] at hloaded
      simp only [loadUpsConfig, harray, loadEntries_eq _ (by decide : 0 < MAX_UPS_COUNT),
        ← hloaded, Option.map_map]
      simp [SystemConfig.zero, Function.comp_def]

theorem loadJsonConfig_eq_some_iff {config : SystemConfig} :
    json.loadJsonConfig doc = some config ↔
      fillRows json.loadModuleConfig (json.loadedEntries doc) 0
          (List.replicate MAX_UPS_COUNT .zero) = some config.ups ∧
        config.upsCount = (json.loadedEntries doc).length := by
  obtain ⟨ups, upsCount⟩ := config
  simp only [loadJsonConfig_eq, Option.map_eq_some_iff, SystemConfig.mk.injEq]
  constructor
  · rintro ⟨rows, hrows, rfl, hcount⟩
    exact ⟨hrows, hcount.symm⟩
  · rintro ⟨hrows, hcount⟩
    exact ⟨ups, hrows, rfl, hcount.symm⟩

theorem fillRow_zero {e : Option J} {k : ℕ} (hk : k < MAX_UPS_COUNT) :
    fillRow json.loadModuleConfig e k (List.replicate MAX_UPS_COUNT .zero) =
      json.loadModuleConfig e .zero := by
  rw [fillRow, List.getElem?_replicate, if_pos hk, Option.bind_some]

theorem length_loadedEntries_le : (json.loadedEntries doc).length ≤ MAX_UPS_COUNT :=
  List.length_take_le _ _

/-- The entries that are loaded can be loaded if their strings are present. -/
theorem exists_loadJsonConfig_iff :
    (∃ config, json.loadJsonConfig doc = some config) ↔
      ∀ e ∈ json.loadedEntries doc, json.StringsPresent e .rtu := by
  have hload : ∀ k e, (json.loadedEntries doc)[k]? = some e →
      ((∃ row, fillRow json.loadModuleConfig e (0 + k) (List.replicate MAX_UPS_COUNT .zero) =
        some row) ↔ json.StringsPresent e .rtu) := by
    intro k e hk
    have hlt := (List.getElem?_eq_some_iff.mp hk).1
    rw [Nat.zero_add, fillRow_zero (hlt.trans_le length_loadedEntries_le)]
    exact exists_loadModuleConfig_iff
  have hfill : (∃ config, json.loadJsonConfig doc = some config) ↔
      ∃ rows, fillRows json.loadModuleConfig (json.loadedEntries doc) 0
        (List.replicate MAX_UPS_COUNT .zero) = some rows := by
    constructor
    · rintro ⟨config, h⟩
      exact ⟨config.ups, (loadJsonConfig_eq_some_iff.mp h).1⟩
    · rintro ⟨rows, h⟩
      exact ⟨_, by rw [loadJsonConfig_eq, h, Option.map_some]⟩
  rw [hfill, exists_fillRows_iff]
  constructor
  · intro h e he
    obtain ⟨k, hk⟩ := List.mem_iff_getElem?.mp he
    exact (hload k e hk).mp (h k e hk)
  · exact fun h k e hk => (hload k e hk).mpr (h e (List.mem_of_getElem? hk))

/-- The entries that are loaded are as many as the document should give. -/
theorem length_loadedEntries_eq_iff :
    (json.loadedEntries doc).length = min MAX_UPS_COUNT (json.enabledEntries doc).length ↔
      json.EntriesReached doc := by
  rw [loadedEntries, enabledEntries, List.length_take, ← List.countP_eq_length_filter,
    ← List.countP_eq_length_filter]
  exact min_countP_take_iff

/-- With the entries reached, those that are loaded are the first enabled ones. -/
theorem loadedEntries_eq (h : json.EntriesReached doc) :
    json.loadedEntries doc = (json.enabledEntries doc).take MAX_UPS_COUNT :=
  take_filter_take h

end Documents

/-- **The documents that are loaded.** Those in which none of the entries that are loaded has a JSON
`null` for a string, and in which the `int` counter reaches these entries. -/
theorem loads_iff (doc : J) :
    json.Loads doc ↔
      (∀ e ∈ (json.enabledEntries doc).take MAX_UPS_COUNT, json.StringsPresent e .rtu) ∧
        json.EntriesReached doc := by
  constructor
  · rintro ⟨config, hload, hcount, -⟩
    rw [(loadJsonConfig_eq_some_iff.mp hload).2] at hcount
    have hreached := length_loadedEntries_eq_iff.mp hcount
    refine ⟨?_, hreached⟩
    rw [← loadedEntries_eq hreached]
    exact exists_loadJsonConfig_iff.mp ⟨config, hload⟩
  · rintro ⟨hstrings, hreached⟩
    rw [← loadedEntries_eq hreached] at hstrings
    obtain ⟨config, hload⟩ := exists_loadJsonConfig_iff.mpr hstrings
    obtain ⟨hrows, hcount⟩ := loadJsonConfig_eq_some_iff.mp hload
    refine ⟨config, hload, hcount.trans (length_loadedEntries_eq_iff.mpr hreached),
      fun k e hk he => ?_⟩
    rw [hcount] at hk
    have hlt : k < MAX_UPS_COUNT := Nat.lt_of_lt_of_le hk length_loadedEntries_le
    have hmem : (json.loadedEntries doc)[k]? = some e := by
      rw [loadedEntries_eq hreached, List.getElem?_take_of_lt hlt, he]
    obtain ⟨m, hm⟩ : ∃ m, json.loadModuleConfig e .zero = some m :=
      exists_loadModuleConfig_iff.mpr (hstrings e (List.mem_of_getElem? hmem))
    have hrow := getElem?_of_fillRows hrows hmem
    rw [Nat.zero_add, fillRow_zero hlt, hm] at hrow
    exact ⟨m, hm, hrow⟩

end JsonC

/-! ### A document that is not loaded -/

/-- The objects of the document `{"UPS": [{"enabled": true, "name": null}]}`. -/
inductive NamelessObject
  | document
  | ups
  | entry
  | enabled
  deriving DecidableEq

open NamelessObject in
/-- json-c at the document. -/
def namelessJson : JsonC NamelessObject where
  objectGetEx
    | some document, "UPS" => some (some ups)
    | some entry, "enabled" => some (some enabled)
    | some entry, "name" => some none
    | _, _ => none
  isArray j := decide (j = some ups)
  arrayLength
    | ups => 1
    | _ => 0
  arrayGetIdx
    | ups, 0 => some entry
    | _, _ => none
  getBoolean j := decide (j = some enabled)
  getInt j := if j = some enabled then 1 else 0
  getString
    | none => none
    | some document =>
      some (ascii "\x7b \"UPS\": [ \x7b \"enabled\": true, \"name\": null \x7d ] \x7d")
    | some ups => some (ascii "[ \x7b \"enabled\": true, \"name\": null \x7d ]")
    | some entry => some (ascii "\x7b \"enabled\": true, \"name\": null \x7d")
    | some enabled => some (ascii "true")
  objectGetEx_null _ := rfl
  getString_null := rfl
  getString_isSome j := by cases j <;> rfl

/-- A `null` for the name of an enabled entry is given to `strncpy`. -/
theorem not_loads : ¬ ∀ (J : Type) (json : JsonC J) (doc : J), json.Loads doc := by
  intro h
  obtain ⟨config, hload, -⟩ := h NamelessObject namelessJson .document
  have hnone : namelessJson.loadJsonConfig .document = none := by decide
  rw [hnone] at hload
  cases hload

end LoopCharger.Config

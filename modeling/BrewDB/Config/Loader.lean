import BrewDB.Config.Layering

/-!
# The system configuration

Reference: `SystemConfigLoader` and the typed access of `ConfigSet`, `brewdb-common/src/config.rs`.

A file of settings is a tree of tables. Its leaves, under their dotted paths, are laid over the defaults of the
registry, so that typed access to a registered key always finds a value of its kind. Reading a file and parsing its
text come from outside.
-/

namespace BrewDB.Config

open Layers

/-! ## Typed access -/

/-- `type_mismatch_error`. -/
def typeMismatchError (key : String) (expected : ConfigValueKind) (actual : ConfigValue) : CommonError :=
  ⟨key, "expected " ++ expected.toString ++ ", found " ++ actual.kind.toString⟩

/-- `missing_config_error`. -/
def missingConfigError (key : String) : CommonError := ⟨key, "missing required config value"⟩

namespace ConfigSet

variable (config : ConfigSet)

/-- `get_bool`. -/
def getBool (key : String) : Except CommonError (Option Bool) :=
  match config.get key with
  | some (.bool value) => .ok (some value)
  | some other => .error (typeMismatchError key .bool other)
  | none => .ok none

/-- `get_u64`. -/
def getU64 (key : String) : Except CommonError (Option UInt64) :=
  match config.get key with
  | some (.u64 value) => .ok (some value)
  | some other => .error (typeMismatchError key .u64 other)
  | none => .ok none

/-- `get_string`. -/
def getString (key : String) : Except CommonError (Option String) :=
  match config.get key with
  | some (.string value) => .ok (some value)
  | some other => .error (typeMismatchError key .string other)
  | none => .ok none

/-- What `require_bool`, `require_u64` and `require_string` do with the result. -/
def required {α : Type} (key : String) (found : Except CommonError (Option α)) : Except CommonError α := do
  match ← found with
  | some value => return value
  | none => throw (missingConfigError key)

def requireBool (key : String) : Except CommonError Bool := required key (config.getBool key)

def requireU64 (key : String) : Except CommonError UInt64 := required key (config.getU64 key)

def requireString (key : String) : Except CommonError String := required key (config.getString key)

end ConfigSet

/-! ## The loader -/

mutual

/-- `toml::Value`. -/
inductive TomlValue where
  | table (table : TomlTable)
  | boolean (value : Bool)
  | integer (value : Int64)
  | string (value : String)
  | float
  | array
  | datetime

/-- `toml::Table`, in the order in which it is iterated. -/
inductive TomlTable where
  | nil
  | cons (key : String) (value : TomlValue) (rest : TomlTable)

end

/-- `invalid_toml_root_error`. -/
def invalidTomlRootError (kind : String) : CommonError :=
  ⟨"system_config", "invalid root toml value kind `" ++ kind ++ "`"⟩

/-- `invalid_toml_value_error`. -/
def invalidTomlValueError (keyPrefix : Option String) (kind : String) : CommonError :=
  ⟨keyPrefix.getD "system_config", "unsupported toml value kind `" ++ kind ++ "`"⟩

/-- The prefix below a key. -/
def nextPrefix (keyPrefix : Option String) (key : String) : String :=
  match keyPrefix with
  | some keyPrefix => keyPrefix ++ "." ++ key
  | none => key

/-- The key of a value that is not a table. -/
def requireKey (keyPrefix : Option String) (kind : String) : Except CommonError String :=
  match keyPrefix with
  | some key => .ok key
  | none => .error (invalidTomlRootError kind)

mutual

/-- `flatten_toml_value`, with the entries of the patch. -/
def flattenTomlValue (keyPrefix : Option String) (entries : List ConfigEntry) :
    TomlValue → Except CommonError (List ConfigEntry)
  | .table table => flattenTomlTable keyPrefix entries table
  | .boolean value => do return entries ++ [⟨← requireKey keyPrefix "bool", .bool value⟩]
  | .integer value => do
      let key ← requireKey keyPrefix "integer"
      if value < 0 then throw ⟨key, "expected non-negative integer"⟩
      else return entries ++ [⟨key, .u64 value.toUInt64⟩]
  | .string value => do return entries ++ [⟨← requireKey keyPrefix "string", .string value⟩]
  | .float => .error (invalidTomlValueError keyPrefix "float")
  | .array => .error (invalidTomlValueError keyPrefix "array")
  | .datetime => .error (invalidTomlValueError keyPrefix "datetime")

/-- The loop over a table. -/
def flattenTomlTable (keyPrefix : Option String) (entries : List ConfigEntry) :
    TomlTable → Except CommonError (List ConfigEntry)
  | .nil => .ok entries
  | .cons key value rest => do
      let entries ← flattenTomlValue (some (nextPrefix keyPrefix key)) entries value
      flattenTomlTable keyPrefix entries rest

end

/-- `SystemConfigLoader`. -/
structure SystemConfigLoader where
  registry : ConfigRegistry

/-- `load_toml_str`, of a source that parses to this table. -/
def SystemConfigLoader.loadToml (loader : SystemConfigLoader) (table : TomlTable) : Except CommonError ConfigSet := do
  let entries ← flattenTomlValue none [] (.table table)
  match loader.registry.materializeDefaults.applyPatchWithRegistry loader.registry ⟨.system, entries⟩ with
  | (.ok (), config) => return config
  | (.error error, _) => throw error

/-- `load_toml_str`. -/
def SystemConfigLoader.loadTomlStr (parse : String → Except String TomlTable) (loader : SystemConfigLoader)
    (source : String) : Except CommonError ConfigSet :=
  match parse source with
  | .ok table => loader.loadToml table
  | .error reason => .error ⟨"system_config", "failed to parse toml: " ++ reason⟩

/-! ## Leaves -/

/-- What a leaf of a tree of settings is read as. -/
def TomlValue.setting : TomlValue → Option ConfigValue
  | .boolean value => some (.bool value)
  | .integer value => if value < 0 then none else some (.u64 value.toUInt64)
  | .string value => some (.string value)
  | .table _ | .float | .array | .datetime => none

mutual

/-- The leaves below a value, under their dotted paths. -/
def TomlValue.leaves (path : String) : TomlValue → List (String × TomlValue)
  | .table table => table.leavesBelow (some path)
  | value => [(path, value)]

/-- The leaves of a table. -/
def TomlTable.leavesBelow (path : Option String) : TomlTable → List (String × TomlValue)
  | .nil => []
  | .cons key value rest => value.leaves (nextPrefix path key) ++ rest.leavesBelow path

end

/-- The leaves of a file. -/
def TomlTable.leaves (table : TomlTable) : List (String × TomlValue) := table.leavesBelow none

/-- The entry is the setting of the leaf. -/
def Sets (leaf : String × TomlValue) (entry : ConfigEntry) : Prop :=
  entry.key = leaf.1 ∧ leaf.2.setting = some entry.value

/-- The setting of the last leaf with this path. -/
def TomlTable.setting (table : TomlTable) (key : String) : Option ConfigValue :=
  (lastValue key table.leaves).bind TomlValue.setting

section

variable {registry : ConfigRegistry} {loader : SystemConfigLoader} {table : TomlTable} {config : ConfigSet}

/-! ## What is loaded -/

/-- What is related to two lists, one after the other, is two such lists. -/
theorem exists_append_of_forall₂ {α β : Type} {R : α → β → Prop} {l₁ l₂ : List α} {l : List β}
    (h : List.Forall₂ R (l₁ ++ l₂) l) :
    ∃ first second, l = first ++ second ∧ List.Forall₂ R l₁ first ∧ List.Forall₂ R l₂ second := by
  induction l₁ generalizing l with
  | nil => exact ⟨[], l, rfl, .nil, h⟩
  | cons a l₁ ih =>
      obtain ⟨b, rest, hab, hrest, rfl⟩ := List.forall₂_cons_left_iff.mp h
      obtain ⟨first, second, rfl, hfirst, hsecond⟩ := ih hrest
      exact ⟨b :: first, second, rfl, .cons hab hfirst, hsecond⟩

mutual

/-- Flattening a value adds the settings of its leaves, and fails if one of them has none. -/
theorem flattenTomlValue_eq_ok {path : String} {entries result : List ConfigEntry} (value : TomlValue) :
    flattenTomlValue (some path) entries value = .ok result ↔
      ∃ added, List.Forall₂ Sets (value.leaves path) added ∧ result = entries ++ added := by
  have hleaf : ∀ {leaf : TomlValue} {setting : ConfigValue}, leaf.setting = some setting →
      (Except.ok (entries ++ [⟨path, setting⟩]) = (.ok result : Except CommonError _) ↔
        ∃ added, List.Forall₂ Sets [(path, leaf)] added ∧ result = entries ++ added) := by
    intro leaf setting hsetting
    constructor
    · intro h
      exact ⟨_, .cons ⟨rfl, hsetting⟩ .nil, (Except.ok.inj h).symm⟩
    · rintro ⟨added, hadded, rfl⟩
      obtain ⟨⟨key, value⟩, rest, ⟨hkey, hvalue⟩, hrest, rfl⟩ := List.forall₂_cons_left_iff.mp hadded
      obtain rfl := List.forall₂_nil_left_iff.mp hrest
      obtain rfl : key = path := hkey
      obtain rfl : setting = value := Option.some.inj (hsetting.symm.trans hvalue)
      rfl
  have hnone : ∀ {leaf : TomlValue} {error : CommonError}, leaf.setting = none →
      ((.error error : Except CommonError _) = .ok result ↔
        ∃ added, List.Forall₂ Sets [(path, leaf)] added ∧ result = entries ++ added) := by
    intro leaf error hsetting
    refine iff_of_false nofun ?_
    rintro ⟨added, hadded, -⟩
    obtain ⟨entry, rest, ⟨-, hvalue⟩, -⟩ := List.forall₂_cons_left_iff.mp hadded
    cases hsetting.symm.trans hvalue
  cases value with
  | table table => exact flattenTomlTable_eq_ok table
  | boolean value => exact hleaf rfl
  | string value => exact hleaf rfl
  | integer value =>
      by_cases hnegative : value < 0
      · rw [flattenTomlValue]
        simp only [requireKey, if_pos hnegative]
        exact hnone (show (TomlValue.integer value).setting = none from if_pos hnegative)
      · rw [flattenTomlValue]
        simp only [requireKey, if_neg hnegative]
        exact hleaf (show (TomlValue.integer value).setting = some _ from if_neg hnegative)
  | float => exact hnone rfl
  | array => exact hnone rfl
  | datetime => exact hnone rfl

/-- So does flattening a table. -/
theorem flattenTomlTable_eq_ok {path : Option String} {entries result : List ConfigEntry} (table : TomlTable) :
    flattenTomlTable path entries table = .ok result ↔
      ∃ added, List.Forall₂ Sets (table.leavesBelow path) added ∧ result = entries ++ added := by
  cases table with
  | nil =>
      rw [flattenTomlTable, TomlTable.leavesBelow]
      constructor
      · intro h
        exact ⟨[], .nil, by rw [List.append_nil, Except.ok.inj h]⟩
      · rintro ⟨added, hadded, rfl⟩
        rw [List.forall₂_nil_left_iff.mp hadded, List.append_nil]
  | cons key value rest =>
      rw [flattenTomlTable, TomlTable.leavesBelow, ExceptRun.bind_eq_ok]
      constructor
      · rintro ⟨middle, hvalue, hrest⟩
        obtain ⟨first, hfirst, rfl⟩ := (flattenTomlValue_eq_ok value).mp hvalue
        obtain ⟨second, hsecond, rfl⟩ := (flattenTomlTable_eq_ok rest).mp hrest
        exact ⟨first ++ second, List.rel_append hfirst hsecond, List.append_assoc _ _ _⟩
      · rintro ⟨added, hadded, rfl⟩
        obtain ⟨first, second, rfl, hfirst, hsecond⟩ := exists_append_of_forall₂ hadded
        exact ⟨entries ++ first, (flattenTomlValue_eq_ok value).mpr ⟨first, hfirst, rfl⟩,
          (flattenTomlTable_eq_ok rest).mpr ⟨second, hsecond, (List.append_assoc _ _ _).symm⟩⟩

end

/-- Every leaf of the table is a setting of a registered key, of its kind and allowed for the system. -/
def ConfigRegistry.AdmitsTable (registry : ConfigRegistry) (table : TomlTable) : Prop :=
  ∀ leaf ∈ table.leaves, ∃ value, leaf.2.setting = some value ∧ registry.Admits .system ⟨leaf.1, value⟩

theorem loadToml_eq_ok {registry : ConfigRegistry} : SystemConfigLoader.loadToml ⟨registry⟩ table = .ok config ↔
    ∃ entries, List.Forall₂ Sets table.leaves entries ∧ (∀ entry ∈ entries, registry.Admits .system entry) ∧
      config = registry.materializeDefaults.applyPatch ⟨.system, entries⟩ := by
  rw [SystemConfigLoader.loadToml, ExceptRun.bind_eq_ok]
  constructor
  · rintro ⟨entries, hflatten, happly⟩
    obtain ⟨added, hadded, hentries⟩ := (flattenTomlTable_eq_ok table).mp hflatten
    rw [hentries] at happly
    rw [List.nil_append] at happly
    refine ⟨added, hadded, ?_⟩
    rcases @applyPatchWithRegistry_eq registry registry.materializeDefaults ⟨.system, added⟩ with
      ⟨hvalid, heq⟩ | ⟨error, -, heq⟩
    · rw [heq] at happly
      exact ⟨validatePatch_eq_ok_iff.mp hvalid, (Except.ok.inj happly).symm⟩
    · rw [heq] at happly
      cases happly
  · rintro ⟨entries, hentries, hadmits, rfl⟩
    refine ⟨entries, (flattenTomlTable_eq_ok table).mpr ⟨entries, hentries, rfl⟩, ?_⟩
    have hvalid : registry.validatePatch ⟨.system, entries⟩ = .ok () := validatePatch_eq_ok_iff.mpr hadmits
    simp only [ConfigSet.applyPatchWithRegistry, hvalid]
    rfl

/-- A table is loaded if and only if every leaf is admitted. -/
theorem isOk_loadToml_iff {registry : ConfigRegistry} :
    (∃ config, SystemConfigLoader.loadToml ⟨registry⟩ table = .ok config) ↔ registry.AdmitsTable table := by
  simp only [loadToml_eq_ok, ConfigRegistry.AdmitsTable]
  generalize table.leaves = leaves
  constructor
  · rintro ⟨config, entries, hentries, hadmits, -⟩ leaf hleaf
    induction hentries with
    | nil => cases hleaf
    | cons hsets _ ih =>
        obtain ⟨hfirst, hrest⟩ := List.forall_mem_cons.mp hadmits
        rcases List.mem_cons.mp hleaf with rfl | hleaf
        · obtain ⟨hkey, hvalue⟩ := hsets
          rw [← hkey]
          exact ⟨_, hvalue, hfirst⟩
        · exact ih hrest hleaf
  · intro hadmits
    suffices h : ∃ entries, List.Forall₂ Sets leaves entries ∧ ∀ entry ∈ entries, registry.Admits .system entry by
      obtain ⟨entries, hentries, hall⟩ := h
      exact ⟨_, entries, hentries, hall, rfl⟩
    induction leaves with
    | nil => exact ⟨[], .nil, nofun⟩
    | cons leaf leaves ih =>
        obtain ⟨⟨value, hvalue, hfirst⟩, hrest⟩ := List.forall_mem_cons.mp hadmits
        obtain ⟨entries, hentries, hall⟩ := ih hrest
        exact ⟨⟨leaf.1, value⟩ :: entries, .cons ⟨rfl, hvalue⟩ hentries, List.forall_mem_cons.mpr ⟨hfirst, hall⟩⟩

theorem setting_ne_none_of_sets {leaves : List (String × TomlValue)} {entries : List ConfigEntry}
    (h : List.Forall₂ Sets leaves entries) : ∀ leaf ∈ leaves, leaf.2.setting ≠ none := by
  induction h with
  | nil => exact nofun
  | cons hsets _ ih =>
      refine List.forall_mem_cons.mpr ⟨?_, ih⟩
      rw [hsets.2]
      exact Option.some_ne_none _

/-- The last setting of a key is that of its last leaf. -/
theorem lastEntry_of_sets {leaves : List (String × TomlValue)} {entries : List ConfigEntry}
    (h : List.Forall₂ Sets leaves entries) (key : String) :
    (ConfigPatch.mk .system entries).lastEntry key = (lastValue key leaves).bind TomlValue.setting := by
  rw [ConfigPatch.lastEntry, ConfigPatch.bindings]
  induction h with
  | nil => rfl
  | @cons leaf entry leaves entries hsets hrest ih =>
      obtain ⟨hkey, hvalue⟩ := hsets
      rw [List.map_cons, lastValue_cons, lastValue_cons, ih, hkey]
      cases hlast : lastValue key leaves with
      | none =>
          rw [Option.none_or, Option.bind_none, Option.none_or]
          split_ifs with h
          · exact hvalue.symm
          · rfl
      | some later =>
          -- a later leaf of this path has a setting as well
          have hsome := setting_ne_none_of_sets hrest _ (mem_of_lastValue hlast)
          obtain ⟨value, hvalue⟩ := Option.ne_none_iff_exists'.mp hsome
          rw [Option.some_or, Option.bind_some, hvalue, Option.some_or]

/-- The defaults are laid over nothing. -/
theorem materializeDefaults_eq (registry : ConfigRegistry) : registry.materializeDefaults =
    ConfigSet.applyPatch ⟨BTreeMap.empty⟩
      ⟨.system, registry.definitions.entries.map fun binding => ⟨binding.1, binding.2.defaultValue⟩⟩ := by
  rw [ConfigRegistry.materializeDefaults, ConfigSet.applyPatch, List.foldl_map]
  generalize (BTreeMap.empty : BTreeMap String ConfigValue) = values
  induction registry.definitions.entries generalizing values with
  | nil => rfl
  | cons binding bindings ih => exact ih _

/-- The default of a key is that of its definition. -/
theorem get_materializeDefaults {key : String} {definition : ConfigDefinition}
    (h : registry.definition key = some definition) :
    registry.materializeDefaults.get key = some definition.defaultValue := by
  have hmem := registry.definitions.get?_eq_some_iff.mp h
  rw [materializeDefaults_eq, get_applyPatch, ConfigPatch.lastEntry, ConfigPatch.bindings, List.map_map]
  have hsome : (lastValue key (registry.definitions.entries.map fun binding =>
      (binding.1, binding.2.defaultValue))).isSome :=
    isSome_lastValue.mpr ⟨_, List.mem_map_of_mem hmem, rfl⟩
  obtain ⟨value, hvalue⟩ := Option.isSome_iff_exists.mp hsome
  obtain ⟨binding, hbinding, heq⟩ := List.mem_map.mp (mem_of_lastValue hvalue)
  obtain ⟨hkey, rfl⟩ := Prod.mk.inj heq
  -- keys of a map are unique
  have hget : registry.definition key = some binding.2 := by
    rw [← hkey]
    exact registry.definitions.get?_eq_some_iff.mpr hbinding
  obtain rfl := Option.some.inj (h.symm.trans hget)
  have hmapped : (fun entry : ConfigEntry => (entry.key, entry.value)) ∘
      (fun binding : String × ConfigDefinition => ConfigEntry.mk binding.1 binding.2.defaultValue) =
        fun binding => (binding.1, binding.2.defaultValue) := rfl
  rw [hmapped, hvalue, Option.some_or]

/-- What is loaded for a registered key: its setting, or else its default, which is of its kind. -/
theorem get_of_loadToml {key : String} {definition : ConfigDefinition}
    (hload : SystemConfigLoader.loadToml ⟨registry⟩ table = .ok config)
    (hdefinition : registry.definition key = some definition) :
    config.get key = some ((table.setting key).getD definition.defaultValue) ∧
      ((table.setting key).getD definition.defaultValue).kind = definition.valueKind := by
  obtain ⟨entries, hentries, hadmits, rfl⟩ := loadToml_eq_ok.mp hload
  have hget : (registry.materializeDefaults.applyPatch ⟨.system, entries⟩).get key =
      some ((table.setting key).getD definition.defaultValue) := by
    rw [get_applyPatch, lastEntry_of_sets hentries, get_materializeDefaults hdefinition, TomlTable.setting]
    cases (lastValue key table.leaves).bind TomlValue.setting <;> rfl
  have hpatch : registry.validatePatch ⟨.system, entries⟩ = .ok () := validatePatch_eq_ok_iff.mpr hadmits
  have hvalid := validateConfig_applyPatch (validateConfig_materializeDefaults registry) hpatch
  obtain ⟨definition', hdefinition', hkind⟩ := validateConfig_eq_ok_iff.mp hvalid _ _ hget
  obtain rfl := Option.some.inj (hdefinition.symm.trans hdefinition')
  exact ⟨hget, hkind⟩

end

end BrewDB.Config

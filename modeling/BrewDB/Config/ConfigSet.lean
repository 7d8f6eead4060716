import BrewDB.Common.BTreeMap
import BrewDB.Common.ExceptState
import BrewDB.Common.Layers

/-!
# Configuration

Reference: `brewdb-common/src/config.rs`.

A configuration is a map from keys to values; patches for a scope are laid over it, checked against a
registry of definitions or not.
-/

namespace BrewDB.Config

/-- `CommonError::InvalidConfiguration`. -/
structure CommonError where
  field : String
  reason : String
deriving DecidableEq, Repr

/-! ## Values -/

inductive ConfigScope where
  | system
  | session
  | statement
deriving DecidableEq, Repr

namespace ConfigScope

def toString : ConfigScope → String
  | .system => "system"
  | .session => "session"
  | .statement => "statement"

def priority : ConfigScope → ℕ
  | .system => 0
  | .session => 1
  | .statement => 2

end ConfigScope

inductive ConfigValueKind where
  | bool
  | u64
  | string
deriving DecidableEq, Repr

def ConfigValueKind.toString : ConfigValueKind → String
  | .bool => "bool"
  | .u64 => "u64"
  | .string => "string"

inductive ConfigValue where
  | bool (value : Bool)
  | u64 (value : UInt64)
  | string (value : String)
deriving DecidableEq

def ConfigValue.kind : ConfigValue → ConfigValueKind
  | .bool _ => .bool
  | .u64 _ => .u64
  | .string _ => .string

/-! ## Definitions -/

/-- A definition; its default is of its kind. -/
structure ConfigDefinition where
  key : String
  valueKind : ConfigValueKind
  defaultValue : ConfigValue
  allowedScopes : List ConfigScope
  defaultKind : defaultValue.kind = valueKind

namespace ConfigDefinition

/-- `validate_config_key`. -/
def validateConfigKey (key : String) : Except CommonError Unit :=
  if "brewdb.".toList <+: key.toList then .ok ()
  else .error ⟨key, "config key must start with `brewdb.`"⟩

/-- `new`: all scopes are allowed. -/
def new (key : String) (valueKind : ConfigValueKind) (defaultValue : ConfigValue) :
    Except CommonError ConfigDefinition := do
  validateConfigKey key
  if h : defaultValue.kind = valueKind then
    return ⟨key, valueKind, defaultValue, [.system, .session, .statement], h⟩
  else
    throw ⟨key, "default value kind mismatch: expected " ++ valueKind.toString ++ ", found " ++
      defaultValue.kind.toString⟩

def withAllowedScopes (definition : ConfigDefinition) (scopes : List ConfigScope) : ConfigDefinition :=
  { definition with allowedScopes := scopes }

def allowsScope (definition : ConfigDefinition) (scope : ConfigScope) : Bool :=
  scope ∈ definition.allowedScopes

def validateValue (definition : ConfigDefinition) (value : ConfigValue) : Except CommonError Unit :=
  if value.kind = definition.valueKind then .ok ()
  else .error ⟨definition.key, "expected " ++ definition.valueKind.toString ++ ", found " ++
    value.kind.toString⟩

def validateScope (definition : ConfigDefinition) (scope : ConfigScope) : Except CommonError Unit :=
  if definition.allowsScope scope then .ok ()
  else .error ⟨definition.key, "scope `" ++ scope.toString ++ "` is not allowed"⟩

theorem validateValue_eq_ok_iff {definition : ConfigDefinition} {value : ConfigValue} :
    definition.validateValue value = .ok () ↔ value.kind = definition.valueKind := by
  unfold validateValue
  split
  next h => exact iff_of_true rfl h
  next h => exact iff_of_false nofun h

theorem validateScope_eq_ok_iff {definition : ConfigDefinition} {scope : ConfigScope} :
    definition.validateScope scope = .ok () ↔ definition.allowsScope scope = true := by
  unfold validateScope
  split
  next h => exact iff_of_true rfl h
  next h => exact iff_of_false nofun h

end ConfigDefinition

/-- The definitions by their keys. -/
structure ConfigRegistry where
  definitions : BTreeMap String ConfigDefinition

/-! ## Patches and sets -/

structure ConfigEntry where
  key : String
  value : ConfigValue
deriving DecidableEq

structure ConfigPatch where
  scope : ConfigScope
  entries : List ConfigEntry
deriving DecidableEq

structure ConfigSet where
  values : BTreeMap String ConfigValue

/-- `unknown_key_error`. -/
def unknownKeyError (key : String) : CommonError := ⟨key, "unknown config key"⟩

namespace ConfigRegistry

variable (registry : ConfigRegistry)

def definition (key : String) : Option ConfigDefinition := registry.definitions.get? key

/-- `register`. -/
def register (definition : ConfigDefinition) : Except CommonError ConfigRegistry :=
  if (registry.definition definition.key).isSome then .error ⟨definition.key, "duplicate config key"⟩
  else .ok ⟨registry.definitions.insert definition.key definition⟩

/-- The definition of a key. -/
def require (key : String) : Except CommonError ConfigDefinition :=
  match registry.definition key with
  | some definition => .ok definition
  | none => .error (unknownKeyError key)

/-- One entry of `validate_patch`. -/
def validateEntry (scope : ConfigScope) (entry : ConfigEntry) : Except CommonError Unit := do
  let definition ← registry.require entry.key
  definition.validateScope scope
  definition.validateValue entry.value

def validatePatch (patch : ConfigPatch) : Except CommonError Unit :=
  patch.entries.forM (registry.validateEntry patch.scope)

/-- One entry of `validate_config`. -/
def validateBinding (binding : String × ConfigValue) : Except CommonError Unit := do
  let definition ← registry.require binding.1
  definition.validateValue binding.2

def validateConfig (config : ConfigSet) : Except CommonError Unit :=
  config.values.entries.forM registry.validateBinding

def materializeDefaults : ConfigSet :=
  ⟨registry.definitions.entries.foldl (fun values binding => values.insert binding.1 binding.2.defaultValue)
    BTreeMap.empty⟩

end ConfigRegistry

namespace ConfigSet

variable (config : ConfigSet)

def get (key : String) : Option ConfigValue := config.values.get? key

/-- `set`. -/
def set (key : String) (value : ConfigValue) : ConfigSet := ⟨config.values.insert key value⟩

/-- `apply_patch`: the entries overwrite one by one. -/
def applyPatch (patch : ConfigPatch) : ConfigSet :=
  patch.entries.foldl (fun config entry => config.set entry.key entry.value) config

/-- `apply_patch_with_registry`, with the set that it leaves. -/
def applyPatchWithRegistry (registry : ConfigRegistry) (patch : ConfigPatch) :
    Except CommonError Unit × ConfigSet :=
  match registry.validatePatch patch with
  | .ok () => (.ok (), config.applyPatch patch)
  | .error error => (.error error, config)

/-- The patches in the order in which they are applied. -/
def ordered (patches : List ConfigPatch) : List ConfigPatch :=
  Layers.sortByKey (fun patch => patch.scope.priority) patches

/-- `merge_patches`. -/
def mergePatches (patches : List ConfigPatch) : ConfigSet := (ordered patches).foldl applyPatch config

/-- The loop of `merge_patches_with_registry`. -/
def applyAll (registry : ConfigRegistry) : List ConfigPatch → ConfigSet → Except CommonError ConfigSet
  | [], config => .ok config
  | patch :: patches, config =>
      match config.applyPatchWithRegistry registry patch with
      | (.ok (), config) => applyAll registry patches config
      | (.error error, _) => .error error

/-- `merge_patches_with_registry`. -/
def mergePatchesWithRegistry (registry : ConfigRegistry) (patches : List ConfigPatch) :
    Except CommonError ConfigSet :=
  applyAll registry (ordered patches) config

end ConfigSet

end BrewDB.Config

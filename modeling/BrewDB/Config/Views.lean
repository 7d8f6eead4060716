import BrewDB.Config.Loader

/-!
# Views of the configuration

Reference: `define_config_view!` and `global_config_registry` of `brewdb-common/src/config.rs`,
`brewdb-catalog/src/config.rs` and `brewdb-frontend/src/config.rs`.

A view registers a definition for each of its fields and reads the fields back, parsing each. The standard library
decides what is a socket address.
-/

namespace BrewDB.Config

open Layers

/-! ## Registration -/

namespace ConfigRegistry

/-- `ConfigRegistry::new`. -/
def new : ConfigRegistry := ⟨BTreeMap.empty⟩

/-- `register_definitions`. -/
def registerDefinitions (registry : ConfigRegistry) : List ConfigDefinition → Except CommonError ConfigRegistry
  | [] => .ok registry
  | definition :: definitions => do
      let registry ← registry.register definition
      registerDefinitions registry definitions

/-- The loop of `global_config_registry`. -/
def registerAll (registry : ConfigRegistry) : List (List ConfigDefinition) → Except CommonError ConfigRegistry
  | [] => .ok registry
  | definitions :: registrations => do
      let registry ← registry.registerDefinitions definitions
      registerAll registry registrations

end ConfigRegistry

/-- `global_config_registry`, of the registrations in the order in which they are collected. -/
def globalConfigRegistry (registrations : List (List ConfigDefinition)) : Except CommonError ConfigRegistry :=
  ConfigRegistry.new.registerAll registrations

section

variable {registry registry' : ConfigRegistry}

/-- Registering keeps what is registered. -/
theorem definition_register {definition : ConfigDefinition} (h : registry.register definition = .ok registry') :
    registry'.definition definition.key = some definition ∧
      ∀ key found, registry.definition key = some found → registry'.definition key = some found := by
  rw [ConfigRegistry.register] at h
  split_ifs at h with hduplicate
  obtain rfl := Except.ok.inj h
  refine ⟨?_, fun key found hfound => ?_⟩
  · rw [ConfigRegistry.definition, BTreeMap.get?_insert, if_pos rfl]
  · rw [ConfigRegistry.definition, BTreeMap.get?_insert, if_neg]
    · exact hfound
    · rintro rfl
      rw [hfound] at hduplicate
      exact hduplicate rfl

theorem definition_registerDefinitions {definitions : List ConfigDefinition}
    (h : registry.registerDefinitions definitions = .ok registry') :
    (∀ definition ∈ definitions, registry'.definition definition.key = some definition) ∧
      ∀ key found, registry.definition key = some found → registry'.definition key = some found := by
  induction definitions generalizing registry with
  | nil =>
      obtain rfl := Except.ok.inj h
      exact ⟨nofun, fun _ _ hfound => hfound⟩
  | cons definition definitions ih =>
      obtain ⟨middle, hfirst, hrest⟩ := ExceptRun.bind_eq_ok.mp h
      obtain ⟨hself, hkept⟩ := definition_register hfirst
      obtain ⟨hall, hkept'⟩ := ih hrest
      exact ⟨List.forall_mem_cons.mpr ⟨hkept' _ _ hself, hall⟩, fun key found hfound => hkept' _ _ (hkept _ _ hfound)⟩

theorem definition_registerAll {registrations : List (List ConfigDefinition)}
    (h : registry.registerAll registrations = .ok registry') :
    (∀ definitions ∈ registrations, ∀ definition ∈ definitions,
        registry'.definition definition.key = some definition) ∧
      ∀ key found, registry.definition key = some found → registry'.definition key = some found := by
  induction registrations generalizing registry with
  | nil =>
      obtain rfl := Except.ok.inj h
      exact ⟨nofun, fun _ _ hfound => hfound⟩
  | cons definitions registrations ih =>
      obtain ⟨middle, hfirst, hrest⟩ := ExceptRun.bind_eq_ok.mp h
      obtain ⟨hself, hkept⟩ := definition_registerDefinitions hfirst
      obtain ⟨hall, hkept'⟩ := ih hrest
      refine ⟨List.forall_mem_cons.mpr ⟨fun definition hmem => hkept' _ _ (hself definition hmem), hall⟩, ?_⟩
      exact fun key found hfound => hkept' _ _ (hkept _ _ hfound)

end

/-! ## The views -/

/-- A string that only the system may set. -/
def systemString (key default : String) : ConfigDefinition := ⟨key, .string, .string default, [.system], rfl⟩

inductive CatalogStoreBackendKind where
  | fdb
  | memory
deriving DecidableEq, Repr

/-- `CATALOG_STORE_BACKEND_KEY`. -/
def catalogStoreBackendKey : String := "brewdb.catalog.store.backend"

/-- `CATALOG_PAIMON_WAREHOUSE_KEY`. -/
def catalogPaimonWarehouseKey : String := "brewdb.catalog.paimon.warehouse"

/-- `CatalogStoreBackendKind::parse`. -/
def CatalogStoreBackendKind.parse (value : String) : Except CommonError CatalogStoreBackendKind :=
  if value = "fdb" then .ok .fdb
  else if value = "memory" then .ok .memory
  else .error ⟨catalogStoreBackendKey, "unsupported backend `" ++ value ++ "`, expected `fdb` or `memory`"⟩

structure CatalogConfig where
  storeBackend : CatalogStoreBackendKind
  paimonWarehouse : String
deriving DecidableEq, Repr

namespace CatalogConfig

def configDefinitions : List ConfigDefinition :=
  [systemString catalogStoreBackendKey "memory", systemString catalogPaimonWarehouseKey ""]

def fromConfigSet (config : ConfigSet) : Except CommonError CatalogConfig := do
  let storeBackend ← CatalogStoreBackendKind.parse (← config.requireString catalogStoreBackendKey)
  let paimonWarehouse ← config.requireString catalogPaimonWarehouseKey
  return ⟨storeBackend, paimonWarehouse⟩

end CatalogConfig

/-- `PGWIRE_LISTEN_ADDR_KEY`. -/
def pgwireListenAddrKey : String := "brewdb.frontend.pgwire.listen_addr"

/-- `DEFAULT_CATALOG_KEY`. -/
def defaultCatalogKey : String := "brewdb.frontend.default_catalog"

/-- `MANAGED_PAIMON_CATALOG_NAME`. -/
def managedPaimonCatalogName : String := "managed_paimon_catalog"

structure FrontendConfig where
  defaultCatalog : String
  pgwireListenAddr : String
deriving DecidableEq, Repr

namespace FrontendConfig

def configDefinitions : List ConfigDefinition :=
  [systemString defaultCatalogKey managedPaimonCatalogName, systemString pgwireListenAddrKey "127.0.0.1:5432"]

def fromConfigSet (socketAddr : String → Except String Unit) (config : ConfigSet) :
    Except CommonError FrontendConfig := do
  let defaultCatalog ← config.requireString defaultCatalogKey
  let pgwireListenAddr ← config.requireString pgwireListenAddrKey
  match socketAddr pgwireListenAddr with
  | .ok () => return ⟨defaultCatalog, pgwireListenAddr⟩
  | .error reason => throw ⟨pgwireListenAddrKey, "invalid socket address: " ++ reason⟩

end FrontendConfig

/-! ## Reading a loaded configuration -/

/-- The text that a table sets, or else the default. -/
def TomlTable.text (table : TomlTable) (key default : String) : String :=
  match table.setting key with
  | some (.string value) => value
  | _ => default

section

variable {registry : ConfigRegistry} {table : TomlTable} {config : ConfigSet}

/-- A registered string is always there. -/
theorem requireString_of_loadToml {key default : String}
    (hload : SystemConfigLoader.loadToml ⟨registry⟩ table = .ok config)
    (hdefinition : registry.definition key = some (systemString key default)) :
    config.requireString key = .ok (table.text key default) := by
  obtain ⟨hget, hkind⟩ := get_of_loadToml hload hdefinition
  rw [ConfigSet.requireString, ConfigSet.getString, hget, TomlTable.text]
  cases hsetting : table.setting key with
  | none => rfl
  | some value =>
      rw [hsetting, Option.getD_some] at hkind
      cases value with
      | string value => rfl
      | bool value => cases hkind
      | u64 value => cases hkind

/-- The catalog's view of a loaded configuration. -/
theorem catalogConfig_of_loadToml (hload : SystemConfigLoader.loadToml ⟨registry⟩ table = .ok config)
    (hviews : ∀ definition ∈ CatalogConfig.configDefinitions, registry.definition definition.key = some definition) :
    CatalogConfig.fromConfigSet config =
      (CatalogStoreBackendKind.parse (table.text catalogStoreBackendKey "memory")).map fun storeBackend =>
        ⟨storeBackend, table.text catalogPaimonWarehouseKey ""⟩ := by
  have hbackend : config.requireString catalogStoreBackendKey = .ok (table.text catalogStoreBackendKey "memory") :=
    requireString_of_loadToml hload (hviews _ List.mem_cons_self)
  have hwarehouse : config.requireString catalogPaimonWarehouseKey = .ok (table.text catalogPaimonWarehouseKey "") :=
    requireString_of_loadToml hload (hviews _ (List.mem_cons_of_mem _ List.mem_cons_self))
  rw [CatalogConfig.fromConfigSet, hbackend, hwarehouse]
  simp only [bind, Except.bind]
  cases CatalogStoreBackendKind.parse (table.text catalogStoreBackendKey "memory") <;> rfl

/-- The frontend's view of a loaded configuration. -/
theorem frontendConfig_of_loadToml {socketAddr : String → Except String Unit}
    (hload : SystemConfigLoader.loadToml ⟨registry⟩ table = .ok config)
    (hviews : ∀ definition ∈ FrontendConfig.configDefinitions, registry.definition definition.key = some definition) :
    FrontendConfig.fromConfigSet socketAddr config =
      match socketAddr (table.text pgwireListenAddrKey "127.0.0.1:5432") with
      | .ok () => .ok ⟨table.text defaultCatalogKey managedPaimonCatalogName,
          table.text pgwireListenAddrKey "127.0.0.1:5432"⟩
      | .error reason => .error ⟨pgwireListenAddrKey, "invalid socket address: " ++ reason⟩ := by
  have hcatalog : config.requireString defaultCatalogKey =
      .ok (table.text defaultCatalogKey managedPaimonCatalogName) :=
    requireString_of_loadToml hload (hviews _ List.mem_cons_self)
  have haddr : config.requireString pgwireListenAddrKey = .ok (table.text pgwireListenAddrKey "127.0.0.1:5432") :=
    requireString_of_loadToml hload (hviews _ (List.mem_cons_of_mem _ List.mem_cons_self))
  rw [FrontendConfig.fromConfigSet, hcatalog, haddr]
  rfl

end

end BrewDB.Config

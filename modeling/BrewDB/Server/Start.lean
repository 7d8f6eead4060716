import BrewDB.Catalog.Bootstrap
import BrewDB.Config.Views
import BrewDB.Frontend.Session

/-!
# Starting a server

Reference: `BrewDbServer::from_config_file` of `brewdb-bin/src/server.rs` and `open_catalog_store` of
`brewdb-catalog/src/store/mod.rs`.

A server starts from the settings in a file: it reads the views of the catalog and of the frontend, opens an empty store
over the warehouse it was pointed at, and bootstraps the default catalog. What its SQL driver needs besides the catalogs
is left out.
-/

namespace BrewDB.Server

open BrewDB.Config BrewDB.Catalog BrewDB.PgWire

/-- `BrewDbServerError`; the store backend that is only a skeleton has an error of its own. -/
inductive BrewDbServerError where
  | common (error : CommonError)
  | catalog (error : CatalogError)
  | backendNotImplemented (backend : String)

/-- `BrewDbServer`. -/
structure BrewDbServer where
  frontend : FrontendService
  clientDefaults : ClientDefaults
  listenAddress : String
  catalogService : CatalogService

/-- What a start finds outside: the standard library's reading of addresses, the warehouses by their configuration, the
ids drawn, and what fails. -/
structure Surroundings where
  socketAddr : String → Except String Unit
  warehouse : CatalogConfig → PaimonState
  catalogId : Uuid
  databaseId : Uuid
  faults : Faults

section

variable (around : Surroundings)

/-- `with_config_and_default_managed_paimon_catalog` on the store that `open_catalog_store` opens. -/
def openCatalogService (config : CatalogConfig) (catalogName : String) : Except BrewDbServerError CatalogService :=
  match config.storeBackend with
  | .memory =>
      match (CatalogService.fresh (around.warehouse config)).bootstrap around.faults around.catalogId around.databaseId
        catalogName with
      | (.ok (), service) => .ok service
      | (.error error, _) => .error (.catalog error)
  | .fdb =>
      match CatalogPath.new catalogName with
      | .ok _ => .error (.backendNotImplemented "fdb")
      | .error error => .error (.catalog error)

/-- `from_system_config`. -/
def fromSystemConfig (config : ConfigSet) : Except BrewDbServerError BrewDbServer := do
  let catalogConfig ← (CatalogConfig.fromConfigSet config).mapError .common
  let frontendConfig ← (FrontendConfig.fromConfigSet around.socketAddr config).mapError .common
  let catalogService ← openCatalogService around catalogConfig frontendConfig.defaultCatalog
  return ⟨⟨config⟩, ⟨some frontendConfig.defaultCatalog, none⟩, frontendConfig.pgwireListenAddr, catalogService⟩

/-- `from_config_file`, of a file that parses to this table. -/
def fromConfigFile (registry : ConfigRegistry) (table : TomlTable) : Except BrewDbServerError BrewDbServer := do
  let config ← (SystemConfigLoader.loadToml ⟨registry⟩ table).mapError .common
  fromSystemConfig around config

/-! ## What it takes to start -/

/-- The name of the default catalog. -/
def defaultCatalogName (table : TomlTable) : String := table.text defaultCatalogKey managedPaimonCatalogName

/-- The address to listen on. -/
def listenAddr (table : TomlTable) : String := table.text pgwireListenAddrKey "127.0.0.1:5432"

/-- The settings are admitted, and those that the server reads make sense. -/
structure Startable (registry : ConfigRegistry) (table : TomlTable) : Prop where
  admitted : registry.AdmitsTable table
  backend : table.text catalogStoreBackendKey "memory" = "memory"
  address : around.socketAddr (listenAddr table) = .ok ()
  catalog : ∃ path, CatalogPath.new (defaultCatalogName table) = .ok path
  written : around.faults.write = none

/-- A server as the settings want it, over the warehouse as it was, save for the default database. -/
structure Ready (table : TomlTable) (config : ConfigSet) (server : BrewDbServer) : Prop where
  settings : server.frontend.systemSettings = config
  listens : server.listenAddress = listenAddr table
  clients : server.clientDefaults = ⟨some (defaultCatalogName table), none⟩
  valid : server.catalogService.Valid
  catalogs : ∀ path, CatalogPath.new (defaultCatalogName table) = .ok path →
    Bootstrapped path ⟨.empty, around.warehouse ⟨.memory, table.text catalogPaimonWarehouseKey ""⟩⟩
      server.catalogService.world

section

variable {around} {registry : ConfigRegistry} {registrations : List (List ConfigDefinition)} {table : TomlTable}

theorem parse_eq_ok_iff {value : String} {backend : CatalogStoreBackendKind} :
    CatalogStoreBackendKind.parse value = .ok backend ↔
      value = "fdb" ∧ backend = .fdb ∨ value = "memory" ∧ backend = .memory := by
  rw [CatalogStoreBackendKind.parse]
  split_ifs with hfdb hmemory
  · subst hfdb
    simp [eq_comm]
  · subst hmemory
    simp [eq_comm]
  · simp [hfdb, hmemory]

/-- The service opens exactly over the store in memory, under a catalog name, if the warehouse can be written. -/
theorem openCatalogService_eq_ok {config : CatalogConfig} {catalogName : String} :
    ((∃ service, openCatalogService around config catalogName = .ok service) ↔
      config.storeBackend = .memory ∧ (∃ path, CatalogPath.new catalogName = .ok path) ∧
        around.faults.write = none) ∧
    ∀ service, openCatalogService around config catalogName = .ok service → service.Valid ∧
      ∀ path, CatalogPath.new catalogName = .ok path →
        Bootstrapped path ⟨.empty, around.warehouse config⟩ service.world := by
  rw [openCatalogService]
  cases hbackend : config.storeBackend with
  | fdb =>
      dsimp only
      cases CatalogPath.new catalogName with
      | ok path => exact ⟨iff_of_false nofun nofun, nofun⟩
      | error error => exact ⟨iff_of_false nofun nofun, nofun⟩
  | memory =>
      dsimp only
      obtain ⟨hvalid, hiff, hready⟩ := @CatalogService.bootstrap_ready (.fresh (around.warehouse config)) around.faults
        around.catalogId around.databaseId catalogName (CatalogService.valid_fresh _) rfl rfl
      cases hbootstrap : (CatalogService.fresh (around.warehouse config)).bootstrap around.faults around.catalogId
        around.databaseId catalogName with
      | mk result service =>
          rw [hbootstrap] at hvalid hiff hready
          have hstarts : result = .ok () ↔
              (∃ path, CatalogPath.new catalogName = .ok path) ∧ around.faults.write = none := by
            refine hiff.trans ⟨?_, ?_⟩
            · rintro ⟨path, hpath, -, hwrite⟩
              exact ⟨⟨path, hpath⟩, hwrite.resolve_right Bool.false_ne_true⟩
            · rintro ⟨⟨path, hpath⟩, hwrite⟩
              exact ⟨path, hpath, nofun, .inl hwrite⟩
          cases result with
          | ok _ =>
              refine ⟨iff_of_true ⟨service, rfl⟩ ⟨rfl, hstarts.mp rfl⟩, fun opened hopened => ?_⟩
              obtain rfl := Except.ok.inj hopened
              exact ⟨hvalid, hready rfl⟩
          | error error =>
              refine ⟨iff_of_false nofun ?_, nofun⟩
              rintro ⟨-, hcan⟩
              cases hstarts.mpr hcan

/-- A server starts exactly if the settings allow it, and then it is as the settings want it. -/
theorem fromConfigFile_ready (hregistry : globalConfigRegistry registrations = .ok registry)
    (hcatalog : CatalogConfig.configDefinitions ∈ registrations)
    (hfrontend : FrontendConfig.configDefinitions ∈ registrations) :
    ((∃ server, fromConfigFile around registry table = .ok server) ↔ Startable around registry table) ∧
      ∀ server, fromConfigFile around registry table = .ok server →
        ∃ config, SystemConfigLoader.loadToml ⟨registry⟩ table = .ok config ∧ Ready around table config server := by
  obtain ⟨hregistered, -⟩ := definition_registerAll hregistry
  have hstart : ∀ server, fromConfigFile around registry table = .ok server ↔
      ∃ config, SystemConfigLoader.loadToml ⟨registry⟩ table = .ok config ∧
        table.text catalogStoreBackendKey "memory" = "memory" ∧ around.socketAddr (listenAddr table) = .ok () ∧
        ∃ service, openCatalogService around ⟨.memory, table.text catalogPaimonWarehouseKey ""⟩
          (defaultCatalogName table) = .ok service ∧
        server = ⟨⟨config⟩, ⟨some (defaultCatalogName table), none⟩, listenAddr table, service⟩ := by
    intro server
    simp only [fromConfigFile, ExceptRun.bind_eq_ok, ExceptRun.mapError_eq_ok]
    refine exists_congr fun config => and_congr_right fun hload => ?_
    simp only [fromSystemConfig, catalogConfig_of_loadToml hload (hregistered _ hcatalog),
      frontendConfig_of_loadToml hload (hregistered _ hfrontend), ExceptRun.bind_eq_ok, ExceptRun.mapError_eq_ok,
      ExceptRun.map_eq_ok, ExceptRun.pure_eq_ok, parse_eq_ok_iff]
    constructor
    · rintro ⟨catalogConfig, ⟨backend, hbackend, rfl⟩, frontendConfig, hfrontendConfig, service, hservice, rfl⟩
      split at hfrontendConfig
      next haddress =>
        obtain rfl := Except.ok.inj hfrontendConfig
        rcases hbackend with ⟨-, rfl⟩ | ⟨hmemory, rfl⟩
        · obtain ⟨hmemory, -⟩ := openCatalogService_eq_ok.1.mp ⟨service, hservice⟩
          cases hmemory
        · exact ⟨hmemory, haddress, service, hservice, rfl⟩
      next => cases hfrontendConfig
    · rintro ⟨hmemory, haddress, service, hservice, rfl⟩
      refine ⟨_, ⟨.memory, .inr ⟨hmemory, rfl⟩, rfl⟩, ⟨defaultCatalogName table, listenAddr table⟩, ?_, service, hservice,
        rfl⟩
      rw [listenAddr] at haddress
      rw [haddress]
      rfl
  constructor
  · constructor
    · rintro ⟨server, h⟩
      obtain ⟨config, hload, hbackend, haddress, service, hservice, -⟩ := (hstart server).mp h
      obtain ⟨-, hname, hwrite⟩ := openCatalogService_eq_ok.1.mp ⟨service, hservice⟩
      exact ⟨isOk_loadToml_iff.mp ⟨config, hload⟩, hbackend, haddress, hname, hwrite⟩
    · rintro ⟨hadmitted, hbackend, haddress, hname, hwrite⟩
      obtain ⟨config, hload⟩ := isOk_loadToml_iff.mpr hadmitted
      obtain ⟨service, hservice⟩ := (@openCatalogService_eq_ok around ⟨.memory, table.text catalogPaimonWarehouseKey ""⟩
        (defaultCatalogName table)).1.mpr ⟨rfl, hname, hwrite⟩
      exact ⟨_, (hstart _).mpr ⟨config, hload, hbackend, haddress, service, hservice, rfl⟩⟩
  · intro server h
    obtain ⟨config, hload, hbackend, haddress, service, hservice, rfl⟩ := (hstart server).mp h
    obtain ⟨hvalid, hready⟩ := openCatalogService_eq_ok.2 service hservice
    exact ⟨config, hload, rfl, rfl, rfl, hvalid, hready⟩

end

end

namespace Sample

/-- The registry of the two views. -/
def registry : ConfigRegistry :=
  match globalConfigRegistry [CatalogConfig.configDefinitions, FrontendConfig.configDefinitions] with
  | .ok registry => registry
  | .error _ => .new

/-- Any address will do, and the warehouse is empty. -/
def around : Surroundings := ⟨fun _ => .ok (), fun _ => ⟨.empty⟩, 0, 1, .none⟩

/-- `brewdb.frontend.pgwire.listen_addr = "0.0.0.0:6543"`. -/
def table : TomlTable :=
  .cons "brewdb" (.table (.cons "frontend" (.table (.cons "pgwire" (.table (.cons "listen_addr"
    (.string "0.0.0.0:6543") .nil)) .nil)) .nil)) .nil

theorem admitsTable : registry.AdmitsTable table := by
  intro leaf hleaf
  obtain rfl : leaf = ("brewdb.frontend.pgwire.listen_addr", .string "0.0.0.0:6543") := List.mem_singleton.mp hleaf
  exact ⟨_, rfl, systemString pgwireListenAddrKey "127.0.0.1:5432", rfl, rfl, rfl⟩

end Sample

theorem fromConfigFile_ready_table :
    ∃ server, fromConfigFile Sample.around Sample.registry Sample.table = .ok server ∧
      server.listenAddress = "0.0.0.0:6543" := by
  have hregistry : globalConfigRegistry [CatalogConfig.configDefinitions, FrontendConfig.configDefinitions] =
      .ok Sample.registry := rfl
  obtain ⟨hiff, hready⟩ := @fromConfigFile_ready Sample.around Sample.registry _ Sample.table hregistry
    List.mem_cons_self (List.mem_cons_of_mem _ List.mem_cons_self)
  obtain ⟨server, hserver⟩ := hiff.mpr ⟨Sample.admitsTable, rfl, rfl, ⟨_, rfl⟩, rfl⟩
  obtain ⟨config, -, hserverReady⟩ := hready server hserver
  exact ⟨server, hserver, hserverReady.listens⟩

end BrewDB.Server

import BrewDB.Catalog.Operations

/-!
# The catalog service

Reference: `brewdb-catalog/src/service.rs`.

The managed catalogs of a service share one store and one warehouse. In every state the store reaches, its
indexes hold the same entries, and the parents of every entry exist, as long as no database is dropped that
the store still has tables of.
-/

namespace BrewDB.Catalog

/-- `CatalogService`, with the warehouse its catalogs work on. -/
structure CatalogService where
  world : World
  registry : BTreeMap String ManagedPaimonCatalog

namespace CatalogService

variable (rules : PaimonRules) (service : CatalogService)

/-- A service with a new store. -/
def fresh (paimon : PaimonState) : CatalogService := ⟨⟨.empty, paimon⟩, .empty⟩

/-- `create_catalog`. -/
def createCatalog (entry : CatalogEntry) : Except CatalogError Unit × CatalogService :=
  if (service.world.store.getCatalog entry.path).isSome then
    (.error (.duplicateCatalog entry.path.catalog.value), service)
  else (.ok (), { service with world := ⟨service.world.store.createCatalog entry, service.world.paimon⟩ })

/-- `CatalogRegistry::register`. -/
def register (catalog : ManagedPaimonCatalog) : CatalogService :=
  { service with registry := service.registry.insert catalog.name catalog }

/-- `open_catalog`. -/
def openCatalog (catalogName : String) : Except CatalogError (ManagedPaimonCatalog × CatalogService) :=
  match service.registry.get? catalogName with
  | some catalog => .ok (catalog, service)
  | none => do
      let path ← CatalogPath.new catalogName
      match service.world.store.getCatalog path with
      | none => .error (.catalogNotFound path.catalog.value)
      | some entry =>
          if entry.mode = .managed ∧ entry.storageKind = .paimon then
            return (⟨entry⟩, service.register ⟨entry⟩)
          else .error (.catalogNotRegistered catalogName)

/-- An operation in a catalog of the service. -/
def perform (catalogName : String) (operation : CatalogOperation) (faults : Faults) :
    Except CatalogError CatalogReply × CatalogService :=
  match service.openCatalog catalogName with
  | .error error => (.error error, service)
  | .ok (catalog, opened) =>
      ((catalog.perform rules faults opened.world operation).1,
        { opened with world := (catalog.perform rules faults opened.world operation).2 })

end CatalogService

/-- A call of the service. -/
inductive ServiceCall where
  | createCatalog (entry : CatalogEntry)
  | perform (catalogName : String) (operation : CatalogOperation) (faults : Faults)

/-- The id of a new object is new. -/
def CatalogOperation.NewId (store : MemoryCatalogStore) : CatalogOperation → Prop
  | .createDatabase uuid _ _ => store.databases.byId.get? uuid = none
  | .createTable uuid _ => store.tables.byId.get? uuid = none
  | _ => True

def ServiceCall.NewId (store : MemoryCatalogStore) : ServiceCall → Prop
  | .createCatalog entry => store.catalogs.byId.get? entry.catalogId = none
  | .perform _ operation _ => operation.NewId store

instance (store : MemoryCatalogStore) (operation : CatalogOperation) : Decidable (operation.NewId store) :=
  match operation with
  | .createDatabase .. => inferInstanceAs (Decidable (_ = none))
  | .createTable .. => inferInstanceAs (Decidable (_ = none))
  | .dropDatabase .. => isTrue trivial
  | .dropTable .. => isTrue trivial
  | .renameTable .. => isTrue trivial
  | .alterTable .. => isTrue trivial

instance (store : MemoryCatalogStore) (call : ServiceCall) : Decidable (call.NewId store) :=
  match call with
  | .createCatalog _ => inferInstanceAs (Decidable (_ = none))
  | .perform _ operation _ => inferInstanceAs (Decidable (operation.NewId store))

namespace CatalogService

/-- The service after a call. -/
def afterCall (rules : PaimonRules) (service : CatalogService) : ServiceCall → CatalogService
  | .createCatalog entry => (service.createCatalog entry).2
  | .perform catalogName operation faults => (service.perform rules catalogName operation faults).2

/-- A call with new ids. -/
def step (rules : PaimonRules) (service : CatalogService) (call : ServiceCall) : Option CatalogService :=
  if call.NewId service.world.store then some (service.afterCall rules call) else none

end CatalogService

/-! ## The invariant -/

/-- Both indexes of each kind hold the same entries, and parents exist with the recorded ids. -/
structure MemoryCatalogStore.Valid (store : MemoryCatalogStore) : Prop where
  catalogs : TwoIndex.Consistent CatalogEntry.key CatalogEntry.catalogId store.catalogs
  databases : TwoIndex.Consistent DatabaseCatalogEntry.key DatabaseCatalogEntry.databaseId store.databases
  tables : TwoIndex.Consistent TableCatalogEntry.key TableCatalogEntry.tableId store.tables
  catalog_of_database : ∀ path entry, store.getDatabase path = some entry →
    ∃ catalog, store.getCatalog ⟨path.catalog⟩ = some catalog ∧ catalog.catalogId = entry.catalogId
  parents_of_table : ∀ path entry, store.getTable path = some entry →
    ∃ database catalog, store.getDatabase path.databasePath = some database ∧
      database.databaseId = entry.databaseId ∧ store.getCatalog ⟨path.catalog⟩ = some catalog ∧
      catalog.catalogId = entry.catalogId

namespace MemoryCatalogStore

variable {store : MemoryCatalogStore}

theorem valid_empty : empty.Valid where
  catalogs := TwoIndex.consistent_empty
  databases := TwoIndex.consistent_empty
  tables := TwoIndex.consistent_empty
  catalog_of_database _ _ h := by cases h
  parents_of_table _ _ h := by cases h

/-- An entry is kept under its own path. -/
theorem Valid.path_of_getTable (h : store.Valid) {path : TablePath} {entry : TableCatalogEntry}
    (hentry : store.getTable path = some entry) : entry.path = path :=
  TablePath.toString_injective (h.tables.of_key _ _ hentry).1

theorem Valid.path_of_getDatabase (h : store.Valid) {path : DatabasePath} {entry : DatabaseCatalogEntry}
    (hentry : store.getDatabase path = some entry) : entry.path = path :=
  DatabasePath.toString_injective (h.databases.of_key _ _ hentry).1

theorem Valid.path_of_getCatalog (h : store.Valid) {path : CatalogPath} {entry : CatalogEntry}
    (hentry : store.getCatalog path = some entry) : entry.path = path :=
  CatalogPath.toString_injective (h.catalogs.of_key _ _ hentry).1

/-- A database lists its tables, each once. -/
theorem Valid.listTables (h : store.Valid) (path : DatabasePath) :
    (store.listTables path).Nodup ∧ ∀ entry, entry ∈ store.listTables path ↔
      store.getTable entry.path = some entry ∧ entry.path.databasePath = path := by
  refine ⟨h.tables.nodup_values.filter _, fun entry => ?_⟩
  rw [MemoryCatalogStore.listTables, List.mem_filter, h.tables.mem_values, decide_eq_true_eq]
  rfl

theorem Valid.listDatabases (h : store.Valid) (path : CatalogPath) :
    (store.listDatabases path).Nodup ∧ ∀ entry, entry ∈ store.listDatabases path ↔
      store.getDatabase entry.path = some entry ∧ entry.path.catalog = path.catalog := by
  refine ⟨h.databases.nodup_values.filter _, fun entry => ?_⟩
  rw [MemoryCatalogStore.listDatabases, List.mem_filter, h.databases.mem_values, decide_eq_true_eq]
  rfl

/-! ## Updates of the store -/

theorem Valid.createCatalog (h : store.Valid) {entry : CatalogEntry} (hpath : store.getCatalog entry.path = none)
    (hid : store.catalogs.byId.get? entry.catalogId = none) : (store.createCatalog entry).Valid where
  catalogs := h.catalogs.put
    (fun e' he' => by rw [show store.catalogs.byKey.get? entry.key = none from hpath] at he'; cases he')
    (fun e' he' => by rw [hid] at he'; cases he')
  databases := h.databases
  tables := h.tables
  catalog_of_database path database hdatabase := by
    obtain ⟨catalog, hcatalog, hcatalogId⟩ := h.catalog_of_database path database hdatabase
    refine ⟨catalog, ?_, hcatalogId⟩
    rw [getCatalog_createCatalog, if_neg, hcatalog]
    intro heq
    rw [heq, hpath] at hcatalog
    cases hcatalog
  parents_of_table path table htable := by
    obtain ⟨database, catalog, hdatabase, hdatabaseId, hcatalog, hcatalogId⟩ :=
      h.parents_of_table path table htable
    refine ⟨database, catalog, hdatabase, hdatabaseId, ?_, hcatalogId⟩
    rw [getCatalog_createCatalog, if_neg, hcatalog]
    intro heq
    rw [heq, hpath] at hcatalog
    cases hcatalog

theorem Valid.createDatabase (h : store.Valid) {entry : DatabaseCatalogEntry} {catalog : CatalogEntry}
    (hpath : store.getDatabase entry.path = none) (hid : store.databases.byId.get? entry.databaseId = none)
    (hcatalog : store.getCatalog ⟨entry.path.catalog⟩ = some catalog)
    (hcatalogId : catalog.catalogId = entry.catalogId) : (store.createDatabase entry).Valid where
  catalogs := h.catalogs
  databases := h.databases.put
    (fun e' he' => by rw [show store.databases.byKey.get? entry.key = none from hpath] at he'; cases he')
    (fun e' he' => by rw [hid] at he'; cases he')
  tables := h.tables
  catalog_of_database path database hdatabase := by
    rw [getDatabase_createDatabase] at hdatabase
    split_ifs at hdatabase with heq
    · cases hdatabase
      rw [heq]
      exact ⟨catalog, hcatalog, hcatalogId⟩
    · exact h.catalog_of_database path database hdatabase
  parents_of_table path table htable := by
    obtain ⟨database, catalog, hdatabase, hdatabaseId, hcatalog, hcatalogId⟩ :=
      h.parents_of_table path table htable
    refine ⟨database, catalog, ?_, hdatabaseId, hcatalog, hcatalogId⟩
    rw [getDatabase_createDatabase, if_neg, hdatabase]
    intro heq
    rw [heq, hpath] at hdatabase
    cases hdatabase

/-- A database without tables is removed. -/
theorem Valid.deleteDatabase (h : store.Valid) {path : DatabasePath}
    (hempty : ∀ table : TablePath, table.databasePath = path → store.getTable table = none) :
    (store.deleteDatabase path).Valid where
  catalogs := h.catalogs
  databases := h.databases.delete _
  tables := h.tables
  catalog_of_database path' database hdatabase := by
    rw [getDatabase_deleteDatabase] at hdatabase
    split_ifs at hdatabase
    exact h.catalog_of_database path' database hdatabase
  parents_of_table path' table htable := by
    obtain ⟨database, catalog, hdatabase, hparents⟩ := h.parents_of_table path' table htable
    refine ⟨database, catalog, ?_, hparents⟩
    rw [getDatabase_deleteDatabase, if_neg, hdatabase]
    intro heq
    rw [getTable_deleteDatabase, hempty path' heq] at htable
    cases htable

theorem Valid.deleteTable (h : store.Valid) (path : TablePath) : (store.deleteTable path).Valid where
  catalogs := h.catalogs
  databases := h.databases
  tables := h.tables.delete _
  catalog_of_database := h.catalog_of_database
  parents_of_table path' table htable := by
    rw [getTable_deleteTable] at htable
    split_ifs at htable
    exact h.parents_of_table path' table htable

/-- A table is written under a path and an id that are both new, or both of the table it replaces. -/
theorem Valid.createTable (h : store.Valid) {entry : TableCatalogEntry} {database : DatabaseCatalogEntry}
    {catalog : CatalogEntry}
    (hpath : ∀ e', store.getTable entry.path = some e' → e'.tableId = entry.tableId)
    (hid : ∀ e', store.tables.byId.get? entry.tableId = some e' → e'.path = entry.path)
    (hdatabase : store.getDatabase entry.path.databasePath = some database)
    (hdatabaseId : database.databaseId = entry.databaseId)
    (hcatalog : store.getCatalog ⟨entry.path.catalog⟩ = some catalog)
    (hcatalogId : catalog.catalogId = entry.catalogId) : (store.createTable entry).Valid where
  catalogs := h.catalogs
  databases := h.databases
  tables := h.tables.put hpath fun e' he' => congrArg TablePath.toString (hid e' he')
  catalog_of_database := h.catalog_of_database
  parents_of_table path table htable := by
    rw [getTable_createTable] at htable
    split_ifs at htable with heq
    · cases htable
      rw [heq]
      exact ⟨database, catalog, hdatabase, hdatabaseId, hcatalog, hcatalogId⟩
    · exact h.parents_of_table path table htable

end MemoryCatalogStore

/-! ## Operations -/

namespace ManagedPaimonCatalog

variable {rules : PaimonRules} {self : ManagedPaimonCatalog} {faults : Faults} {w w' : World}

/-- The catalog is in the store. -/
def Registered (self : ManagedPaimonCatalog) (store : MemoryCatalogStore) : Prop :=
  store.getCatalog self.entry.path = some self.entry

/-- A dropped database has no tables in the store. -/
def DropsEmpty (self : ManagedPaimonCatalog) (w : World) (faults : Faults) : CatalogOperation → Prop
  | .dropDatabase databaseName => ∀ path paimon, self.requireDatabasePath databaseName = .ok path →
      (w.store.getDatabase path).isSome → faults.write = none →
      w.paimon.dropDatabase databaseName = .ok paimon → w.store.listTables path = []
  | _ => True

theorem databasePath_of_require {databaseName tableName : String} {path : TablePath} {database : DatabasePath}
    (hpath : self.requireTablePath databaseName tableName = .ok path)
    (hdatabase : self.requireDatabasePath databaseName = .ok database) : path.databasePath = database := by
  obtain ⟨hcatalog, hdatabaseName, -⟩ := requireTablePath_eq_ok hpath
  obtain ⟨hcatalog', hdatabaseName'⟩ := requireDatabasePath_eq_ok hdatabase
  rw [TablePath.databasePath, hcatalog, ← hcatalog',
    Segment.ext (hdatabaseName.trans hdatabaseName'.symm)]

/-- The catalog and the database of a path that was checked. -/
theorem parents_of_require (hregistered : self.Registered w.store) {databaseName tableName : String}
    {path : TablePath} {database : DatabaseCatalogEntry}
    (hpath : self.requireTablePath databaseName tableName = .ok path)
    (hdatabase : self.requireDatabase w databaseName = .ok database) :
    w.store.getDatabase path.databasePath = some database ∧
      w.store.getCatalog ⟨path.catalog⟩ = some self.entry := by
  obtain ⟨databasePath, hdatabasePath, hfound⟩ := requireDatabase_eq_ok hdatabase
  rw [databasePath_of_require hpath hdatabasePath, (requireTablePath_eq_ok hpath).1]
  exact ⟨hfound, hregistered⟩

/-- What an operation does to the store. -/
theorem createDatabase_valid (hvalid : w.store.Valid) (hregistered : self.Registered w.store) {uuid : Uuid}
    {databaseName : String} {options : Options} {r : Except CatalogError DatabaseCatalogEntry}
    (h : self.createDatabase faults w uuid databaseName options = (r, w'))
    (hfresh : w.store.databases.byId.get? uuid = none) : w'.store.Valid := by
  rcases createDatabase_cases h with ⟨_, -, rfl⟩ | ⟨path, paimon, hpath, hnone, -, -, rfl⟩
  · exact hvalid
  · have hcatalog : w.store.getCatalog ⟨path.catalog⟩ = some self.entry := by
      rw [(requireDatabasePath_eq_ok hpath).1]
      exact hregistered
    exact MemoryCatalogStore.Valid.createDatabase hvalid hnone hfresh hcatalog rfl

theorem createTable_valid (hvalid : w.store.Valid) (hregistered : self.Registered w.store) {uuid : Uuid}
    {request : CreateTableRequest} {r : Except CatalogError TableCatalogEntry}
    (h : self.createTable rules faults w uuid request = (r, w'))
    (hfresh : w.store.tables.byId.get? uuid = none) : w'.store.Valid := by
  rcases createTable_cases h with ⟨_, -, rfl⟩ |
    ⟨database, path, paimon, -, hdatabase, hpath, hnone, -, ⟨_, -, -, rfl⟩ | ⟨entry, hreload, -, rfl⟩⟩
  · exact hvalid
  · exact hvalid
  · obtain ⟨live, -, hentry⟩ := reload_eq_ok hreload
    obtain ⟨hid, hcatalogId, hdatabaseId, rfl, -⟩ := buildTableEntry_eq_ok hentry
    obtain ⟨hfound, hcatalog⟩ := parents_of_require hregistered hpath hdatabase
    refine MemoryCatalogStore.Valid.createTable hvalid (fun e' he' => ?_) (fun e' he' => ?_) hfound hdatabaseId.symm
      hcatalog hcatalogId.symm
    · rw [hnone] at he'
      cases he'
    · rw [hid, hfresh] at he'
      cases he'

theorem dropDatabase_valid (hvalid : w.store.Valid) {databaseName : String} {r : Except CatalogError Unit}
    (h : self.dropDatabase faults w databaseName = (r, w'))
    (hempty : self.DropsEmpty w faults (.dropDatabase databaseName)) : w'.store.Valid := by
  rcases dropDatabase_cases h with ⟨_, -, rfl⟩ | ⟨path, paimon, hpath, hfound, hwrite, hdropped, -, rfl⟩
  · exact hvalid
  · refine MemoryCatalogStore.Valid.deleteDatabase hvalid fun table htable => ?_
    cases hentry : w.store.getTable table with
    | none => rfl
    | some entry =>
        have hlisted : entry ∈ w.store.listTables path := by
          rw [(MemoryCatalogStore.Valid.listTables hvalid path).2 entry,
            MemoryCatalogStore.Valid.path_of_getTable hvalid hentry]
          exact ⟨hentry, htable⟩
        rw [hempty path paimon hpath hfound hwrite hdropped] at hlisted
        cases hlisted

theorem dropTable_valid (hvalid : w.store.Valid) {databaseName tableName : String} {r : Except CatalogError Unit}
    (h : self.dropTable faults w databaseName tableName = (r, w')) : w'.store.Valid := by
  rcases dropTable_cases h with ⟨_, -, rfl⟩ | ⟨path, paimon, -, -, -, rfl⟩
  · exact hvalid
  · exact MemoryCatalogStore.Valid.deleteTable hvalid path

/-- A renamed table keeps its id. -/
theorem renameTable_valid (hvalid : w.store.Valid) (hregistered : self.Registered w.store)
    {request : RenameTableRequest} {r : Except CatalogError TableCatalogEntry}
    (h : self.renameTable rules faults w request = (r, w')) :
    w'.store.Valid ∧ ∀ entry, r = .ok entry → ∃ current,
      self.requireTable w request.databaseName request.tableName = .ok current ∧
      entry.tableId = current.tableId := by
  rcases renameTable_cases h with ⟨_, rfl, rfl⟩ | ⟨current, target, path, paimon, hcurrent, htarget, hpath, hnone,
    -, -, ⟨_, -, rfl, rfl⟩ | ⟨entry, hreload, rfl, rfl⟩⟩
  · exact ⟨hvalid, fun _ hr => by cases hr⟩
  · exact ⟨hvalid, fun _ hr => by cases hr⟩
  · obtain ⟨live, -, hentry⟩ := reload_eq_ok hreload
    obtain ⟨hid, hcatalogId, hdatabaseId, rfl, -⟩ := buildTableEntry_eq_ok hentry
    obtain ⟨hfound, hcatalog⟩ := parents_of_require hregistered hpath htarget
    obtain ⟨old, -, hold⟩ := requireTable_eq_ok hcurrent
    have holdPath := MemoryCatalogStore.Valid.path_of_getTable hvalid hold
    rw [← holdPath] at hold
    refine ⟨MemoryCatalogStore.Valid.createTable (MemoryCatalogStore.Valid.deleteTable hvalid current.path)
      (fun e' he' => ?_) (fun e' he' => ?_) hfound hdatabaseId.symm hcatalog hcatalogId.symm, fun _ hr => ?_⟩
    · rw [MemoryCatalogStore.getTable_deleteTable, hnone, ite_self] at he'
      cases he'
    · -- the id was freed with the old path
      rw [hid] at he'
      rw [show (w.store.deleteTable current.path).tables.byId.get? current.tableId = none from
        (TwoIndex.get?_byId_delete hold _).trans (if_pos rfl)] at he'
      cases he'
    · cases hr
      exact ⟨current, hcurrent, hid⟩

/-- An altered table keeps its id. -/
theorem alterTable_valid (hvalid : w.store.Valid) (hregistered : self.Registered w.store)
    {request : AlterTableRequest} {r : Except CatalogError TableCatalogEntry}
    (h : self.alterTable rules faults w request = (r, w')) :
    w'.store.Valid ∧ ∀ entry, r = .ok entry → ∃ current,
      self.requireTable w request.databaseName request.tableName = .ok current ∧
      entry.tableId = current.tableId := by
  rcases alterTable_cases h with ⟨_, rfl, rfl⟩ | ⟨current, database, changes, paimon, hcurrent, hdatabase, -, -, -, -,
    ⟨_, -, rfl, rfl⟩ | ⟨entry, hfinish, rfl, rfl⟩⟩
  · exact ⟨hvalid, fun _ hr => by cases hr⟩
  · exact ⟨hvalid, fun _ hr => by cases hr⟩
  · obtain ⟨live, -, hentry⟩ := ExceptRun.bind_eq_ok.mp hfinish
    obtain ⟨hid, hcatalogId, hdatabaseId, hentryPath, -⟩ := buildTableEntry_eq_ok hentry
    obtain ⟨path, hpath, hold⟩ := requireTable_eq_ok hcurrent
    obtain ⟨hfound, hcatalog⟩ := parents_of_require hregistered hpath hdatabase
    obtain rfl := MemoryCatalogStore.Valid.path_of_getTable hvalid hold
    rw [← hentryPath] at hfound hcatalog
    refine ⟨MemoryCatalogStore.Valid.createTable hvalid (fun e' he' => ?_) (fun e' he' => ?_) hfound
      hdatabaseId.symm hcatalog hcatalogId.symm, fun _ hr => ?_⟩
    · rw [hentryPath, hold] at he'
      cases he'
      exact hid.symm
    · rw [hid, (hvalid.tables.of_key _ _ hold).2] at he'
      cases he'
      exact hentryPath.symm
    · cases hr
      exact ⟨current, hcurrent, hid⟩

/-- An operation of a registered catalog keeps the store valid. -/
theorem perform_valid (hvalid : w.store.Valid) (hregistered : self.Registered w.store)
    {operation : CatalogOperation} {r : Except CatalogError CatalogReply}
    (h : self.perform rules faults w operation = (r, w')) (hnew : operation.NewId w.store)
    (hempty : self.DropsEmpty w faults operation) : w'.store.Valid := by
  cases operation with
  | createDatabase uuid databaseName options =>
      rw [perform] at h
      obtain ⟨r', hx, -⟩ := eq_of_map_reply h
      exact createDatabase_valid hvalid hregistered hx hnew
  | createTable uuid request =>
      rw [perform] at h
      obtain ⟨r', hx, -⟩ := eq_of_map_reply h
      exact createTable_valid hvalid hregistered hx hnew
  | dropDatabase databaseName =>
      rw [perform] at h
      obtain ⟨r', hx, -⟩ := eq_of_map_reply h
      exact dropDatabase_valid hvalid hx hempty
  | dropTable databaseName tableName =>
      rw [perform] at h
      obtain ⟨r', hx, -⟩ := eq_of_map_reply h
      exact dropTable_valid hvalid hx
  | renameTable request =>
      rw [perform] at h
      obtain ⟨r', hx, -⟩ := eq_of_map_reply h
      exact (renameTable_valid hvalid hregistered hx).1
  | alterTable request =>
      rw [perform] at h
      obtain ⟨r', hx, -⟩ := eq_of_map_reply h
      exact (alterTable_valid hvalid hregistered hx).1

/-- No operation touches the catalogs. -/
theorem catalogs_perform {operation : CatalogOperation} {r : Except CatalogError CatalogReply}
    (h : self.perform rules faults w operation = (r, w')) : w'.store.catalogs = w.store.catalogs := by
  cases operation with
  | createDatabase uuid databaseName options =>
      rw [perform] at h
      obtain ⟨r', hx, -⟩ := eq_of_map_reply h
      exact World.catalogs_operate hx fun _ _ => rfl
  | createTable uuid request =>
      rw [perform] at h
      obtain ⟨r', hx, -⟩ := eq_of_map_reply h
      exact World.catalogs_operate hx fun _ _ => rfl
  | dropDatabase databaseName =>
      rw [perform] at h
      obtain ⟨r', hx, -⟩ := eq_of_map_reply h
      exact World.catalogs_operate hx fun _ _ => rfl
  | dropTable databaseName tableName =>
      rw [perform] at h
      obtain ⟨r', hx, -⟩ := eq_of_map_reply h
      exact World.catalogs_operate hx fun _ _ => rfl
  | renameTable request =>
      rw [perform] at h
      obtain ⟨r', hx, -⟩ := eq_of_map_reply h
      exact World.catalogs_operate hx fun _ _ => rfl
  | alterTable request =>
      rw [perform] at h
      obtain ⟨r', hx, -⟩ := eq_of_map_reply h
      exact World.catalogs_operate hx fun _ _ => rfl

end ManagedPaimonCatalog

/-! ## Runs of the service -/

namespace CatalogService

variable {rules : PaimonRules} {service service' : CatalogService}

/-- The store is valid, and the registered catalogs are those of the store. -/
structure Valid (service : CatalogService) : Prop where
  store : service.world.store.Valid
  registry : ∀ catalogName catalog, service.registry.get? catalogName = some catalog →
    catalog.name = catalogName ∧ catalog.Registered service.world.store

theorem valid_fresh (paimon : PaimonState) : (fresh paimon).Valid where
  store := MemoryCatalogStore.valid_empty
  registry _ _ h := by cases h

/-- Opening a catalog changes the registry at most. -/
theorem openCatalog_eq_ok (hvalid : service.Valid) {catalogName : String} {catalog : ManagedPaimonCatalog}
    {opened : CatalogService} (h : service.openCatalog catalogName = .ok (catalog, opened)) :
    catalog.name = catalogName ∧ catalog.Registered service.world.store ∧ opened.world = service.world ∧
      opened.Valid := by
  rw [openCatalog] at h
  split at h
  next found hfound =>
    cases h
    obtain ⟨hname, hregistered⟩ := hvalid.registry catalogName catalog hfound
    exact ⟨hname, hregistered, rfl, hvalid⟩
  next =>
    obtain ⟨path, hpath, h⟩ := ExceptRun.bind_eq_ok.mp h
    have hpathName : path.catalog.value = catalogName := by
      simp only [CatalogPath.new, ExceptRun.bind_eq_ok, ExceptRun.pure_eq_ok] at hpath
      obtain ⟨segment, hsegment, rfl⟩ := hpath
      exact value_of_normalizeSegment hsegment
    split at h
    next => cases h
    next entry hentry =>
      split_ifs at h
      cases h
      have hentryPath := MemoryCatalogStore.Valid.path_of_getCatalog hvalid.store hentry
      have hregistered : ManagedPaimonCatalog.Registered ⟨entry⟩ service.world.store := by
        rw [← hentryPath] at hentry
        exact hentry
      refine ⟨?_, hregistered, rfl, hvalid.store, fun name other hother => ?_⟩
      · rw [← hpathName, ← hentryPath]
        rfl
      · rw [register, BTreeMap.get?_insert] at hother
        split_ifs at hother with hname
        · cases hother
          exact ⟨hname.symm, hregistered⟩
        · exact hvalid.registry name other hother

/-- A dropped database has no tables in the store. -/
def DropsEmpty (service : CatalogService) : ServiceCall → Prop
  | .perform catalogName (.dropDatabase databaseName) faults =>
      ∀ path ∈ (DatabasePath.new catalogName databaseName).toOption,
        (service.world.store.getDatabase path).isSome → faults.write = none →
        (service.world.paimon.dropDatabase databaseName).isOk → service.world.store.listTables path = []
  | _ => True

instance (service : CatalogService) (call : ServiceCall) : Decidable (service.DropsEmpty call) :=
  match call with
  | .perform catalogName (.dropDatabase databaseName) faults =>
      inferInstanceAs (Decidable (∀ path ∈ (DatabasePath.new catalogName databaseName).toOption,
        (service.world.store.getDatabase path).isSome → faults.write = none →
        (service.world.paimon.dropDatabase databaseName).isOk → service.world.store.listTables path = []))
  | .perform _ (.createDatabase ..) _ => isTrue trivial
  | .perform _ (.createTable ..) _ => isTrue trivial
  | .perform _ (.dropTable ..) _ => isTrue trivial
  | .perform _ (.renameTable ..) _ => isTrue trivial
  | .perform _ (.alterTable ..) _ => isTrue trivial
  | .createCatalog _ => isTrue trivial

/-- `rename_table` and `alter_table` keep the id of the table. -/
def KeepsTableId (rules : PaimonRules) (service : CatalogService) : ServiceCall → Prop
  | .perform catalogName (.renameTable request) faults =>
      ∀ entry, (service.perform rules catalogName (.renameTable request) faults).1 = .ok (.table entry) →
        ∃ path current, TablePath.new catalogName request.databaseName request.tableName = .ok path ∧
          service.world.store.getTable path = some current ∧ entry.tableId = current.tableId
  | .perform catalogName (.alterTable request) faults =>
      ∀ entry, (service.perform rules catalogName (.alterTable request) faults).1 = .ok (.table entry) →
        ∃ path current, TablePath.new catalogName request.databaseName request.tableName = .ok path ∧
          service.world.store.getTable path = some current ∧ entry.tableId = current.tableId
  | _ => True

theorem createCatalog_valid (hvalid : service.Valid) {entry : CatalogEntry}
    (hnew : service.world.store.catalogs.byId.get? entry.catalogId = none) :
    (service.createCatalog entry).2.Valid := by
  rw [createCatalog]
  split_ifs with hexists
  · exact hvalid
  · rw [Option.not_isSome_iff_eq_none] at hexists
    refine ⟨MemoryCatalogStore.Valid.createCatalog hvalid.store hexists hnew, fun catalogName catalog hcatalog => ?_⟩
    obtain ⟨hname, hregistered⟩ := hvalid.registry catalogName catalog hcatalog
    refine ⟨hname, ?_⟩
    rw [ManagedPaimonCatalog.Registered, MemoryCatalogStore.getCatalog_createCatalog, if_neg, hregistered]
    intro heq
    rw [ManagedPaimonCatalog.Registered, heq, hexists] at hregistered
    cases hregistered

/-- An operation in a catalog that could be opened. -/
theorem perform_valid (hvalid : service.Valid) {catalogName : String} {operation : CatalogOperation}
    {faults : Faults} (hnew : operation.NewId service.world.store)
    (hempty : service.DropsEmpty (.perform catalogName operation faults)) :
    (service.perform rules catalogName operation faults).2.Valid := by
  rw [perform]
  split
  next => exact hvalid
  next catalog opened hopened =>
    obtain ⟨hname, hregistered, hworld, hopenedValid⟩ := openCatalog_eq_ok hvalid hopened
    rw [← hworld] at hnew hregistered
    have hdrops : catalog.DropsEmpty opened.world faults operation := by
      cases operation with
      | dropDatabase databaseName =>
          intro path paimon hpath hfound hwrite hdropped
          rw [hworld] at hfound hdropped ⊢
          rw [ManagedPaimonCatalog.requireDatabasePath, hname] at hpath
          exact hempty path (by rw [hpath]; rfl) hfound hwrite (by rw [hdropped]; rfl)
      | _ => trivial
    have hstore := ManagedPaimonCatalog.perform_valid hopenedValid.store hregistered
      (Prod.mk.eta (p := catalog.perform rules faults opened.world operation)).symm hnew hdrops
    have hcatalogs := ManagedPaimonCatalog.catalogs_perform
      (Prod.mk.eta (p := catalog.perform rules faults opened.world operation)).symm
    refine ⟨hstore, fun name other hother => ?_⟩
    obtain ⟨hotherName, hother⟩ := hopenedValid.registry name other hother
    refine ⟨hotherName, ?_⟩
    rw [ManagedPaimonCatalog.Registered, MemoryCatalogStore.getCatalog] at hother ⊢
    rw [hcatalogs]
    exact hother

theorem step_valid (hvalid : service.Valid) {call : ServiceCall} (h : service.step rules call = some service')
    (hempty : service.DropsEmpty call) : service'.Valid := by
  rw [step] at h
  split_ifs at h with hnew
  cases h
  cases call with
  | createCatalog entry => exact createCatalog_valid hvalid hnew
  | perform catalogName operation faults => exact perform_valid hvalid hnew hempty

theorem keepsTableId (hvalid : service.Valid) (call : ServiceCall) : service.KeepsTableId rules call := by
  -- what was required of the opened catalog is an entry of the store
  have hrequired : ∀ {catalogName databaseName tableName catalog opened current},
      service.openCatalog catalogName = .ok (catalog, opened) →
      catalog.requireTable opened.world databaseName tableName = .ok current →
      ∃ path, TablePath.new catalogName databaseName tableName = .ok path ∧
        service.world.store.getTable path = some current := by
    intro catalogName databaseName tableName catalog opened current hopened hcurrent
    obtain ⟨hname, -, hworld, -⟩ := openCatalog_eq_ok hvalid hopened
    obtain ⟨path, hpath, hfound⟩ := ManagedPaimonCatalog.requireTable_eq_ok hcurrent
    rw [ManagedPaimonCatalog.requireTablePath, hname] at hpath
    rw [hworld] at hfound
    exact ⟨path, hpath, hfound⟩
  have htable : ∀ {r : Except CatalogError TableCatalogEntry} {entry},
      r.map CatalogReply.table = .ok (.table entry) → r = .ok entry := by
    intro r entry h
    cases r with
    | error error => cases h
    | ok a => cases h; rfl
  cases call with
  | createCatalog entry => trivial
  | perform catalogName operation faults =>
      cases operation with
      | renameTable request =>
          intro entry h
          rw [perform] at h
          split at h
          next => cases h
          next catalog opened hopened =>
            obtain ⟨-, hregistered, hworld, hopenedValid⟩ := openCatalog_eq_ok hvalid hopened
            rw [← hworld] at hregistered
            obtain ⟨current, hcurrent, hid⟩ :=
              (ManagedPaimonCatalog.renameTable_valid hopenedValid.store hregistered
                (Prod.mk.eta (p := catalog.renameTable rules faults opened.world request)).symm).2 entry (htable h)
            obtain ⟨path, hpath, hfound⟩ := hrequired hopened hcurrent
            exact ⟨path, current, hpath, hfound, hid⟩
      | alterTable request =>
          intro entry h
          rw [perform] at h
          split at h
          next => cases h
          next catalog opened hopened =>
            obtain ⟨-, hregistered, hworld, hopenedValid⟩ := openCatalog_eq_ok hvalid hopened
            rw [← hworld] at hregistered
            obtain ⟨current, hcurrent, hid⟩ :=
              (ManagedPaimonCatalog.alterTable_valid hopenedValid.store hregistered
                (Prod.mk.eta (p := catalog.alterTable rules faults opened.world request)).symm).2 entry (htable h)
            obtain ⟨path, hpath, hfound⟩ := hrequired hopened hcurrent
            exact ⟨path, current, hpath, hfound, hid⟩
      | _ => trivial

end CatalogService

/-- What the indexes of a store promise. -/
structure MemoryCatalogStore.WellIndexed (store : MemoryCatalogStore) : Prop where
  /-- The indexes hold the same entries, each under its own path and id. -/
  catalogs : TwoIndex.Consistent CatalogEntry.key CatalogEntry.catalogId store.catalogs
  databases : TwoIndex.Consistent DatabaseCatalogEntry.key DatabaseCatalogEntry.databaseId store.databases
  tables : TwoIndex.Consistent TableCatalogEntry.key TableCatalogEntry.tableId store.tables
  /-- Distinct paths are printed differently. -/
  paths : Function.Injective CatalogPath.toString ∧ Function.Injective DatabasePath.toString ∧
    Function.Injective TablePath.toString
  /-- The database and the catalog of a table exist with the ids the table records. -/
  parents : ∀ path entry, store.getTable path = some entry →
    ∃ database catalog, store.getDatabase path.databasePath = some database ∧
      database.databaseId = entry.databaseId ∧ store.getCatalog ⟨path.catalog⟩ = some catalog ∧
      catalog.catalogId = entry.catalogId
  /-- Listings hold the entries of their parent, each once. -/
  databaseLists : ∀ path, (store.listDatabases path).Nodup ∧ ∀ entry, entry ∈ store.listDatabases path ↔
    store.getDatabase entry.path = some entry ∧ entry.path.catalog = path.catalog
  tableLists : ∀ path, (store.listTables path).Nodup ∧ ∀ entry, entry ∈ store.listTables path ↔
    store.getTable entry.path = some entry ∧ entry.path.databasePath = path

theorem MemoryCatalogStore.Valid.wellIndexed {store : MemoryCatalogStore} (h : store.Valid) :
    store.WellIndexed where
  catalogs := h.catalogs
  databases := h.databases
  tables := h.tables
  paths := ⟨CatalogPath.toString_injective, DatabasePath.toString_injective, TablePath.toString_injective⟩
  parents := h.parents_of_table
  databaseLists := MemoryCatalogStore.Valid.listDatabases h
  tableLists := MemoryCatalogStore.Valid.listTables h

namespace CatalogService

/-- In every run of a service with a new store that drops no database the store has tables of, the indexes
of the store agree after every call, and renaming and altering keep the ids of tables. -/
theorem run_wellIndexed (rules : PaimonRules) (paimon : PaimonState) (calls : List ServiceCall)
    (hempty : Transition.Along (step rules) (fun service call _ => service.DropsEmpty call) (fresh paimon) calls) :
    Transition.Along (step rules)
      (fun service call service' => service'.world.store.WellIndexed ∧ service.KeepsTableId rules call)
      (fresh paimon) calls := by
  refine Transition.along_of_along (fun service call service' hvalid hstep hempty => ?_) (valid_fresh paimon) hempty
  have hvalid' := step_valid hvalid hstep hempty
  exact ⟨hvalid', hvalid'.store.wellIndexed, keepsTableId hvalid call⟩

/-- A managed catalog. -/
def catalogEntry (uuid : Uuid) (segment : Segment) : CatalogEntry := ⟨uuid, ⟨segment⟩, .managed, .paimon⟩

theorem nonempty_prod : "prod" ≠ "" := by decide

theorem noDot_prod : '.' ∉ "prod".toList := by decide

def prod : Segment := ⟨"prod", nonempty_prod, noDot_prod⟩

def stage : Segment := ⟨"stage", by decide, by decide⟩

/-- A request for a table with one column. -/
def ordersRequest : CreateTableRequest :=
  ⟨"sales", "orders", ⟨[⟨"id", .int32, true⟩], [], [], [], none, none, []⟩, none, .empty⟩

/-- A table is created and moved away before its database is dropped. -/
def orderlyCalls : List ServiceCall :=
  [.createCatalog (catalogEntry 0 prod), .perform "prod" (.createDatabase 1 "sales" .empty) .none,
    .perform "prod" (.createTable 2 ordersRequest) .none,
    .perform "prod" (.createDatabase 3 "archive" .empty) .none,
    .perform "prod" (.renameTable ⟨"sales", "orders", "archive", "orders"⟩) .none,
    .perform "prod" (.dropDatabase "sales") .none]

theorem run_wellIndexed_orderly :
    Transition.Along (step .plain)
      (fun service call service' => service'.world.store.WellIndexed ∧ service.KeepsTableId .plain call)
      (fresh ⟨.empty⟩) orderlyCalls :=
  run_wellIndexed .plain ⟨.empty⟩ orderlyCalls (by decide +kernel)

/-- Two catalogs share a table of the warehouse: one drops it, and the other its database. -/
def sharedCalls : List ServiceCall :=
  [.createCatalog (catalogEntry 0 prod), .createCatalog (catalogEntry 1 stage),
    .perform "prod" (.createDatabase 2 "sales" .empty) .none,
    .perform "prod" (.createTable 3 ordersRequest) .none,
    .perform "stage" (.createDatabase 4 "sales" .empty) .none,
    .perform "stage" (.createTable 5 ordersRequest) .none,
    .perform "prod" (.dropTable "sales" "orders") .none]

/-- Where the store still has a table of the database. -/
def stageOrders : TablePath := ⟨stage, ⟨"sales", by decide, by decide⟩, ⟨"orders", by decide, by decide⟩⟩

/-- The other catalog keeps a table without a database. -/
theorem not_wellIndexed_shared :
    ¬ Transition.Along (step .plain)
      (fun service call service' => service'.world.store.WellIndexed ∧ service.KeepsTableId .plain call)
      (fresh ⟨.empty⟩) (sharedCalls ++ [.perform "stage" (.dropDatabase "sales") .none]) := by
  intro h
  have hrun : ((Transition.exec (step .plain) (fresh ⟨.empty⟩)
      (sharedCalls ++ [.perform "stage" (.dropDatabase "sales") .none])).map fun service =>
        (service.world.store.getTable stageOrders).isSome &&
          (service.world.store.getDatabase stageOrders.databasePath).isNone) = some true := by
    decide +kernel
  obtain ⟨service, hexec, hstate⟩ := Option.map_eq_some_iff.mp hrun
  obtain ⟨_, hindexed, -⟩ := Transition.last_of_along h hexec
  rw [Bool.and_eq_true, Option.isSome_iff_exists, Option.isNone_iff_eq_none] at hstate
  obtain ⟨⟨entry, hentry⟩, hnone⟩ := hstate
  obtain ⟨database, _, hdatabase, -⟩ := hindexed.parents stageOrders entry hentry
  rw [hnone] at hdatabase
  cases hdatabase

end CatalogService

end BrewDB.Catalog

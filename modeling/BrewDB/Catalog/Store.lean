import BrewDB.Common.TwoIndex
import BrewDB.Catalog.PaimonSchema

/-!
# The memory store

Reference: `brewdb-catalog/src/model.rs` and `store/memory.rs`.

Catalogs, databases and tables are each kept by printed path and by id. Summaries of tables, which the
catalog does not fill, are left out.
-/

namespace BrewDB.Catalog

/-- `CatalogMode`. -/
inductive CatalogMode where
  | managed
  | mounted
  | temporary
deriving DecidableEq, Repr

/-- `StorageKind`. -/
inductive StorageKind where
  | paimon
  | iceberg
  | file
  | memory
deriving DecidableEq, Repr

/-- `StorageKind::as_str`. -/
def StorageKind.asStr : StorageKind → String
  | .paimon => "paimon"
  | .iceberg => "iceberg"
  | .file => "file"
  | .memory => "memory"

/-- `CatalogEntry`. -/
structure CatalogEntry where
  catalogId : Uuid
  path : CatalogPath
  mode : CatalogMode
  storageKind : StorageKind

/-- `DatabaseCatalogEntry`. -/
structure DatabaseCatalogEntry where
  databaseId : Uuid
  catalogId : Uuid
  path : DatabasePath
  options : Options

/-- `TableCatalogEntry`. -/
structure TableCatalogEntry where
  tableId : Uuid
  catalogId : Uuid
  databaseId : Uuid
  path : TablePath
  tableSchema : TableSchema
  tableLocation : String
  storageKind : StorageKind
  catalogMode : CatalogMode
  tableOptions : Options

/-- The key a catalog is kept under. -/
def CatalogEntry.key (entry : CatalogEntry) : String := entry.path.toString

def DatabaseCatalogEntry.key (entry : DatabaseCatalogEntry) : String := entry.path.toString

def TableCatalogEntry.key (entry : TableCatalogEntry) : String := entry.path.toString

/-- `MemoryCatalogStoreBackend`. -/
structure MemoryCatalogStore where
  catalogs : TwoIndex String Uuid CatalogEntry
  databases : TwoIndex String Uuid DatabaseCatalogEntry
  tables : TwoIndex String Uuid TableCatalogEntry

namespace MemoryCatalogStore

/-- `MemoryCatalogStoreBackend::default`. -/
def empty : MemoryCatalogStore := ⟨.empty, .empty, .empty⟩

variable (store : MemoryCatalogStore)

/-- `get_catalog`. -/
def getCatalog (path : CatalogPath) : Option CatalogEntry := store.catalogs.byKey.get? path.toString

/-- `get_database`. -/
def getDatabase (path : DatabasePath) : Option DatabaseCatalogEntry :=
  store.databases.byKey.get? path.toString

/-- `get_table`. -/
def getTable (path : TablePath) : Option TableCatalogEntry := store.tables.byKey.get? path.toString

/-- `create_catalog`, which `update_catalog` calls too. -/
def createCatalog (entry : CatalogEntry) : MemoryCatalogStore :=
  { store with catalogs := store.catalogs.put CatalogEntry.key CatalogEntry.catalogId entry }

/-- `create_database`, which `update_database` calls too. -/
def createDatabase (entry : DatabaseCatalogEntry) : MemoryCatalogStore :=
  { store with
    databases := store.databases.put DatabaseCatalogEntry.key DatabaseCatalogEntry.databaseId entry }

/-- `create_table`, which `update_table` calls too. -/
def createTable (entry : TableCatalogEntry) : MemoryCatalogStore :=
  { store with tables := store.tables.put TableCatalogEntry.key TableCatalogEntry.tableId entry }

/-- `delete_database`. -/
def deleteDatabase (path : DatabasePath) : MemoryCatalogStore :=
  { store with databases := store.databases.delete DatabaseCatalogEntry.databaseId path.toString }

/-- `delete_table`. -/
def deleteTable (path : TablePath) : MemoryCatalogStore :=
  { store with tables := store.tables.delete TableCatalogEntry.tableId path.toString }

/-- `list_databases`. -/
def listDatabases (path : CatalogPath) : List DatabaseCatalogEntry :=
  store.databases.byKey.values.filter fun entry => entry.path.catalog = path.catalog

/-- `list_tables`. -/
def listTables (path : DatabasePath) : List TableCatalogEntry :=
  store.tables.byKey.values.filter fun entry => entry.path.databasePath = path

/-! ## Lookups after updates -/

variable {store}

@[simp]
theorem getTable_createTable (entry : TableCatalogEntry) (path : TablePath) :
    (store.createTable entry).getTable path = if path = entry.path then some entry else store.getTable path := by
  rw [getTable, createTable, TwoIndex.get?_put]
  simp only [TableCatalogEntry.key, TablePath.toString_injective.eq_iff, getTable]

@[simp]
theorem getTable_deleteTable (path path' : TablePath) :
    (store.deleteTable path).getTable path' = if path' = path then none else store.getTable path' := by
  rw [getTable, deleteTable, TwoIndex.get?_delete]
  simp only [TablePath.toString_injective.eq_iff, getTable]

@[simp]
theorem getDatabase_createDatabase (entry : DatabaseCatalogEntry) (path : DatabasePath) :
    (store.createDatabase entry).getDatabase path =
      if path = entry.path then some entry else store.getDatabase path := by
  rw [getDatabase, createDatabase, TwoIndex.get?_put]
  simp only [DatabaseCatalogEntry.key, DatabasePath.toString_injective.eq_iff, getDatabase]

@[simp]
theorem getDatabase_deleteDatabase (path path' : DatabasePath) :
    (store.deleteDatabase path).getDatabase path' = if path' = path then none else store.getDatabase path' := by
  rw [getDatabase, deleteDatabase, TwoIndex.get?_delete]
  simp only [DatabasePath.toString_injective.eq_iff, getDatabase]

@[simp]
theorem getCatalog_createCatalog (entry : CatalogEntry) (path : CatalogPath) :
    (store.createCatalog entry).getCatalog path =
      if path = entry.path then some entry else store.getCatalog path := by
  rw [getCatalog, createCatalog, TwoIndex.get?_put]
  simp only [CatalogEntry.key, CatalogPath.toString_injective.eq_iff, getCatalog]

@[simp]
theorem getDatabase_createTable (entry : TableCatalogEntry) (path : DatabasePath) :
    (store.createTable entry).getDatabase path = store.getDatabase path := rfl

@[simp]
theorem getDatabase_deleteTable (path : TablePath) (path' : DatabasePath) :
    (store.deleteTable path).getDatabase path' = store.getDatabase path' := rfl

@[simp]
theorem getTable_createDatabase (entry : DatabaseCatalogEntry) (path : TablePath) :
    (store.createDatabase entry).getTable path = store.getTable path := rfl

@[simp]
theorem getTable_deleteDatabase (path : DatabasePath) (path' : TablePath) :
    (store.deleteDatabase path).getTable path' = store.getTable path' := rfl

end MemoryCatalogStore

end BrewDB.Catalog

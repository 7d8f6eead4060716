import BrewDB.Catalog.Store

/-!
# The managed Paimon catalog

Reference: `brewdb-catalog/src/catalogs.rs`.

An operation checks the store, writes to Paimon, and then brings the store up to date; nothing is rolled
back. Paimon is modelled by the databases and tables it holds. Each of its calls either takes effect or
fails, and any of them, as well as any conversion of a schema, may fail for reasons of its own.
-/

namespace BrewDB.Catalog

/-! ## Paimon -/

/-- A table of Paimon. -/
structure PaimonTable where
  schema : PaimonTableSchema
  location : String
  rows : List Row

/-- The databases of a warehouse with their tables. -/
structure PaimonState where
  databases : BTreeMap String (BTreeMap String PaimonTable)

/-- `paimon::Error`. -/
inductive PaimonError where
  | databaseNotExist (database : String)
  | databaseAlreadyExist (database : String)
  | databaseNotEmpty (database : String)
  | tableNotExist (fullName : String)
  | tableAlreadyExist (fullName : String)
  | other (message : String)
deriving DecidableEq, Repr

/-- What Paimon does inside its calls. -/
structure PaimonRules where
  format : PaimonFormat
  /-- Where a new table is put. -/
  location : String → String → PaimonSchema → String
  /-- A table under its new name. -/
  renamed : String → String → PaimonTable → PaimonTable
  /-- A schema after some changes. -/
  altered : PaimonTableSchema → List SchemaChange → Except String PaimonTableSchema

namespace PaimonState

variable (rules : PaimonRules) (state : PaimonState)

/-- `get_table`. -/
def table (database table : String) : Option PaimonTable :=
  (state.databases.get? database).bind fun tables => tables.get? table

def hasDatabase (database : String) : Bool := (state.databases.get? database).isSome

/-- `Identifier::full_name`. -/
def fullName (database table : String) : String := database ++ "." ++ table

/-- One database with its tables replaced. -/
def setTables (database : String) (tables : BTreeMap String PaimonTable) : PaimonState :=
  ⟨state.databases.insert database tables⟩

/-- `create_database`. -/
def createDatabase (database : String) : Except PaimonError PaimonState :=
  match state.databases.get? database with
  | some _ => .error (.databaseAlreadyExist database)
  | none => .ok (state.setTables database .empty)

/-- `drop_database` without cascade. -/
def dropDatabase (database : String) : Except PaimonError PaimonState :=
  match state.databases.get? database with
  | none => .error (.databaseNotExist database)
  | some tables =>
      if tables.len = 0 then .ok ⟨state.databases.remove database⟩ else .error (.databaseNotEmpty database)

/-- `create_table`. -/
def createTable (database table : String) (schema : PaimonSchema) : Except PaimonError PaimonState :=
  match state.databases.get? database with
  | none => .error (.databaseNotExist database)
  | some tables =>
      match tables.get? table with
      | some _ => .error (.tableAlreadyExist (fullName database table))
      | none => .ok (state.setTables database
          (tables.insert table ⟨⟨0, schema⟩, rules.location database table schema, []⟩))

/-- `drop_table`. -/
def dropTable (database table : String) : Except PaimonError PaimonState :=
  match state.databases.get? database with
  | none => .error (.databaseNotExist database)
  | some tables =>
      match tables.get? table with
      | none => .error (.tableNotExist (fullName database table))
      | some _ => .ok (state.setTables database (tables.remove table))

/-- `rename_table`. -/
def renameTable (database table newDatabase newTable : String) : Except PaimonError PaimonState :=
  match state.table database table with
  | none => .error (.tableNotExist (fullName database table))
  | some live =>
      match state.dropTable database table with
      | .error error => .error error
      | .ok dropped =>
          match dropped.databases.get? newDatabase with
          | none => .error (.databaseNotExist newDatabase)
          | some tables =>
              match tables.get? newTable with
              | some _ => .error (.tableAlreadyExist (fullName newDatabase newTable))
              | none => .ok (dropped.setTables newDatabase
                  (tables.insert newTable (rules.renamed newDatabase newTable live)))

/-- `alter_table`. -/
def alterTable (database table : String) (changes : List SchemaChange) : Except PaimonError PaimonState :=
  match state.databases.get? database with
  | none => .error (.databaseNotExist database)
  | some tables =>
      match tables.get? table with
      | none => .error (.tableNotExist (fullName database table))
      | some live =>
          match rules.altered live.schema changes with
          | .error message => .error (.other message)
          | .ok schema => .ok (state.setTables database (tables.insert table { live with schema }))

end PaimonState

/-! ## Errors -/

/-- The parts of a full name, as `split('.')` gives them. -/
def fullNameParts (name : String) : String × String :=
  match name.toList.splitOn '.' with
  | [] => ("", "")
  | [database] => (String.ofList database, "")
  | database :: table :: _ => (String.ofList database, String.ofList table)

/-- `map_paimon_error`. -/
def mapPaimonError : PaimonError → CatalogError
  | .databaseNotExist database => .databaseNotFound "<paimon>" database
  | .tableNotExist name => .tableNotFound "<paimon>" (fullNameParts name).1 (fullNameParts name).2
  | .databaseAlreadyExist database => .catalogBackend "paimon" ("database already exists: " ++ database)
  | .databaseNotEmpty database => .catalogBackend "paimon" ("database not empty: " ++ database)
  | .tableAlreadyExist name => .catalogBackend "paimon" ("table already exists: " ++ name)
  | .other message => .catalogBackend "paimon" message

/-- `map_paimon_write_error`. -/
def mapPaimonWriteError : PaimonError → CatalogError
  | .databaseAlreadyExist database => .duplicateDatabase "<paimon>" database
  | .tableAlreadyExist name => .duplicateTable "<paimon>" (fullNameParts name).1 (fullNameParts name).2
  | error => mapPaimonError error

/-! ## Operations -/

/-- The store and the warehouse. -/
structure World where
  store : MemoryCatalogStore
  paimon : PaimonState

/-- What fails in one operation for reasons of its own. -/
structure Faults where
  /-- The conversion of the request. -/
  request : Option CatalogError
  /-- The Paimon call that writes. -/
  write : Option String
  /-- The Paimon call that loads the table again. -/
  reload : Option String
  /-- The conversion of the loaded schema. -/
  convert : Option CatalogError

/-- Nothing fails of its own. -/
def Faults.none : Faults := ⟨.none, .none, .none, .none⟩

/-- A result, unless it fails for another reason. -/
def orFault {ε α : Type} (fault : Option ε) (result : Except ε α) : Except ε α :=
  match fault with
  | some error => .error error
  | none => result

/-- A Paimon call. -/
def paimonCall {α : Type} (fault : Option String) (mapError : PaimonError → CatalogError)
    (result : Except PaimonError α) : Except CatalogError α :=
  match orFault (fault.map PaimonError.other) result with
  | .ok a => .ok a
  | .error error => .error (mapError error)

/-- The shape of every operation: checks against the store, a write to Paimon, what is left to find out
after it, and the updates of the store. -/
def World.operate {α β : Type} (w : World) (checks : Except CatalogError α)
    (write : α → Except CatalogError PaimonState) (finish : α → PaimonState → Except CatalogError β)
    (commit : α → β → MemoryCatalogStore) : Except CatalogError β × World :=
  match checks with
  | .error error => (.error error, w)
  | .ok a =>
      match write a with
      | .error error => (.error error, w)
      | .ok paimon =>
          match finish a paimon with
          | .error error => (.error error, ⟨w.store, paimon⟩)
          | .ok b => (.ok b, ⟨commit a b, paimon⟩)

/-- `ManagedPaimonCatalog` is the entry of its catalog. -/
structure ManagedPaimonCatalog where
  entry : CatalogEntry

namespace ManagedPaimonCatalog

variable (rules : PaimonRules) (self : ManagedPaimonCatalog) (faults : Faults) (w : World)

/-- The name of the catalog. -/
def name : String := self.entry.path.catalog.value

/-- `require_database_path`. -/
def requireDatabasePath (databaseName : String) : Except CatalogError DatabasePath :=
  DatabasePath.new self.name databaseName

/-- `require_table_path`. -/
def requireTablePath (databaseName tableName : String) : Except CatalogError TablePath :=
  TablePath.new self.name databaseName tableName

/-- `require_database`. -/
def requireDatabase (databaseName : String) : Except CatalogError DatabaseCatalogEntry := do
  let path ← self.requireDatabasePath databaseName
  match w.store.getDatabase path with
  | some entry => return entry
  | none => .error (.databaseNotFound self.name databaseName)

/-- `require_table`. -/
def requireTable (databaseName tableName : String) : Except CatalogError TableCatalogEntry := do
  let path ← self.requireTablePath databaseName tableName
  match w.store.getTable path with
  | some entry => return entry
  | none => .error (.tableNotFound self.name databaseName tableName)

/-- `build_table_entry`. -/
def buildTableEntry (database : DatabaseCatalogEntry) (tableId : Uuid) (path : TablePath)
    (table : PaimonTable) : Except CatalogError TableCatalogEntry := do
  let schema ← orFault faults.convert (tableSchemaToBrewdb rules.format table.schema)
  return {
    tableId := tableId
    catalogId := self.entry.catalogId
    databaseId := database.databaseId
    path := path
    tableSchema := schema
    tableLocation := table.location
    storageKind := self.entry.storageKind
    catalogMode := self.entry.mode
    tableOptions := table.schema.schema.options }

/-- `ManagedPaimonRuntime::load_table`. -/
def loadTable (paimon : PaimonState) (database table : String) : Except CatalogError PaimonTable :=
  paimonCall faults.reload mapPaimonError
    (match paimon.table database table with
    | some live => .ok live
    | none => .error (.tableNotExist (PaimonState.fullName database table)))

/-- Loads a table and builds its entry. -/
def reload (paimon : PaimonState) (database : DatabaseCatalogEntry) (tableId : Uuid) (path : TablePath) :
    Except CatalogError TableCatalogEntry := do
  let live ← loadTable faults paimon path.database.value path.table.value
  self.buildTableEntry rules faults database tableId path live

/-- `create_database`. An existing database of Paimon is taken over. -/
def createDatabase (uuid : Uuid) (databaseName : String) (options : Options) :
    Except CatalogError DatabaseCatalogEntry × World :=
  w.operate
    (do
      let path ← self.requireDatabasePath databaseName
      if (w.store.getDatabase path).isSome then .error (.duplicateDatabase self.name databaseName)
      else return path)
    (fun path =>
      match paimonCall faults.write mapPaimonWriteError (w.paimon.createDatabase path.database.value) with
      | .ok paimon => .ok paimon
      | .error error =>
          if error = .duplicateDatabase "<paimon>" path.database.value then .ok w.paimon else .error error)
    (fun path _ => .ok ⟨uuid, self.entry.catalogId, path, options⟩)
    (fun _ entry => w.store.createDatabase entry)

/-- `create_table`. An existing table of Paimon is taken over. -/
def createTable (uuid : Uuid) (request : CreateTableRequest) :
    Except CatalogError TableCatalogEntry × World :=
  w.operate
    (do
      if self.entry.storageKind ≠ .paimon then
        .error (.catalogFormatMismatch self.name "paimon" self.entry.storageKind.asStr)
      else
        let database ← self.requireDatabase w request.databaseName
        let path ← self.requireTablePath request.databaseName request.tableName
        if (w.store.getTable path).isSome then
          .error (.duplicateTable self.name request.databaseName request.tableName)
        else return (database, path))
    (fun (_, path) => do
      let schema ← orFault faults.request (buildSchema rules.format request)
      match paimonCall faults.write mapPaimonWriteError
        (w.paimon.createTable rules request.databaseName request.tableName schema) with
      | .ok paimon => .ok paimon
      | .error error =>
          if error = .duplicateTable "<paimon>" path.database.value path.table.value then .ok w.paimon
          else .error error)
    (fun (database, path) paimon => self.reload rules faults paimon database uuid path)
    (fun _ entry => w.store.createTable entry)

/-- `drop_database`. -/
def dropDatabase (databaseName : String) : Except CatalogError Unit × World :=
  w.operate
    (do
      let path ← self.requireDatabasePath databaseName
      if (w.store.getDatabase path).isSome then return path
      else .error (.databaseNotFound self.name databaseName))
    (fun _ => paimonCall faults.write mapPaimonWriteError (w.paimon.dropDatabase databaseName))
    (fun _ _ => .ok ())
    (fun path _ => w.store.deleteDatabase path)

/-- `drop_table`. -/
def dropTable (databaseName tableName : String) : Except CatalogError Unit × World :=
  w.operate
    (do
      let path ← self.requireTablePath databaseName tableName
      if (w.store.getTable path).isSome then return path
      else .error (.tableNotFound self.name databaseName tableName))
    (fun _ => paimonCall faults.write mapPaimonWriteError (w.paimon.dropTable databaseName tableName))
    (fun _ _ => .ok ())
    (fun path _ => w.store.deleteTable path)

/-- `rename_table`. -/
def renameTable (request : RenameTableRequest) : Except CatalogError TableCatalogEntry × World :=
  w.operate
    (do
      let current ← self.requireTable w request.databaseName request.tableName
      let targetDatabase ← self.requireDatabase w request.newDatabaseName
      let targetPath ← self.requireTablePath request.newDatabaseName request.newTableName
      if (w.store.getTable targetPath).isSome then
        .error (.duplicateTable self.name request.newDatabaseName request.newTableName)
      else return (current, targetDatabase, targetPath))
    (fun _ => paimonCall faults.write mapPaimonWriteError (w.paimon.renameTable rules request.databaseName
      request.tableName request.newDatabaseName request.newTableName))
    (fun (current, targetDatabase, targetPath) paimon =>
      self.reload rules faults paimon targetDatabase current.tableId targetPath)
    (fun (current, _, _) updated => (w.store.deleteTable current.path).createTable updated)

/-- `alter_table`. -/
def alterTable (request : AlterTableRequest) : Except CatalogError TableCatalogEntry × World :=
  w.operate
    (do
      let current ← self.requireTable w request.databaseName request.tableName
      let database ← self.requireDatabase w request.databaseName
      return (current, database))
    (fun _ => do
      let changes ← orFault faults.request (request.operations.mapM (alterOperationToChange rules.format))
      paimonCall faults.write mapPaimonWriteError
        (w.paimon.alterTable rules request.databaseName request.tableName changes))
    (fun (current, database) paimon => do
      let live ← loadTable faults paimon request.databaseName request.tableName
      self.buildTableEntry rules faults database current.tableId current.path live)
    (fun _ updated => w.store.createTable updated)

end ManagedPaimonCatalog

/-- An operation of a catalog, with the id for what it creates. -/
inductive CatalogOperation where
  | createDatabase (uuid : Uuid) (databaseName : String) (options : Options)
  | createTable (uuid : Uuid) (request : CreateTableRequest)
  | dropDatabase (databaseName : String)
  | dropTable (databaseName tableName : String)
  | renameTable (request : RenameTableRequest)
  | alterTable (request : AlterTableRequest)

/-- What an operation returns. -/
inductive CatalogReply where
  | database (entry : DatabaseCatalogEntry)
  | table (entry : TableCatalogEntry)
  | done

/-- An operation of one catalog. -/
def ManagedPaimonCatalog.perform (rules : PaimonRules) (self : ManagedPaimonCatalog) (faults : Faults)
    (w : World) : CatalogOperation → Except CatalogError CatalogReply × World
  | .createDatabase uuid databaseName options =>
      (self.createDatabase faults w uuid databaseName options).map (·.map .database) id
  | .createTable uuid request => (self.createTable rules faults w uuid request).map (·.map .table) id
  | .dropDatabase databaseName => (self.dropDatabase faults w databaseName).map (·.map fun _ => .done) id
  | .dropTable databaseName tableName =>
      (self.dropTable faults w databaseName tableName).map (·.map fun _ => .done) id
  | .renameTable request => (self.renameTable rules faults w request).map (·.map .table) id
  | .alterTable request => (self.alterTable rules faults w request).map (·.map .table) id

/-- Rules over the plain format: every change of a schema raises its id. -/
def PaimonRules.plain : PaimonRules where
  format := .plain
  location database table _ := "/warehouse/" ++ database ++ ".db/" ++ table
  renamed database table live := { live with location := "/warehouse/" ++ database ++ ".db/" ++ table }
  altered schema changes := do
    return ⟨schema.id + 1, ← changes.foldlM PaimonSchema.applyChange schema.schema⟩

end BrewDB.Catalog

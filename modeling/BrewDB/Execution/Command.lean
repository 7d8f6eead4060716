import BrewDB.Planner.Command

/-!
# Executing commands

Reference: `QueryCoordinator::execute_command_plan` and the functions it calls in
`brewdb-execution/src/runtime/coordinator.rs`.

A command works on the catalog service directly. The flags `IF EXISTS` and `IF NOT EXISTS` are not looked at.
-/

namespace BrewDB.Catalog

/-- `ExecutionRuntimeError`, as far as commands go. -/
inductive ExecutionError where
  | invalidPlan (reason : String)
  | catalogError (reason : String)
deriving DecidableEq, Repr

/-- The display form. -/
def ExecutionError.toString : ExecutionError → String
  | .invalidPlan reason => "invalid execution plan: " ++ reason
  | .catalogError reason => "catalog error: " ++ reason

/-- `QueryExecutionHandle`, with all of its output. -/
structure QueryExecutionHandle where
  commandTag : String
  returnsRows : Bool
  output : List RecordBatch
deriving DecidableEq, Repr

/-- `QueryExecutionHandle::command`. -/
def QueryExecutionHandle.command (commandTag : String) : QueryExecutionHandle := ⟨commandTag, false, []⟩

/-- `build_show_handle`: one batch of one column. -/
def buildShowHandle (commandTag columnName : String) (values : List String) : QueryExecutionHandle :=
  ⟨commandTag, true, [⟨[⟨columnName, .utf8, false⟩], values.map fun value => [.string value]⟩]⟩

/-- `map_catalog_error`. -/
def mapCatalogError (error : CatalogError) : ExecutionError := .catalogError error.toString

namespace CatalogService

variable (service : CatalogService)

/-- `list_catalogs`. -/
def listCatalogs : List CatalogEntry := service.world.store.catalogs.byKey.values

/-- `list_databases`. -/
def listDatabases (catalogName : String) : Except CatalogError (List DatabaseCatalogEntry) :=
  (CatalogPath.new catalogName).map service.world.store.listDatabases

/-- `list_tables`. -/
def listTables (catalogName databaseName : String) : Except CatalogError (List TableCatalogEntry) :=
  (DatabasePath.new catalogName databaseName).map service.world.store.listTables

end CatalogService

/-- The names that a `SHOW` lists, with its tag and column. -/
def executeShow (service : CatalogService) : Show → Except ExecutionError QueryExecutionHandle
  | .catalogs => .ok (buildShowHandle "SHOW CATALOGS" "catalog_name"
      (service.listCatalogs.map fun entry => entry.path.catalog.value))
  | .databases catalogName =>
      ((service.listDatabases catalogName).mapError mapCatalogError).map fun databases =>
        buildShowHandle "SHOW DATABASES" "database_name" (databases.map fun entry => entry.path.database.value)
  | .tables catalogName databaseName =>
      ((service.listTables catalogName databaseName).mapError mapCatalogError).map fun tables =>
        buildShowHandle "SHOW TABLES" "table_name" (tables.map fun entry => entry.path.table.value)

section

variable (rules : PaimonRules) (faults : Faults) (uuid : Uuid) (service : CatalogService)

/-- One operation in a catalog, and the handle of a command. -/
def performCommand (commandTag catalogName : String) (operation : CatalogOperation) :
    Except ExecutionError QueryExecutionHandle × CatalogService :=
  let performed := service.perform rules catalogName operation faults
  ((performed.1.mapError mapCatalogError).map fun _ => .command commandTag, performed.2)

/-- `create_table`. -/
def executeCreateTable (statement : CreateExternalTable) :
    Except ExecutionError QueryExecutionHandle × CatalogService :=
  match service.openCatalog statement.name.catalog with
  | .error error => (.error (mapCatalogError error), service)
  | .ok (_, opened) =>
      match createTableRequest statement with
      | .error reason => (.error (.invalidPlan reason), opened)
      | .ok request =>
          performCommand rules faults opened "CREATE TABLE" statement.name.catalog (.createTable uuid request)

/-- `drop_table`. -/
def executeDropTable (statement : DropTable) : Except ExecutionError QueryExecutionHandle × CatalogService :=
  performCommand rules faults service "DROP TABLE" statement.name.catalog
    (.dropTable statement.name.database statement.name.table)

/-- `execute_ddl`. -/
def executeDdl : DdlStatement → Except ExecutionError QueryExecutionHandle × CatalogService
  | .createExternalTable statement => executeCreateTable rules faults uuid service statement
  | .dropTable statement => executeDropTable rules faults service statement
  | .other => (.error (.invalidPlan "unsupported DataFusion DDL command"), service)

/-- `execute_brewdb_extension`. -/
def executeBrewdbExtension : LogicalPlanNode → Except ExecutionError QueryExecutionHandle × CatalogService
  | .ddl (.createDatabase catalogName databaseName) =>
      performCommand rules faults service "CREATE DATABASE" catalogName
        (.createDatabase uuid databaseName .empty)
  | .ddl (.dropDatabase catalogName databaseName) =>
      performCommand rules faults service "DROP DATABASE" catalogName (.dropDatabase databaseName)
  | .show node => (executeShow service node, service)

/-- `execute_command_plan`. Error texts leave out the printed plan. -/
def executeCommandPlan : CommandPlan → Except ExecutionError QueryExecutionHandle × CatalogService
  | .ddl statement => executeDdl rules faults uuid service statement
  | .extension node => executeBrewdbExtension rules faults uuid service node
  | .statement _ => (.error (.invalidPlan "unsupported statement command"), service)

end

/-- The driver behind planning: a command is executed, anything else runs as fragments, whose root sends its
batches to the output if rows are returned. -/
def executePlanned (rules : PaimonRules) (faults : Faults) (uuid : Uuid)
    (fragments : Except ExecutionError (List RecordBatch)) (service : CatalogService) (root : RootPlan) :
    Except ExecutionError QueryExecutionHandle × CatalogService :=
  match root.commandPlan with
  | some command => executeCommandPlan rules faults uuid service command
  | none => (fragments.map fun batches =>
      ⟨root.commandTag, root.returnsRows, if root.returnsRows then batches else []⟩, service)

end BrewDB.Catalog

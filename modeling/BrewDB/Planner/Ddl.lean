import BrewDB.Planner.Command

/-!
# Statements about databases and tables

Reference: `bind_create_database_statement`, `bind_drop_statement`, `bind_show_databases_statement` and
`bind_show_tables_statement` of `brewdb-planner/src/logical/ddl.rs`, `bind_use_statement` of `session.rs`, and
`qualify_database_name`, `resolve_table` and `LogicalPlanner::plan` of `planner.rs`.

Each statement turns a name of the AST into a catalog and a database by its own route. Opening a catalog while
planning registers it at most; what is opened later is the same catalog, and the registration is left out.
-/

namespace BrewDB.Catalog

/-! ## Names -/

/-- `qualify_database_name`. -/
def qualifyDatabaseName (session : PlanningSession) (name : ObjectName) :
    Except PlannerError (String × String) := do
  match ← nameParts name with
  | [database] => return (session.catalogName, database)
  | [catalog, database] => return (catalog, database)
  | _ => .error (.invalidPlan ("invalid database name `" ++ name.toString ++ "`"))

/-- An error of the catalog, as the planner reports it. -/
def invalidPlanOf {α : Type} (result : Except CatalogError α) : Except PlannerError α :=
  result.mapError fun error => .invalidPlan error.toString

/-- `resolve_table`, with `resolve_table_parts`. -/
def CatalogService.resolveTable (service : CatalogService) (session : PlanningSession) (name : ObjectName) :
    Except PlannerError TableCatalogEntry := do
  let parts ← qualifyTableName session name
  let path ← invalidPlanOf (CatalogPath.new parts.catalog)
  let (catalog, _) ← invalidPlanOf (service.openCatalog path.catalog.value)
  invalidPlanOf (catalog.requireTable service.world parts.database parts.table)

/-- `TableReference::full`, of an entry. -/
def TableCatalogEntry.reference (entry : TableCatalogEntry) : BrewDB.TablePath :=
  ⟨entry.path.catalog.value, entry.path.database.value, entry.path.table.value⟩

/-! ## Statements -/

/-- `bind_create_database_statement`: the name as it is printed, in the catalog of the session. -/
def bindCreateDatabaseStatement (session : PlanningSession) (name : ObjectName) : RootPlan :=
  .extension (some (.ddl (.createDatabase session.catalogName name.toString)))

/-- `ObjectType`, with the display form of all others. -/
inductive ObjectType where
  | table
  | database
  | other (display : String)
deriving DecidableEq, Repr

/-- `str::contains`. -/
def containsText (text part : String) : Bool := decide (part.toList <:+: text.toList)

/-- The errors that `IF EXISTS` lets pass, by their text. -/
def isTableNotFound : PlannerError → Bool
  | .invalidPlan reason => containsText reason "table not found"
  | _ => false

/-- `DROP TABLE`. -/
def bindDropTable (service : CatalogService) (session : PlanningSession) (ifExists : Bool) (name : ObjectName) :
    Except PlannerError RootPlan :=
  match service.resolveTable session name with
  | .ok table => .ok (.ddl (.dropTable ⟨table.reference, ifExists⟩))
  | .error error => if ifExists = true ∧ isTableNotFound error = true then .ok (.other []) else .error error

/-- `DROP DATABASE`. -/
def bindDropDatabase (session : PlanningSession) (name : ObjectName) : Except PlannerError RootPlan := do
  let (catalogName, databaseName) ← qualifyDatabaseName session name
  return .extension (some (.ddl (.dropDatabase catalogName databaseName)))

/-- `bind_drop_statement`: it looks at the first name only. -/
def bindDropStatement (service : CatalogService) (session : PlanningSession) (objectType : ObjectType)
    (ifExists : Bool) : List ObjectName → Except PlannerError RootPlan
  | [] => .error (.invalidPlan "DROP statement must carry at least one object name")
  | name :: _ =>
      match objectType with
      | .table => bindDropTable service session ifExists name
      | .database => bindDropDatabase session name
      | .other display => .error (.unsupportedPlan ("DROP " ++ display))

/-- `bind_show_databases_statement`: the catalog as it is printed. -/
def bindShowDatabasesStatement (session : PlanningSession) (parent : Option ObjectName) : RootPlan :=
  .extension (some (.show (.databases ((parent.map ObjectName.toString).getD session.catalogName))))

/-- The target of `SHOW TABLES`. -/
def showTablesTarget (session : PlanningSession) (name : ObjectName) : Except PlannerError (String × String) := do
  match ← nameParts name with
  | [database] => return (session.catalogName, database)
  | [catalog, database] => return (catalog, database)
  | _ => .error (.invalidPlan ("invalid SHOW TABLES target `" ++ name.toString ++ "`"))

/-- `bind_show_tables_statement`. -/
def bindShowTablesStatement (session : PlanningSession) : Option ObjectName → Except PlannerError RootPlan
  | none => .ok (.extension (some (.show (.tables session.catalogName session.databaseName))))
  | some name => do
      let (catalogName, databaseName) ← showTablesTarget session name
      return .extension (some (.show (.tables catalogName databaseName)))

/-- `bind_use_statement` with a name: the catalog is that of the session. -/
def bindUseStatement (session : PlanningSession) (name : ObjectName) : Except PlannerError RootPlan := do
  let (_, databaseName) ← qualifyDatabaseName session name
  return .statement ⟨"database", session.catalogName ++ "." ++ databaseName⟩

/-- `Statement`, as far as databases and tables are created, dropped and listed. -/
inductive DdlRequest where
  | createDatabase (ifNotExists : Bool) (name : ObjectName)
  | createTable (ifNotExists : Bool) (create : CreateTable)
  | drop (objectType : ObjectType) (ifExists : Bool) (names : List ObjectName)
  | showDatabases (parent : Option ObjectName)
  | showTables (parent : Option ObjectName)
  | use (name : ObjectName)

/-- `LogicalPlanner::plan`, of these statements. -/
def planDdl (service : CatalogService) (session : PlanningSession) : DdlRequest → Except PlannerError RootPlan
  | .createDatabase _ name => .ok (bindCreateDatabaseStatement session name)
  | .createTable _ create =>
      (bindCreateTableStatement service session create).map fun statement => .ddl (.createExternalTable statement)
  | .drop objectType ifExists names => bindDropStatement service session objectType ifExists names
  | .showDatabases parent => .ok (bindShowDatabasesStatement session parent)
  | .showTables parent => bindShowTablesStatement session parent
  | .use name => bindUseStatement session name

end BrewDB.Catalog

import BrewDB.Catalog.Operations

/-!
# The store in step with Paimon

After a call the store and Paimon agree on every name that a call of the catalog has changed. They agree
as long as no call fails between its write to Paimon and its update of the store.
-/

namespace BrewDB.Catalog

/-! ## Agreement on a name -/

/-- The store's entry of a table agrees with Paimon's table. -/
def TableAgrees (rules : PaimonRules) (path : TablePath) :
    Option TableCatalogEntry → Option PaimonTable → Prop
  | none, none => True
  | some entry, some live =>
      entry.path = path ∧ tableSchemaToBrewdb rules.format live.schema = .ok entry.tableSchema ∧
        entry.tableLocation = live.location ∧ entry.tableOptions = live.schema.schema.options
  | _, _ => False

/-- The names that calls of a catalog have changed, in the store or in Paimon. -/
structure ManagedNames where
  databases : Segment → Prop
  tables : Segment → Segment → Prop

/-- A world, and the names managed through a catalog. -/
structure ManagedWorld where
  world : World
  managed : ManagedNames

namespace ManagedPaimonCatalog

variable (rules : PaimonRules) (self : ManagedPaimonCatalog)

def databasePath (database : Segment) : DatabasePath := ⟨self.entry.path.catalog, database⟩

def tablePath (database table : Segment) : TablePath := ⟨self.entry.path.catalog, database, table⟩

/-- The store has a database exactly if Paimon has it. -/
def DatabaseInStep (w : World) (database : Segment) : Prop :=
  (w.store.getDatabase (self.databasePath database)).isSome = w.paimon.hasDatabase database.value

/-- The store has a table exactly if Paimon has it, with its schema, location and options. -/
def TableInStep (w : World) (database table : Segment) : Prop :=
  TableAgrees rules (self.tablePath database table) (w.store.getTable (self.tablePath database table))
    (w.paimon.table database.value table.value)

/-- Nothing about a database is different. -/
def SameDatabase (w w' : World) (database : Segment) : Prop :=
  w'.store.getDatabase (self.databasePath database) = w.store.getDatabase (self.databasePath database) ∧
    w'.paimon.hasDatabase database.value = w.paimon.hasDatabase database.value

def SameTable (w w' : World) (database table : Segment) : Prop :=
  w'.store.getTable (self.tablePath database table) = w.store.getTable (self.tablePath database table) ∧
    w'.paimon.table database.value table.value = w.paimon.table database.value table.value

/-- Store and Paimon are in step on the managed names, and the store knows no others. -/
structure InStep (rules : PaimonRules) (catalog : ManagedPaimonCatalog) (s : ManagedWorld) : Prop where
  database : ∀ database, s.managed.databases database → catalog.DatabaseInStep s.world database
  table : ∀ database table, s.managed.tables database table → catalog.TableInStep rules s.world database table
  no_database : ∀ database, ¬ s.managed.databases database →
    s.world.store.getDatabase (catalog.databasePath database) = none
  no_table : ∀ database table, ¬ s.managed.tables database table →
    s.world.store.getTable (catalog.tablePath database table) = none

/-- A call, with what fails in it. -/
def call (s : ManagedWorld) (operation : CatalogOperation × Faults) : Except CatalogError CatalogReply × World :=
  self.perform rules operation.2 s.world operation.1

/-- A call as a step: what it changes is managed from then on. -/
def callStep (s : ManagedWorld) (operation : CatalogOperation × Faults) : Option ManagedWorld :=
  let w' := (self.call rules s operation).2
  some ⟨w', fun database => s.managed.databases database ∨ ¬ self.SameDatabase s.world w' database,
    fun database table => s.managed.tables database table ∨ ¬ self.SameTable s.world w' database table⟩

/-- A call leaves store and Paimon in step, and as they were if it fails. -/
def KeepsInStep (s : ManagedWorld) (operation : CatalogOperation × Faults) (s' : ManagedWorld) : Prop :=
  self.InStep rules s' ∧ ∀ error, (self.call rules s operation).1 = .error error → s'.world = s.world

/-! ## When calls do not fail too late -/

/-- The checks of an operation pass, and its write to Paimon does not fail of its own. -/
def Admits (w : World) (faults : Faults) : CatalogOperation → Prop
  | .createTable _ request =>
      faults.request = none ∧ faults.write = none ∧ self.entry.storageKind = .paimon ∧
        (∃ database, self.requireDatabase w request.databaseName = .ok database) ∧
        ∃ path, self.requireTablePath request.databaseName request.tableName = .ok path ∧
          w.store.getTable path = none
  | .renameTable request =>
      faults.write = none ∧
        (∃ current, self.requireTable w request.databaseName request.tableName = .ok current) ∧
        (∃ target, self.requireDatabase w request.newDatabaseName = .ok target) ∧
        ∃ path, self.requireTablePath request.newDatabaseName request.newTableName = .ok path ∧
          w.store.getTable path = none
  | .alterTable request =>
      faults.request = none ∧ faults.write = none ∧
        (∃ current, self.requireTable w request.databaseName request.tableName = .ok current) ∧
        ∃ database, self.requireDatabase w request.databaseName = .ok database
  | _ => True

/-- The table that the write of an operation leaves in Paimon. -/
def writtenTable (w : World) : CatalogOperation → Option PaimonTable
  | .createTable _ request =>
      match buildSchema rules.format request with
      | .ok schema =>
          match w.paimon.createTable rules request.databaseName request.tableName schema with
          | .ok paimon => paimon.table request.databaseName request.tableName
          | .error _ => none
      | .error _ => none
  | .renameTable request =>
      match w.paimon.renameTable rules request.databaseName request.tableName request.newDatabaseName
        request.newTableName with
      | .ok paimon => paimon.table request.newDatabaseName request.newTableName
      | .error _ => none
  | .alterTable request =>
      match request.operations.mapM (alterOperationToChange rules.format) with
      | .ok changes =>
          match w.paimon.alterTable rules request.databaseName request.tableName changes with
          | .ok paimon => paimon.table request.databaseName request.tableName
          | .error _ => none
      | .error _ => none
  | _ => none

/-- If an operation writes a table, the table can be loaded again and its schema be converted. -/
def NoLateFailure (w : World) (operation : CatalogOperation) (faults : Faults) : Prop :=
  self.Admits w faults operation → ∀ table, writtenTable rules w operation = some table →
    faults.reload = none ∧ faults.convert = none ∧
      ∃ schema, tableSchemaToBrewdb rules.format table.schema = .ok schema

/-! ## One call -/

variable {rules self} {w w' : World} {faults : Faults}

/-- A call settles a name if it changes nothing about it or brings store and Paimon in step. -/
structure Settles (rules : PaimonRules) (catalog : ManagedPaimonCatalog) (w w' : World) : Prop where
  database : ∀ database, catalog.SameDatabase w w' database ∨ catalog.DatabaseInStep w' database
  table : ∀ database table, catalog.SameTable w w' database table ∨ catalog.TableInStep rules w' database table

theorem Settles.refl (w : World) : Settles rules self w w where
  database _ := .inl ⟨rfl, rfl⟩
  table _ _ := .inl ⟨rfl, rfl⟩

/-- The tables of the catalog are kept under their own paths. -/
def OwnPaths (self : ManagedPaimonCatalog) (w : World) : Prop :=
  ∀ database table entry, w.store.getTable (self.tablePath database table) = some entry →
    entry.path = self.tablePath database table

@[simp]
theorem databasePath_inj {database database' : Segment} :
    self.databasePath database = self.databasePath database' ↔ database = database' := by
  simp [databasePath]

@[simp]
theorem tablePath_inj {database table database' table' : Segment} :
    self.tablePath database table = self.tablePath database' table' ↔ database = database' ∧ table = table' := by
  simp [tablePath]

/-! ### Tables -/

/-! ## Runs -/

end ManagedPaimonCatalog

/-! ## Runs at a catalog -/

/-- A managed catalog `prod`. -/
def prodCatalog : ManagedPaimonCatalog :=
  ⟨⟨0, ⟨⟨"prod", by decide, by decide⟩⟩, .managed, .paimon⟩⟩

/-- A request for a table with one column. -/
def eventsRequest : CreateTableRequest :=
  ⟨"sales", "events", ⟨[⟨"id", .int32, true⟩], [], [], [], none, none, []⟩, none, .empty⟩

/-- Nothing yet, in the store and in Paimon. -/
def freshWorld : ManagedWorld := ⟨⟨.empty, ⟨.empty⟩⟩, fun _ => False, fun _ _ => False⟩

end BrewDB.Catalog

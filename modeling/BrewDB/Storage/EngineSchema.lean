import BrewDB.Catalog.Operations

/-!
# The schema the engine reads with

Reference: `brewdb-storage/src/paimon/engine.rs`.

The engine does not load the schema of a table from Paimon. It builds it again from the catalog entry, as if
the table were created once more. The result is the live schema only if the table was never altered and if
its options are what creating it again would write.
-/

namespace BrewDB.Catalog

/-- `build_paimon_schema`. -/
def buildPaimonSchema (format : PaimonFormat) (table : TableCatalogEntry) :
    Except CatalogError PaimonTableSchema := do
  let schema ← buildSchema format
    ⟨table.path.database.value, table.path.table.value, table.tableSchema, some table.tableLocation,
      table.tableOptions⟩
  return ⟨0, schema⟩

/-- The engine reads with the live schema. -/
def ReadsLive (format : PaimonFormat) (table : TableCatalogEntry) (live : PaimonTableSchema) : Prop :=
  ∃ schema, buildPaimonSchema format table = .ok schema ∧ schema.id = live.id ∧
    schema.schema.fields = live.schema.fields ∧ schema.schema.primaryKeys = live.schema.primaryKeys ∧
    schema.schema.partitionKeys = live.schema.partitionKeys ∧
    format.bucketKeys schema = format.bucketKeys live ∧
    ∀ key, key ≠ "path" → schema.schema.options.get? key = live.schema.options.get? key

/-- What the development takes from Paimon about schemas. -/
structure PaimonLaws (rules : PaimonRules) : Prop where
  /-- The builder numbers the columns, makes those of the key not nullable, and takes keys out of the
  options. -/
  built : ∀ draft schema, rules.format.build draft = .ok schema →
    schema.fields = draft.columns.mapIdx (fun i column =>
      ⟨i, column.1, { column.2 with nullable := column.2.nullable && !schema.primaryKeys.contains column.1 }⟩) ∧
    schema.options.get? "primary-key" = none ∧ schema.options.get? "partition" = none
  /-- The builder takes a schema it has built, with any path. -/
  rebuilt : ∀ draft draft' schema, rules.format.build draft = .ok schema →
    draft'.columns = schema.fields.map (fun field => (field.name, field.dataType)) →
    draft'.primaryKeys = schema.primaryKeys → draft'.partitionKeys = schema.partitionKeys →
    (∀ key, key ≠ "path" → draft'.options.get? key = schema.options.get? key) →
    ∃ schema', rules.format.build draft' = .ok schema'
  /-- Bucket keys are declared as an option, or follow from the keys. -/
  bucketKeys : ∀ schema schema', schema.schema.primaryKeys = schema'.schema.primaryKeys →
    schema.schema.partitionKeys = schema'.schema.partitionKeys →
    schema.schema.options.get? "bucket-key" = schema'.schema.options.get? "bucket-key" →
    rules.format.bucketKeys schema = rules.format.bucketKeys schema'
  /-- A table that is renamed keeps its schema. -/
  renamed : ∀ database table live, (rules.renamed database table live).schema = live.schema
  /-- A schema that is altered has a higher id. -/
  altered : ∀ schema changes schema', rules.altered schema changes = .ok schema' → schema.id < schema'.id

/-! ## Options that are written again -/

/-- Options that creating a table again leaves as they are. -/
structure StableOptions (schema : TableSchema) (options : Options) : Prop where
  /-- The bucket keys are declared, as the engine writes them. -/
  bucketKeys : schema.bucketKeys ≠ [] → options.get? "bucket-key" = some (Text.joinComma schema.bucketKeys)
  /-- There are bucket keys for the bucket function, which is not a default. -/
  bucketFunction : ∀ function, schema.bucketFunction = some function →
    schema.bucketKeys ≠ [] ∧ (function = "mod" ∨ function = "hive")
  /-- The number of buckets is written in its plain form. -/
  bucketCount : ∀ count, schema.bucketCount = some count → options.get? "bucket" = some (toString count)
  /-- Only a table without a primary key is clustered, as the engine declares it. -/
  clusterKeys : schema.clusterKeys ≠ [] → schema.primaryKeys = [] ∧
    options.get? "clustering.incremental" = some "true" ∧
    options.get? "clustering.columns" = some (Text.joinComma schema.clusterKeys) ∧
    options.get? "clustering.strategy" = some "order"

/-- The same options. -/
def SameOptions (options options' : Options) : Prop := ∀ key, options.get? key = options'.get? key

theorem SameOptions.trans {a b c : Options} (h : SameOptions a b) (h' : SameOptions b c) : SameOptions a c :=
  fun key => (h key).trans (h' key)

/-- The options with the bucket keys, and with the bucket count. -/
def withBucketKeys (schema : TableSchema) (options : Options) : Options :=
  if schema.bucketKeys = [] then options else options.insert "bucket-key" (Text.joinComma schema.bucketKeys)

def withBucketCount (schema : TableSchema) (options : Options) : Options :=
  match schema.bucketCount with
  | some count => options.insert "bucket" (toString count)
  | none => options

/-! ## A schema that was never altered -/

/-- A type that BrewDB gives to columns, and that Paimon accepts. -/
def Canonical (format : PaimonFormat) (kind : PaimonType) : Prop :=
  (∃ dataType : DataType, kind = dataType.toPaimon format) ∧ format.accepts kind = true

section Created

variable {rules : PaimonRules} {request : CreateTableRequest} {built : PaimonSchema} {entry : TableCatalogEntry}

end Created

/-! ## Tables that the catalog creates and changes -/

/-- A table that was created through the catalog, and then renamed and altered. The flag says whether it was
altered. -/
inductive Reached (rules : PaimonRules) (catalog : ManagedPaimonCatalog) :
    Bool → TableCatalogEntry → World → Prop where
  | created {w w' : World} {faults : Faults} {uuid : Uuid} {request : CreateTableRequest}
      {entry : TableCatalogEntry} (hnew : w.paimon.table request.databaseName request.tableName = none)
      (h : catalog.createTable rules faults w uuid request = (.ok entry, w')) : Reached rules catalog false entry w'
  | renamed {altered : Bool} {entry entry' : TableCatalogEntry} {w w' : World} {faults : Faults}
      {newDatabase newTable : String} (hbefore : Reached rules catalog altered entry w)
      (h : catalog.renameTable rules faults w
        ⟨entry.path.database.value, entry.path.table.value, newDatabase, newTable⟩ = (.ok entry', w')) :
      Reached rules catalog altered entry' w'
  | altered {altered : Bool} {entry entry' : TableCatalogEntry} {w w' : World} {faults : Faults}
      {operations : List AlterTableOperation} (hbefore : Reached rules catalog altered entry w)
      (h : catalog.alterTable rules faults w
        ⟨entry.path.database.value, entry.path.table.value, operations⟩ = (.ok entry', w')) :
      Reached rules catalog true entry' w'

/-- The live table of an entry of the store. -/
structure LiveTable (rules : PaimonRules) (catalog : ManagedPaimonCatalog) (altered : Bool)
    (entry : TableCatalogEntry) (w : World) (live : PaimonTable) : Prop where
  found : w.paimon.table entry.path.database.value entry.path.table.value = some live
  stored : w.store.getTable entry.path = some entry
  ofCatalog : entry.path.catalog = catalog.entry.path.catalog
  schema : tableSchemaToBrewdb rules.format live.schema = .ok entry.tableSchema
  options : entry.tableOptions = live.schema.schema.options
  /-- A table that was not altered has the schema it was created with. -/
  created : altered = false → ∃ request, buildSchema rules.format request = .ok live.schema.schema ∧
    live.schema.id = 0
  raised : altered = true → 0 < live.schema.id

section Reachable

open ManagedPaimonCatalog

variable {rules : PaimonRules} {self : ManagedPaimonCatalog} {altered : Bool} {entry : TableCatalogEntry}
  {w : World} {live : PaimonTable}

end Reachable

/-! ## A table that is altered -/

/-- A catalog with a database. -/
def storeCatalog : ManagedPaimonCatalog := ⟨⟨0, ⟨⟨"store", by decide, by decide⟩⟩, .managed, .paimon⟩⟩

def storeWorld : World := (storeCatalog.createDatabase .none ⟨.empty, ⟨.empty⟩⟩ 1 "sales" .empty).2

/-- A table of two columns is created. -/
def pairsCreated : Except CatalogError TableCatalogEntry × World :=
  storeCatalog.createTable .plain .none storeWorld 2
    ⟨"sales", "pairs", ⟨[⟨"a", .int32, true⟩, ⟨"b", .string, true⟩], [], [], [], none, none, []⟩, none, .empty⟩

/-- Its first column is dropped. -/
def pairsAltered : Except CatalogError TableCatalogEntry × World :=
  storeCatalog.alterTable .plain .none pairsCreated.2 ⟨"sales", "pairs", [.dropColumn "a"]⟩

theorem exists_of_isOk {α : Type} {x : Except CatalogError α × World} (h : x.1.isOk = true) :
    ∃ a, x = (.ok a, x.2) := by
  obtain ⟨a, ha⟩ := ExceptRun.exists_of_isOk h
  exact ⟨a, Prod.ext ha rfl⟩

end BrewDB.Catalog

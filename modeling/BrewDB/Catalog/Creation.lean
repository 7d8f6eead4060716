import BrewDB.Catalog.Operations

/-!
# What a successful `create_table` says

A table that Paimon did not have is created as requested. A table that Paimon has, left there by another
catalog, an earlier process or a call that failed, is taken over as it is.
-/

namespace BrewDB.Catalog

namespace ManagedPaimonCatalog

variable {rules : PaimonRules} {self : ManagedPaimonCatalog} {faults : Faults} {w w' : World}

/-- The columns and keys of a schema are the requested ones. -/
def AsRequested (request : CreateTableRequest) (schema : TableSchema) : Prop :=
  schema.fields = request.tableSchema.fields ∧ schema.primaryKeys = request.tableSchema.primaryKeys ∧
    schema.partitionKeys = request.tableSchema.partitionKeys

/-- The columns and keys are the requested ones, and the columns of the primary key are not nullable. -/
def CreatedAsRequested (request : CreateTableRequest) (schema : TableSchema) : Prop :=
  schema.fields = request.tableSchema.fields.map (ColumnField.created request.tableSchema.primaryKeys) ∧
    schema.primaryKeys = request.tableSchema.primaryKeys ∧
    schema.partitionKeys = request.tableSchema.partitionKeys

/-- No key is declared among the options. -/
def NoKeyOptions (request : CreateTableRequest) : Prop :=
  request.tableOptions.get? "primary-key" = none ∧ request.tableOptions.get? "partition" = none

/-- Paimon had no such table, and has the requested one without rows. -/
def Creates (rules : PaimonRules) (w w' : World) (request : CreateTableRequest) (entry : TableCatalogEntry) :
    Prop :=
  w.paimon.table request.databaseName request.tableName = none ∧
    (∃ live, w'.paimon.table request.databaseName request.tableName = some live ∧ live.rows = [] ∧
      buildSchema rules.format request = .ok live.schema.schema ∧
      tableSchemaToBrewdb rules.format live.schema = .ok entry.tableSchema) ∧
    (NoKeyOptions request → CreatedAsRequested request entry.tableSchema)

/-- Paimon had such a table and keeps it, and the entry describes it. -/
def TakesOver (rules : PaimonRules) (w w' : World) (request : CreateTableRequest) (entry : TableCatalogEntry) :
    Prop :=
  w'.paimon = w.paimon ∧ ∃ live, w.paimon.table request.databaseName request.tableName = some live ∧
    tableSchemaToBrewdb rules.format live.schema = .ok entry.tableSchema ∧ entry.tableLocation = live.location

/-- If `create_table` succeeds, the requested table was created, or an existing table was taken over. -/
theorem creates_or_takesOver {uuid : Uuid} {request : CreateTableRequest} {entry : TableCatalogEntry}
    (h : self.createTable rules faults w uuid request = (.ok entry, w')) :
    Creates rules w w' request entry ∨ TakesOver rules w w' request entry := by
  rcases createTable_cases h with ⟨_, herror, -⟩ |
    ⟨database, path, paimon, -, -, hpath, -, hwritten, ⟨_, -, herror, -⟩ | ⟨entry', hreload, hentry', rfl⟩⟩
  · cases herror
  · cases herror
  cases hentry'
  obtain ⟨live, hlive, hentry⟩ := reload_eq_ok hreload
  obtain ⟨-, -, -, -, hschema, hlocation, -⟩ := buildTableEntry_eq_ok hentry
  obtain ⟨-, hdatabaseName, htableName⟩ := requireTablePath_eq_ok hpath
  rw [hdatabaseName, htableName] at hlive
  rcases hwritten with ⟨-, -, schema, hbuilt, hcreated⟩ | ⟨-, rfl⟩
  · left
    obtain ⟨hnone, -, htables⟩ := PaimonState.createTable_eq_ok hcreated
    have hnew := htables request.databaseName request.tableName
    rw [if_pos ⟨rfl, rfl⟩, hlive] at hnew
    obtain rfl := Option.some.inj hnew
    refine ⟨hnone, ⟨_, hlive, rfl, hbuilt, hschema⟩, fun hoptions => ?_⟩
    obtain ⟨result, hresult, hfields, hprimary, hpartition⟩ :=
      tableSchemaToBrewdb_of_buildSchema 0 hbuilt hoptions.1 hoptions.2
    rw [hschema] at hresult
    cases hresult
    exact ⟨hfields, hprimary, hpartition⟩
  · right
    exact ⟨rfl, live, hlive, hschema, hlocation⟩

end ManagedPaimonCatalog

/-! ## A table that was left in the warehouse -/

open ManagedPaimonCatalog

/-- A catalog over the warehouse. -/
def mainCatalog : ManagedPaimonCatalog := ⟨⟨0, ⟨⟨"main", by decide, by decide⟩⟩, .managed, .paimon⟩⟩

/-- A request for a table of clicks. -/
def clicksRequest : CreateTableRequest :=
  ⟨"web", "clicks", ⟨[⟨"id", .int64, false⟩], ["id"], [], [], none, none, []⟩, none, .empty⟩

/-- A warehouse with a database, and a table of another shape that has a row. -/
def usedWarehouse : PaimonState :=
  ⟨BTreeMap.empty.insert "web" (BTreeMap.empty.insert "clicks"
    ⟨⟨0, ⟨[⟨0, "url", ⟨.varChar 255, true⟩⟩], [], [], .empty⟩⟩, "/warehouse/web.db/clicks", [[.string "/index"]]⟩)⟩

/-- A world in which a new store has taken over the database of a warehouse. -/
def overWarehouse (paimon : PaimonState) : World :=
  (mainCatalog.createDatabase .none ⟨.empty, paimon⟩ 1 "web" .empty).2

/-- In an empty warehouse the table is created. -/
theorem creates_or_takesOver_new :
    ∃ entry w', mainCatalog.createTable .plain .none (overWarehouse ⟨.empty⟩) 2 clicksRequest = (.ok entry, w') ∧
      (Creates .plain (overWarehouse ⟨.empty⟩) w' clicksRequest entry ∨
        TakesOver .plain (overWarehouse ⟨.empty⟩) w' clicksRequest entry) := by
  have hok : (mainCatalog.createTable .plain .none (overWarehouse ⟨.empty⟩) 2 clicksRequest).1.isOk = true := by
    decide +kernel
  rcases hrun : mainCatalog.createTable .plain .none (overWarehouse ⟨.empty⟩) 2 clicksRequest with ⟨_ | entry, w'⟩
  · rw [hrun] at hok
    cases hok
  · exact ⟨entry, w', rfl, creates_or_takesOver hrun⟩

/-- The call succeeds on a table that is not the requested one, and that has a row. -/
theorem not_asRequested_used :
    ¬ ∀ entry w', mainCatalog.createTable .plain .none (overWarehouse usedWarehouse) 2 clicksRequest =
        (.ok entry, w') → AsRequested clicksRequest entry.tableSchema ∧
      ∀ live, (overWarehouse usedWarehouse).paimon.table "web" "clicks" = some live → live.rows = [] := by
  intro h
  have hother : ((mainCatalog.createTable .plain .none (overWarehouse usedWarehouse) 2 clicksRequest).1.map
      fun entry => decide (entry.tableSchema.fields = clicksRequest.tableSchema.fields)).toOption = some false := by
    decide +kernel
  rcases hrun : mainCatalog.createTable .plain .none (overWarehouse usedWarehouse) 2 clicksRequest with
    ⟨_ | entry, w'⟩
  · rw [hrun] at hother
    cases hother
  · rw [hrun] at hother
    have hfields := (h entry w' hrun).1.1
    exact of_decide_eq_false (Option.some.inj hother) hfields

end BrewDB.Catalog

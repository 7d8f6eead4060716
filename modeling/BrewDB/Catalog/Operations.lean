import BrewDB.Common.Transition
import BrewDB.Catalog.Managed

/-!
# What the operations can do

For each call of Paimon what its success says about the databases and tables, and for each operation of
the catalog what its outcomes are: it changes nothing, or only Paimon, or Paimon and the store.
-/

namespace BrewDB.Catalog

/-! ## Paimon -/

namespace PaimonState

variable {rules : PaimonRules} {state state' : PaimonState} {database table : String}

theorem table_setTables (tables : BTreeMap String PaimonTable) (database' table : String) :
    (state.setTables database tables).table database' table =
      if database' = database then tables.get? table else state.table database' table := by
  simp only [PaimonState.table, setTables, BTreeMap.get?_insert]
  split_ifs
  · rfl
  · rfl

theorem hasDatabase_setTables (tables : BTreeMap String PaimonTable) (database' : String) :
    (state.setTables database tables).hasDatabase database' =
      (decide (database' = database) || state.hasDatabase database') := by
  simp only [hasDatabase, setTables, BTreeMap.get?_insert]
  by_cases h : database' = database
  · simp [h]
  · simp [h]

theorem createDatabase_eq_ok (h : state.createDatabase database = .ok state') :
    state.hasDatabase database = false ∧
      (∀ database', state'.hasDatabase database' = (decide (database' = database) || state.hasDatabase database')) ∧
      ∀ database' table, state'.table database' table = state.table database' table := by
  rw [createDatabase] at h
  split at h
  next => cases h
  next hnone =>
    cases h
    refine ⟨by rw [hasDatabase, hnone]; rfl, hasDatabase_setTables _, fun database' table => ?_⟩
    rw [table_setTables]
    split_ifs with heq
    · rw [heq, PaimonState.table, hnone]
      rfl
    · rfl

theorem createDatabase_eq_error {error : PaimonError} (h : state.createDatabase database = .error error) :
    state.hasDatabase database = true := by
  rw [createDatabase] at h
  split at h
  next tables hsome => rw [hasDatabase, hsome]; rfl
  next => cases h

theorem createTable_eq_ok {schema : PaimonSchema}
    (h : state.createTable rules database table schema = .ok state') :
    state.table database table = none ∧
      (∀ database', state'.hasDatabase database' = state.hasDatabase database') ∧
      ∀ database' table', state'.table database' table' = if database' = database ∧ table' = table then
        some ⟨⟨0, schema⟩, rules.location database table schema, []⟩ else state.table database' table' := by
  rw [createTable] at h
  split at h
  next => cases h
  next tables htables =>
    split at h
    next => cases h
    next hnone =>
      cases h
      refine ⟨by rw [PaimonState.table, htables]; exact hnone, fun database' => ?_, fun database' table' => ?_⟩
      · rw [hasDatabase_setTables]
        by_cases heq : database' = database
        · rw [heq, hasDatabase, htables]
          simp
        · simp [heq]
      · rw [table_setTables, BTreeMap.get?_insert]
        by_cases heq : database' = database
        · simp [heq, PaimonState.table, htables]
        · simp [heq]

/-- An existing table is not created again. -/
theorem table_of_createTable_eq_error {schema : PaimonSchema} {name : String}
    (h : state.createTable rules database table schema = .error (.tableAlreadyExist name)) :
    ∃ live, state.table database table = some live := by
  rw [createTable] at h
  split at h
  next => cases h
  next tables htables =>
    split at h
    next live hlive => exact ⟨live, by rw [PaimonState.table, htables]; exact hlive⟩
    next => cases h

end PaimonState

/-! ## Calls that may fail -/

theorem orFault_eq_ok {ε α : Type} {fault : Option ε} {result : Except ε α} {a : α} :
    orFault fault result = .ok a ↔ fault = none ∧ result = .ok a := by
  cases fault with
  | none => simp [orFault]
  | some error => simp [orFault]

theorem paimonCall_eq_ok {α : Type} {fault : Option String} {mapError : PaimonError → CatalogError}
    {result : Except PaimonError α} {a : α} :
    paimonCall fault mapError result = .ok a ↔ fault = none ∧ result = .ok a := by
  cases fault with
  | some message => simp [paimonCall, orFault]
  | none =>
      cases result with
      | ok b => simp [paimonCall, orFault]
      | error error => simp [paimonCall, orFault]

/-- A duplicate is only reported for what exists. -/
theorem duplicateTable_of_paimonCall {α : Type} {fault : Option String} {result : Except PaimonError α}
    {catalog database table : String}
    (h : paimonCall fault mapPaimonWriteError result = .error (.duplicateTable catalog database table)) :
    ∃ name, result = .error (.tableAlreadyExist name) := by
  cases fault with
  | some message => simp [paimonCall, orFault, mapPaimonWriteError, mapPaimonError] at h
  | none =>
      cases result with
      | ok a => simp [paimonCall, orFault] at h
      | error error =>
          cases error with
          | tableAlreadyExist name => exact ⟨name, rfl⟩
          | _ => simp [paimonCall, orFault, mapPaimonWriteError, mapPaimonError] at h

theorem duplicateDatabase_of_paimonCall {α : Type} {fault : Option String} {result : Except PaimonError α}
    {catalog database : String}
    (h : paimonCall fault mapPaimonWriteError result = .error (.duplicateDatabase catalog database)) :
    ∃ name, result = .error (.databaseAlreadyExist name) := by
  cases fault with
  | some message => simp [paimonCall, orFault, mapPaimonWriteError, mapPaimonError] at h
  | none =>
      cases result with
      | ok a => simp [paimonCall, orFault] at h
      | error error =>
          cases error with
          | databaseAlreadyExist name => exact ⟨name, rfl⟩
          | _ => simp [paimonCall, orFault, mapPaimonWriteError, mapPaimonError] at h

/-! ## The shape of an operation -/

/-- An operation changes nothing, or Paimon alone, or Paimon and the store. -/
theorem World.operate_cases {α β : Type} {w w' : World} {checks : Except CatalogError α}
    {write : α → Except CatalogError PaimonState} {finish : α → PaimonState → Except CatalogError β}
    {commit : α → β → MemoryCatalogStore} {r : Except CatalogError β}
    (h : w.operate checks write finish commit = (r, w')) :
    (∃ error, r = .error error ∧ w' = w) ∨
    (∃ a paimon error, checks = .ok a ∧ write a = .ok paimon ∧ finish a paimon = .error error ∧
      r = .error error ∧ w' = ⟨w.store, paimon⟩) ∨
    ∃ a paimon b, checks = .ok a ∧ write a = .ok paimon ∧ finish a paimon = .ok b ∧ r = .ok b ∧
      w' = ⟨commit a b, paimon⟩ := by
  unfold World.operate at h
  split at h
  next error =>
    cases h
    exact .inl ⟨error, rfl, rfl⟩
  next a =>
    split at h
    next error _ =>
      cases h
      exact .inl ⟨error, rfl, rfl⟩
    next paimon hwrite =>
      split at h
      next error hfinish =>
        cases h
        exact .inr (.inl ⟨a, paimon, error, rfl, hwrite, hfinish, rfl, rfl⟩)
      next b hfinish =>
        cases h
        exact .inr (.inr ⟨a, paimon, b, rfl, hwrite, hfinish, rfl, rfl⟩)

/-- An operation is refused, or it has written to Paimon and is finished or not. -/
theorem World.operate_outcomes {α β : Type} {w w' : World} {checks : Except CatalogError α}
    {write : α → Except CatalogError PaimonState} {finish : α → PaimonState → Except CatalogError β}
    {commit : α → β → MemoryCatalogStore} {r : Except CatalogError β}
    (h : w.operate checks write finish commit = (r, w')) :
    (∃ error, r = .error error ∧ w' = w) ∨
    ∃ a paimon, checks = .ok a ∧ write a = .ok paimon ∧
      ((∃ error, finish a paimon = .error error ∧ r = .error error ∧ w' = ⟨w.store, paimon⟩) ∨
        ∃ b, finish a paimon = .ok b ∧ r = .ok b ∧ w' = ⟨commit a b, paimon⟩) := by
  rcases World.operate_cases h with hrefused | ⟨a, paimon, error, hchecks, hwrite, hfinish, hr, hw⟩ |
    ⟨a, paimon, b, hchecks, hwrite, hfinish, hr, hw⟩
  · exact .inl hrefused
  · exact .inr ⟨a, paimon, hchecks, hwrite, .inl ⟨error, hfinish, hr, hw⟩⟩
  · exact .inr ⟨a, paimon, hchecks, hwrite, .inr ⟨b, hfinish, hr, hw⟩⟩

section

variable {α β : Type} {w : World} {checks : Except CatalogError α} {write : α → Except CatalogError PaimonState}
  {finish : α → PaimonState → Except CatalogError β} {commit : α → β → MemoryCatalogStore} {a : α} {b : β}
  {paimon : PaimonState} {error : CatalogError}

theorem World.operate_of_refused (hchecks : checks = .error error) :
    w.operate checks write finish commit = (.error error, w) := by
  simp only [World.operate, hchecks]

theorem World.operate_of_unwritten (hchecks : checks = .ok a) (hwrite : write a = .error error) :
    w.operate checks write finish commit = (.error error, w) := by
  simp only [World.operate, hchecks, hwrite]

theorem World.operate_of_unfinished (hchecks : checks = .ok a) (hwrite : write a = .ok paimon)
    (hfinish : finish a paimon = .error error) :
    w.operate checks write finish commit = (.error error, ⟨w.store, paimon⟩) := by
  simp only [World.operate, hchecks, hwrite, hfinish]

theorem World.operate_of_finished (hchecks : checks = .ok a) (hwrite : write a = .ok paimon)
    (hfinish : finish a paimon = .ok b) :
    w.operate checks write finish commit = (.ok b, ⟨commit a b, paimon⟩) := by
  simp only [World.operate, hchecks, hwrite, hfinish]

end

/-- Where no update touches the catalogs, the operation does not. -/
theorem World.catalogs_operate {α β : Type} {w w' : World} {checks : Except CatalogError α}
    {write : α → Except CatalogError PaimonState} {finish : α → PaimonState → Except CatalogError β}
    {commit : α → β → MemoryCatalogStore} {r : Except CatalogError β}
    (h : w.operate checks write finish commit = (r, w'))
    (hcommit : ∀ a b, (commit a b).catalogs = w.store.catalogs) : w'.store.catalogs = w.store.catalogs := by
  rcases World.operate_cases h with ⟨_, -, rfl⟩ | ⟨_, _, _, -, -, -, -, rfl⟩ | ⟨a, _, b, -, -, -, -, rfl⟩
  · rfl
  · rfl
  · exact hcommit a b

/-- An operation whose reply is wrapped. -/
theorem eq_of_map_reply {α β : Type} {f : α → β} {x : Except CatalogError α × World}
    {r : Except CatalogError β} {w' : World} (h : x.map (·.map f) id = (r, w')) :
    ∃ r', x = (r', w') ∧ r = r'.map f := by
  obtain ⟨hr, rfl⟩ := Prod.mk.inj h
  exact ⟨x.1, rfl, hr.symm⟩

/-! ## Checks -/

namespace ManagedPaimonCatalog

variable {rules : PaimonRules} {self : ManagedPaimonCatalog} {faults : Faults} {w : World}

theorem requireDatabasePath_eq_ok {databaseName : String} {path : DatabasePath}
    (h : self.requireDatabasePath databaseName = .ok path) :
    path.catalog = self.entry.path.catalog ∧ path.database.value = databaseName := by
  simp only [requireDatabasePath, DatabasePath.new, name, ExceptRun.bind_eq_ok, ExceptRun.pure_eq_ok] at h
  obtain ⟨catalog, hcatalog, database, hdatabase, rfl⟩ := h
  exact ⟨Segment.ext (value_of_normalizeSegment hcatalog), value_of_normalizeSegment hdatabase⟩

theorem requireTablePath_eq_ok {databaseName tableName : String} {path : TablePath}
    (h : self.requireTablePath databaseName tableName = .ok path) :
    path.catalog = self.entry.path.catalog ∧ path.database.value = databaseName ∧
      path.table.value = tableName := by
  simp only [requireTablePath, TablePath.new, name, ExceptRun.bind_eq_ok, ExceptRun.pure_eq_ok] at h
  obtain ⟨catalog, hcatalog, database, hdatabase, table, htable, rfl⟩ := h
  exact ⟨Segment.ext (value_of_normalizeSegment hcatalog), value_of_normalizeSegment hdatabase,
    value_of_normalizeSegment htable⟩

theorem requireDatabase_eq_ok {databaseName : String} {entry : DatabaseCatalogEntry}
    (h : self.requireDatabase w databaseName = .ok entry) :
    ∃ path, self.requireDatabasePath databaseName = .ok path ∧ w.store.getDatabase path = some entry := by
  simp only [requireDatabase, ExceptRun.bind_eq_ok] at h
  obtain ⟨path, hpath, h⟩ := h
  refine ⟨path, hpath, ?_⟩
  split at h
  next found hfound =>
    cases h
    exact hfound
  next => cases h

theorem requireTable_eq_ok {databaseName tableName : String} {entry : TableCatalogEntry}
    (h : self.requireTable w databaseName tableName = .ok entry) :
    ∃ path, self.requireTablePath databaseName tableName = .ok path ∧ w.store.getTable path = some entry := by
  simp only [requireTable, ExceptRun.bind_eq_ok] at h
  obtain ⟨path, hpath, h⟩ := h
  refine ⟨path, hpath, ?_⟩
  split at h
  next found hfound =>
    cases h
    exact hfound
  next => cases h

/-- An entry carries what was loaded. -/
theorem buildTableEntry_eq_ok {database : DatabaseCatalogEntry} {tableId : Uuid} {path : TablePath}
    {live : PaimonTable} {entry : TableCatalogEntry}
    (h : self.buildTableEntry rules faults database tableId path live = .ok entry) :
    entry.tableId = tableId ∧ entry.catalogId = self.entry.catalogId ∧
      entry.databaseId = database.databaseId ∧ entry.path = path ∧
      tableSchemaToBrewdb rules.format live.schema = .ok entry.tableSchema ∧
      entry.tableLocation = live.location ∧ entry.tableOptions = live.schema.schema.options := by
  simp only [buildTableEntry, ExceptRun.bind_eq_ok, ExceptRun.pure_eq_ok, orFault_eq_ok] at h
  obtain ⟨schema, ⟨-, hschema⟩, rfl⟩ := h
  exact ⟨rfl, rfl, rfl, rfl, hschema, rfl, rfl⟩

theorem loadTable_eq_ok {paimon : PaimonState} {database table : String} {live : PaimonTable}
    (h : loadTable faults paimon database table = .ok live) : paimon.table database table = some live := by
  rw [loadTable, paimonCall_eq_ok] at h
  obtain ⟨-, h⟩ := h
  split at h
  next found hfound =>
    cases h
    exact hfound
  next => cases h

theorem reload_eq_ok {paimon : PaimonState} {database : DatabaseCatalogEntry} {tableId : Uuid}
    {path : TablePath} {entry : TableCatalogEntry}
    (h : self.reload rules faults paimon database tableId path = .ok entry) :
    ∃ live, paimon.table path.database.value path.table.value = some live ∧
      self.buildTableEntry rules faults database tableId path live = .ok entry := by
  simp only [reload, ExceptRun.bind_eq_ok] at h
  obtain ⟨live, hlive, h⟩ := h
  exact ⟨live, loadTable_eq_ok hlive, h⟩

/-! ## Outcomes -/

variable {w' : World}

/-- Paimon after a database was created or taken over. -/
def DatabaseWritten (w : World) (path : DatabasePath) (paimon : PaimonState) : Prop :=
  w.paimon.createDatabase path.database.value = .ok paimon ∨
    w.paimon.hasDatabase path.database.value = true ∧ paimon = w.paimon

/-- Paimon after a table was created or taken over. -/
def TableWritten (rules : PaimonRules) (faults : Faults) (w : World) (request : CreateTableRequest)
    (paimon : PaimonState) : Prop :=
  (faults.request = none ∧ faults.write = none ∧ ∃ schema, buildSchema rules.format request = .ok schema ∧
    w.paimon.createTable rules request.databaseName request.tableName schema = .ok paimon) ∨
  (∃ live, w.paimon.table request.databaseName request.tableName = some live) ∧ paimon = w.paimon

theorem createDatabase_cases {uuid : Uuid} {databaseName : String} {options : Options}
    {r : Except CatalogError DatabaseCatalogEntry}
    (h : self.createDatabase faults w uuid databaseName options = (r, w')) :
    (∃ error, r = .error error ∧ w' = w) ∨
    ∃ path paimon, self.requireDatabasePath databaseName = .ok path ∧ w.store.getDatabase path = none ∧
      DatabaseWritten w path paimon ∧ r = .ok ⟨uuid, self.entry.catalogId, path, options⟩ ∧
      w' = ⟨w.store.createDatabase ⟨uuid, self.entry.catalogId, path, options⟩, paimon⟩ := by
  rcases World.operate_cases h with hrefused | ⟨_, _, _, -, -, hfinish, -⟩ |
    ⟨path, paimon, entry, hchecks, hwrite, hfinish, rfl, rfl⟩
  · exact .inl hrefused
  · cases hfinish
  · cases hfinish
    simp only [ExceptRun.bind_eq_ok] at hchecks
    obtain ⟨path', hpath, hchecks⟩ := hchecks
    split_ifs at hchecks with hexists
    cases hchecks
    rw [Option.not_isSome_iff_eq_none] at hexists
    refine .inr ⟨path, paimon, hpath, hexists, ?_, rfl, rfl⟩
    split at hwrite
    next created hcreated =>
      cases hwrite
      exact .inl (paimonCall_eq_ok.mp hcreated).2
    next error herror =>
      split_ifs at hwrite with hduplicate
      cases hwrite
      rw [hduplicate] at herror
      obtain ⟨name, hname⟩ := duplicateDatabase_of_paimonCall herror
      exact .inr ⟨PaimonState.createDatabase_eq_error hname, rfl⟩

theorem createTable_cases {uuid : Uuid} {request : CreateTableRequest}
    {r : Except CatalogError TableCatalogEntry}
    (h : self.createTable rules faults w uuid request = (r, w')) :
    (∃ error, r = .error error ∧ w' = w) ∨
    ∃ database path paimon, self.entry.storageKind = .paimon ∧
      self.requireDatabase w request.databaseName = .ok database ∧
      self.requireTablePath request.databaseName request.tableName = .ok path ∧
      w.store.getTable path = none ∧ TableWritten rules faults w request paimon ∧
      ((∃ error, self.reload rules faults paimon database uuid path = .error error ∧ r = .error error ∧
          w' = ⟨w.store, paimon⟩) ∨
        ∃ entry, self.reload rules faults paimon database uuid path = .ok entry ∧ r = .ok entry ∧
          w' = ⟨w.store.createTable entry, paimon⟩) := by
  rcases World.operate_outcomes h with hrefused | ⟨a, paimon, hchecks, hwrite, hrest⟩
  · exact .inl hrefused
  · split_ifs at hchecks with hkind
    simp only [ExceptRun.bind_eq_ok] at hchecks
    obtain ⟨database, hdatabase, path, hpath, hchecks⟩ := hchecks
    split_ifs at hchecks with hexists
    cases hchecks
    rw [Option.not_isSome_iff_eq_none] at hexists
    refine .inr ⟨database, path, paimon, not_not.mp hkind, hdatabase, hpath, hexists, ?_, hrest⟩
    simp only [ExceptRun.bind_eq_ok] at hwrite
    obtain ⟨schema, hschema, hwrite⟩ := hwrite
    split at hwrite
    next created hcreated =>
      cases hwrite
      exact .inl ⟨(orFault_eq_ok.mp hschema).1, (paimonCall_eq_ok.mp hcreated).1, schema,
        (orFault_eq_ok.mp hschema).2, (paimonCall_eq_ok.mp hcreated).2⟩
    next error herror =>
      split_ifs at hwrite with hduplicate
      cases hwrite
      rw [hduplicate] at herror
      obtain ⟨name, hname⟩ := duplicateTable_of_paimonCall herror
      exact .inr ⟨PaimonState.table_of_createTable_eq_error hname, rfl⟩

theorem dropDatabase_cases {databaseName : String} {r : Except CatalogError Unit}
    (h : self.dropDatabase faults w databaseName = (r, w')) :
    (∃ error, r = .error error ∧ w' = w) ∨
    ∃ path paimon, self.requireDatabasePath databaseName = .ok path ∧ (w.store.getDatabase path).isSome ∧
      faults.write = none ∧ w.paimon.dropDatabase databaseName = .ok paimon ∧ r = .ok () ∧
      w' = ⟨w.store.deleteDatabase path, paimon⟩ := by
  rcases World.operate_cases h with hrefused | ⟨_, _, _, -, -, hfinish, -⟩ |
    ⟨path, paimon, _, hchecks, hwrite, -, rfl, rfl⟩
  · exact .inl hrefused
  · cases hfinish
  · simp only [ExceptRun.bind_eq_ok] at hchecks
    obtain ⟨path', hpath, hchecks⟩ := hchecks
    split_ifs at hchecks with hfound
    cases hchecks
    obtain ⟨hfault, hdropped⟩ := paimonCall_eq_ok.mp hwrite
    exact .inr ⟨path, paimon, hpath, hfound, hfault, hdropped, rfl, rfl⟩

theorem dropTable_cases {databaseName tableName : String} {r : Except CatalogError Unit}
    (h : self.dropTable faults w databaseName tableName = (r, w')) :
    (∃ error, r = .error error ∧ w' = w) ∨
    ∃ path paimon, self.requireTablePath databaseName tableName = .ok path ∧
      w.paimon.dropTable databaseName tableName = .ok paimon ∧ r = .ok () ∧
      w' = ⟨w.store.deleteTable path, paimon⟩ := by
  rcases World.operate_cases h with hrefused | ⟨_, _, _, -, -, hfinish, -⟩ |
    ⟨path, paimon, _, hchecks, hwrite, -, rfl, rfl⟩
  · exact .inl hrefused
  · cases hfinish
  · simp only [ExceptRun.bind_eq_ok] at hchecks
    obtain ⟨path', hpath, hchecks⟩ := hchecks
    split_ifs at hchecks
    cases hchecks
    exact .inr ⟨path, paimon, hpath, (paimonCall_eq_ok.mp hwrite).2, rfl, rfl⟩

theorem renameTable_cases {request : RenameTableRequest} {r : Except CatalogError TableCatalogEntry}
    (h : self.renameTable rules faults w request = (r, w')) :
    (∃ error, r = .error error ∧ w' = w) ∨
    ∃ current target path paimon, self.requireTable w request.databaseName request.tableName = .ok current ∧
      self.requireDatabase w request.newDatabaseName = .ok target ∧
      self.requireTablePath request.newDatabaseName request.newTableName = .ok path ∧
      w.store.getTable path = none ∧ faults.write = none ∧
      w.paimon.renameTable rules request.databaseName request.tableName request.newDatabaseName
        request.newTableName = .ok paimon ∧
      ((∃ error, self.reload rules faults paimon target current.tableId path = .error error ∧
          r = .error error ∧ w' = ⟨w.store, paimon⟩) ∨
        ∃ entry, self.reload rules faults paimon target current.tableId path = .ok entry ∧ r = .ok entry ∧
          w' = ⟨(w.store.deleteTable current.path).createTable entry, paimon⟩) := by
  have hchecked : ∀ {a : TableCatalogEntry × DatabaseCatalogEntry × TablePath},
      (do
        let current ← self.requireTable w request.databaseName request.tableName
        let targetDatabase ← self.requireDatabase w request.newDatabaseName
        let targetPath ← self.requireTablePath request.newDatabaseName request.newTableName
        if (w.store.getTable targetPath).isSome then
          Except.error (CatalogError.duplicateTable self.name request.newDatabaseName request.newTableName)
        else return (current, targetDatabase, targetPath)) = .ok a →
      self.requireTable w request.databaseName request.tableName = .ok a.1 ∧
        self.requireDatabase w request.newDatabaseName = .ok a.2.1 ∧
        self.requireTablePath request.newDatabaseName request.newTableName = .ok a.2.2 ∧
        w.store.getTable a.2.2 = none := by
    intro a hchecks
    simp only [ExceptRun.bind_eq_ok] at hchecks
    obtain ⟨current, hcurrent, target, htarget, path, hpath, hchecks⟩ := hchecks
    split_ifs at hchecks with hexists
    cases hchecks
    rw [Option.not_isSome_iff_eq_none] at hexists
    exact ⟨hcurrent, htarget, hpath, hexists⟩
  rcases World.operate_cases h with hrefused | ⟨a, paimon, error, hchecks, hwrite, hfinish, rfl, rfl⟩ |
    ⟨a, paimon, entry, hchecks, hwrite, hfinish, rfl, rfl⟩
  · exact .inl hrefused
  · obtain ⟨hcurrent, htarget, hpath, hexists⟩ := hchecked hchecks
    obtain ⟨hfault, hrenamed⟩ := paimonCall_eq_ok.mp hwrite
    exact .inr ⟨a.1, a.2.1, a.2.2, paimon, hcurrent, htarget, hpath, hexists, hfault, hrenamed,
      .inl ⟨error, hfinish, rfl, rfl⟩⟩
  · obtain ⟨hcurrent, htarget, hpath, hexists⟩ := hchecked hchecks
    obtain ⟨hfault, hrenamed⟩ := paimonCall_eq_ok.mp hwrite
    exact .inr ⟨a.1, a.2.1, a.2.2, paimon, hcurrent, htarget, hpath, hexists, hfault, hrenamed,
      .inr ⟨entry, hfinish, rfl, rfl⟩⟩

/-- What `alter_table` does after its write. -/
def finishAlter (rules : PaimonRules) (self : ManagedPaimonCatalog) (faults : Faults)
    (request : AlterTableRequest) (paimon : PaimonState) (current : TableCatalogEntry)
    (database : DatabaseCatalogEntry) : Except CatalogError TableCatalogEntry := do
  let live ← loadTable faults paimon request.databaseName request.tableName
  self.buildTableEntry rules faults database current.tableId current.path live

theorem alterTable_cases {request : AlterTableRequest} {r : Except CatalogError TableCatalogEntry}
    (h : self.alterTable rules faults w request = (r, w')) :
    (∃ error, r = .error error ∧ w' = w) ∨
    ∃ current database changes paimon, self.requireTable w request.databaseName request.tableName = .ok current ∧
      self.requireDatabase w request.databaseName = .ok database ∧
      faults.request = none ∧ faults.write = none ∧
      request.operations.mapM (alterOperationToChange rules.format) = .ok changes ∧
      w.paimon.alterTable rules request.databaseName request.tableName changes = .ok paimon ∧
      ((∃ error, finishAlter rules self faults request paimon current database = .error error ∧
          r = .error error ∧ w' = ⟨w.store, paimon⟩) ∨
        ∃ entry, finishAlter rules self faults request paimon current database = .ok entry ∧ r = .ok entry ∧
          w' = ⟨w.store.createTable entry, paimon⟩) := by
  rcases World.operate_cases h with hrefused | ⟨a, paimon, error, hchecks, hwrite, hfinish, rfl, rfl⟩ |
    ⟨a, paimon, entry, hchecks, hwrite, hfinish, rfl, rfl⟩
  · exact .inl hrefused
  · simp only [ExceptRun.bind_eq_ok, ExceptRun.pure_eq_ok] at hchecks
    obtain ⟨current, hcurrent, database, hdatabase, rfl⟩ := hchecks
    obtain ⟨changes, hchanges, hwrite⟩ := ExceptRun.bind_eq_ok.mp hwrite
    exact .inr ⟨current, database, changes, paimon, hcurrent, hdatabase, (orFault_eq_ok.mp hchanges).1,
      (paimonCall_eq_ok.mp hwrite).1, (orFault_eq_ok.mp hchanges).2, (paimonCall_eq_ok.mp hwrite).2,
      .inl ⟨error, hfinish, rfl, rfl⟩⟩
  · simp only [ExceptRun.bind_eq_ok, ExceptRun.pure_eq_ok] at hchecks
    obtain ⟨current, hcurrent, database, hdatabase, rfl⟩ := hchecks
    obtain ⟨changes, hchanges, hwrite⟩ := ExceptRun.bind_eq_ok.mp hwrite
    exact .inr ⟨current, database, changes, paimon, hcurrent, hdatabase, (orFault_eq_ok.mp hchanges).1,
      (paimonCall_eq_ok.mp hwrite).1, (orFault_eq_ok.mp hchanges).2, (paimonCall_eq_ok.mp hwrite).2,
      .inr ⟨entry, hfinish, rfl, rfl⟩⟩

end ManagedPaimonCatalog

end BrewDB.Catalog

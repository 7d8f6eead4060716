import BrewDB.Execution.Command
import BrewDB.Planner.Ddl

/-!
# Statements about databases and tables, planned and executed

Reference: `bind_drop_statement` and `bind_create_database_statement` of `brewdb-planner/src/logical/ddl.rs`, and
`execute_brewdb_extension`, `create_table` and `drop_table` of `brewdb-execution/src/runtime/coordinator.rs`.

In every state that the catalogs reach, entries are kept under their own names. This says when each statement
succeeds there, and what it leaves behind.
-/

namespace BrewDB.Catalog

/-! ## Running a statement -/

/-- An error in planning or in execution. -/
inductive StatementError where
  | planning (error : PlannerError)
  | execution (error : ExecutionError)
deriving DecidableEq, Repr

/-- A statement, planned and executed. What is no command is an `EmptyRelation`, which has no rows. -/
def runDdl (rules : PaimonRules) (faults : Faults) (uuid : Uuid) (session : PlanningSession)
    (service : CatalogService) (request : DdlRequest) :
    Except StatementError QueryExecutionHandle × CatalogService :=
  match planDdl service session request with
  | .error error => (.error (.planning error), service)
  | .ok root =>
      let executed := executePlanned rules faults uuid (.ok []) service root
      (executed.1.mapError .execution, executed.2)

/-! ## Reached states -/

/-- A state that calls lead to, over any warehouse. -/
def CatalogService.Reached (rules : PaimonRules) (service : CatalogService) : Prop :=
  ∃ (paimon : PaimonState) (calls : List ServiceCall),
    service = calls.foldl (CatalogService.afterCall rules) (CatalogService.fresh paimon)

/-- Tables are kept under their own paths. -/
def MemoryCatalogStore.TablesNamed (store : MemoryCatalogStore) : Prop :=
  ∀ path entry, store.getTable path = some entry → entry.path = path

/-- Databases are kept under their own keys. -/
def MemoryCatalogStore.DatabasesNamed (store : MemoryCatalogStore) : Prop :=
  ∀ key entry, store.databases.byKey.get? key = some entry → entry.key = key

/-- Catalogs, databases and tables are kept under their own names. -/
structure CatalogService.Named (service : CatalogService) : Prop where
  catalogs : ∀ path entry, service.world.store.getCatalog path = some entry → entry.path = path
  databases : service.world.store.DatabasesNamed
  tables : service.world.store.TablesNamed
  registry : ∀ name catalog, service.registry.get? name = some catalog → catalog.name = name

namespace MemoryCatalogStore

/-- What the updates of databases and tables keep. -/
structure Kept (P : MemoryCatalogStore → Prop) : Prop where
  createDatabase : ∀ store entry, P store → P (store.createDatabase entry)
  deleteDatabase : ∀ store path, P store → P (store.deleteDatabase path)
  createTable : ∀ store entry, P store → P (store.createTable entry)
  deleteTable : ∀ store path, P store → P (store.deleteTable path)

variable {P : MemoryCatalogStore → Prop}

/-- An operation keeps what its update does. -/
theorem holds_of_operate {w w' : World} (h : P w.store) {α β : Type} {checks : Except CatalogError α}
    {write : α → Except CatalogError PaimonState} {finish : α → PaimonState → Except CatalogError β}
    {commit : α → β → MemoryCatalogStore} {r : Except CatalogError β}
    (hoperate : w.operate checks write finish commit = (r, w')) (hcommit : ∀ a b, P (commit a b)) :
    P w'.store := by
  rcases World.operate_outcomes hoperate with ⟨_, -, rfl⟩ |
    ⟨a, _, -, -, ⟨_, -, -, rfl⟩ | ⟨b, -, -, rfl⟩⟩
  · exact h
  · exact h
  · exact hcommit a b

/-- What the updates keep, every operation keeps. -/
theorem Kept.perform (hkept : Kept P) {rules : PaimonRules} {self : ManagedPaimonCatalog} {faults : Faults}
    {w w' : World} (h : P w.store) {operation : CatalogOperation} {r : Except CatalogError CatalogReply}
    (hperform : self.perform rules faults w operation = (r, w')) : P w'.store := by
  -- Only the update of the store differs from one operation to the next.
  cases operation with
  | createDatabase uuid databaseName options =>
      rw [ManagedPaimonCatalog.perform] at hperform
      obtain ⟨r', hx, -⟩ := eq_of_map_reply hperform
      exact holds_of_operate h hx fun _ entry => hkept.createDatabase _ entry h
  | createTable uuid request =>
      rw [ManagedPaimonCatalog.perform] at hperform
      obtain ⟨r', hx, -⟩ := eq_of_map_reply hperform
      exact holds_of_operate h hx fun _ entry => hkept.createTable _ entry h
  | dropDatabase databaseName =>
      rw [ManagedPaimonCatalog.perform] at hperform
      obtain ⟨r', hx, -⟩ := eq_of_map_reply hperform
      exact holds_of_operate h hx fun path _ => hkept.deleteDatabase _ path h
  | dropTable databaseName tableName =>
      rw [ManagedPaimonCatalog.perform] at hperform
      obtain ⟨r', hx, -⟩ := eq_of_map_reply hperform
      exact holds_of_operate h hx fun path _ => hkept.deleteTable _ path h
  | renameTable request =>
      rw [ManagedPaimonCatalog.perform] at hperform
      obtain ⟨r', hx, -⟩ := eq_of_map_reply hperform
      exact holds_of_operate h hx fun _ updated =>
        hkept.createTable _ updated (hkept.deleteTable _ _ h)
  | alterTable request =>
      rw [ManagedPaimonCatalog.perform] at hperform
      obtain ⟨r', hx, -⟩ := eq_of_map_reply hperform
      exact holds_of_operate h hx fun _ updated => hkept.createTable _ updated h

theorem kept_tablesNamed : Kept TablesNamed where
  createDatabase _ _ h := h
  deleteDatabase _ _ h := h
  createTable store entry h path found hfound := by
    rw [getTable_createTable] at hfound
    split_ifs at hfound with hpath
    · cases hfound
      exact hpath.symm
    · exact h path found hfound
  deleteTable store path h path' found hfound := by
    rw [getTable_deleteTable] at hfound
    split_ifs at hfound
    exact h path' found hfound

theorem kept_databasesNamed : Kept DatabasesNamed where
  createDatabase store entry h key found hfound := by
    rw [MemoryCatalogStore.createDatabase, TwoIndex.get?_put] at hfound
    split_ifs at hfound with hkey
    · cases hfound
      exact hkey.symm
    · exact h key found hfound
  deleteDatabase store path h key found hfound := by
    rw [MemoryCatalogStore.deleteDatabase, TwoIndex.get?_delete] at hfound
    split_ifs at hfound
    exact h key found hfound
  createTable _ _ h := h
  deleteTable _ _ h := h

/-- The databases that are listed are those that are found. -/
theorem DatabasesNamed.mem_listDatabases {store : MemoryCatalogStore} (h : store.DatabasesNamed)
    {path : CatalogPath} {entry : DatabaseCatalogEntry} :
    entry ∈ store.listDatabases path ↔
      store.getDatabase entry.path = some entry ∧ entry.path.catalog = path.catalog := by
  rw [listDatabases, List.mem_filter, decide_eq_true_eq, BTreeMap.mem_values]
  refine and_congr_left fun _ => ⟨?_, fun hentry => ⟨_, hentry⟩⟩
  -- The list is over all keys; the invariant says which key an entry is under.
  rintro ⟨key, hkey⟩
  have hsame := h key entry hkey
  rw [← hsame] at hkey
  exact hkey

theorem DatabasesNamed.path_of_getDatabase {store : MemoryCatalogStore} (h : store.DatabasesNamed)
    {path : DatabasePath} {entry : DatabaseCatalogEntry} (hentry : store.getDatabase path = some entry) :
    entry.path = path :=
  DatabasePath.toString_injective (h _ entry hentry)

end MemoryCatalogStore

namespace CatalogService

variable {rules : PaimonRules} {service opened : CatalogService}

/-- The catalog that is opened has the name it is opened by. -/
theorem Named.openCatalog (h : service.Named) {name : String} {catalog : ManagedPaimonCatalog}
    (hopen : service.openCatalog name = .ok (catalog, opened)) :
    catalog.name = name ∧ opened.world = service.world ∧ opened.Named := by
  rw [CatalogService.openCatalog] at hopen
  split at hopen
  next found hfound =>
    cases hopen
    exact ⟨h.registry name catalog hfound, rfl, h⟩
  next =>
    obtain ⟨path, hpath, hopen⟩ := ExceptRun.bind_eq_ok.mp hopen
    have hname : path.catalog.value = name := by
      simp only [CatalogPath.new, ExceptRun.bind_eq_ok, ExceptRun.pure_eq_ok] at hpath
      obtain ⟨segment, hsegment, rfl⟩ := hpath
      exact value_of_normalizeSegment hsegment
    split at hopen
    next => cases hopen
    next entry hentry =>
      split_ifs at hopen
      cases hopen
      -- The catalog is registered under the name in its entry, which is the one it was looked up by.
      have hcatalog : ManagedPaimonCatalog.name ⟨entry⟩ = name := by
        rw [← hname, ← h.catalogs path entry hentry]
        rfl
      refine ⟨hcatalog, rfl, h.catalogs, h.databases, h.tables, fun other found hfound => ?_⟩
      rw [register, BTreeMap.get?_insert] at hfound
      split_ifs at hfound with hother
      · cases hfound
        exact hother.symm
      · exact h.registry other found hfound

theorem named_fresh (paimon : PaimonState) : (fresh paimon).Named where
  catalogs _ _ h := by cases h
  databases _ _ h := by cases h
  tables _ _ h := by cases h
  registry _ _ h := by cases h

theorem Named.perform (h : service.Named) (name : String) (operation : CatalogOperation) (faults : Faults) :
    (service.perform rules name operation faults).2.Named := by
  unfold CatalogService.perform
  split
  next => exact h
  next catalog opened hopen =>
    obtain ⟨-, hworld, hopened⟩ := h.openCatalog hopen
    have hperform := (Prod.mk.eta (p := catalog.perform rules faults opened.world operation)).symm
    have hcatalogs := ManagedPaimonCatalog.catalogs_perform hperform
    refine ⟨fun path entry hentry => ?_,
      MemoryCatalogStore.kept_databasesNamed.perform hopened.databases hperform,
      MemoryCatalogStore.kept_tablesNamed.perform hopened.tables hperform, hopened.registry⟩
    rw [MemoryCatalogStore.getCatalog, hcatalogs] at hentry
    exact hopened.catalogs path entry hentry

theorem Named.afterCall (h : service.Named) (call : ServiceCall) : (service.afterCall rules call).Named := by
  cases call with
  | perform name operation faults => exact h.perform name operation faults
  | createCatalog entry =>
      show (service.createCatalog entry).2.Named
      unfold createCatalog
      split_ifs
      · exact h
      · refine ⟨fun path found hfound => ?_, h.databases, h.tables, h.registry⟩
        rw [MemoryCatalogStore.getCatalog_createCatalog] at hfound
        split_ifs at hfound with hpath
        · cases hfound
          exact hpath.symm
        · exact h.catalogs path found hfound

end CatalogService

/-- Every reached state keeps its names. -/
theorem CatalogService.Reached.named {rules : PaimonRules} {service : CatalogService} (h : service.Reached rules) :
    service.Named := by
  obtain ⟨paimon, calls, rfl⟩ := h
  -- By induction on the calls, from any service that keeps its names.
  suffices ∀ service : CatalogService, service.Named →
      (calls.foldl (CatalogService.afterCall rules) service).Named from this _ (CatalogService.named_fresh paimon)
  induction calls with
  | nil => exact fun service hservice => hservice
  | cons call calls ih => exact fun service hservice => ih _ (hservice.afterCall call)

/-! ## What names designate -/

/-- The table that a name designates. -/
def tablePathOf (session : PlanningSession) (name : ObjectName) : Option TablePath :=
  match qualifyTableName session name with
  | .ok parts => (TablePath.new parts.catalog parts.database parts.table).toOption
  | .error _ => none

/-- The database that a name designates. -/
def databasePathOf (session : PlanningSession) (name : ObjectName) : Option DatabasePath :=
  match qualifyDatabaseName session name with
  | .ok parts => (DatabasePath.new parts.1 parts.2).toOption
  | .error _ => none

/-- The catalog can be opened. -/
def CatalogService.Opens (service : CatalogService) (catalog : Segment) : Prop :=
  (service.openCatalog catalog.value).isOk = true

section

variable (faults : Faults) (session : PlanningSession) (service : CatalogService)

/-- There is no such table in a catalog that is there. -/
def MissingTable (name : ObjectName) : Prop :=
  ∃ path, tablePathOf session name = some path ∧ service.Opens path.catalog ∧
    service.world.store.getTable path = none

/-- There is such a table, and nothing stands in the way of dropping it. -/
def RemovableTable (name : ObjectName) : Prop :=
  ∃ path, tablePathOf session name = some path ∧ service.Opens path.catalog ∧
    (service.world.store.getTable path).isSome = true ∧ faults.write = none ∧
    (service.world.paimon.dropTable path.database.value path.table.value).isOk = true

/-- The planner takes the table for missing. -/
def SkippedTable (name : ObjectName) : Prop :=
  ∃ error, service.resolveTable session name = .error error ∧ isTableNotFound error = true

/-- There is such a table. -/
def PresentTable (name : ObjectName) : Prop :=
  ∃ path, tablePathOf session name = some path ∧ (service.world.store.getTable path).isSome = true

/-- There is no such database in a catalog that is there. -/
def MissingDatabase (name : ObjectName) : Prop :=
  ∃ path, databasePathOf session name = some path ∧ service.Opens path.catalog ∧
    service.world.store.getDatabase path = none

/-- There is such a database, and nothing stands in the way of dropping it. -/
def RemovableDatabase (name : ObjectName) : Prop :=
  ∃ path, databasePathOf session name = some path ∧ service.Opens path.catalog ∧
    (service.world.store.getDatabase path).isSome = true ∧ faults.write = none ∧
    (service.world.paimon.dropDatabase path.database.value).isOk = true

/-- There is such a database. -/
def PresentDatabase (name : ObjectName) : Prop :=
  ∃ path, databasePathOf session name = some path ∧ (service.world.store.getDatabase path).isSome = true

/-- The name, as it is printed, is free for a new database. -/
def PrintedFree (name : ObjectName) : Prop :=
  ∃ path, DatabasePath.new session.catalogName name.toString = .ok path ∧ service.Opens path.catalog ∧
    service.world.store.getDatabase path = none ∧ faults.write = none

/-- All that `CREATE TABLE` needs is there, be the table there or not. -/
def CreatableTable (rules : PaimonRules) (uuid : Uuid) (create : CreateTable) : Prop :=
  faults.request = none ∧ faults.write = none ∧
  ∃ statement catalog opened request database path schema paimon entry,
    bindCreateTableStatement service session create = .ok statement ∧
    service.openCatalog statement.name.catalog = .ok (catalog, opened) ∧
    createTableRequest statement = .ok request ∧ catalog.entry.storageKind = .paimon ∧
    catalog.requireDatabase service.world request.databaseName = .ok database ∧
    catalog.requireTablePath request.databaseName request.tableName = .ok path ∧
    buildSchema rules.format request = .ok schema ∧
    service.world.paimon.createTable rules request.databaseName request.tableName schema = .ok paimon ∧
    catalog.reload rules faults paimon database uuid path = .ok entry

/-- All that `CREATE DATABASE` needs is there, be the database there or not. -/
def CreatableDatabase (name : ObjectName) : Prop :=
  ∃ path, databasePathOf session name = some path ∧ service.Opens path.catalog ∧ faults.write = none ∧
    (service.world.paimon.createDatabase path.database.value).isOk = true

end

/-! ## Outcomes -/

section

variable (rules : PaimonRules) (faults : Faults) (uuid : Uuid) (session : PlanningSession)
  (service : CatalogService)

/-- The statement succeeds. -/
def Succeeds (request : DdlRequest) : Prop := (runDdl rules faults uuid session service request).1.isOk = true

/-- The statement leaves catalogs and warehouse as they are. -/
def Unchanged (request : DdlRequest) : Prop :=
  (runDdl rules faults uuid session service request).2.world = service.world

end

/-! ## Planning -/

theorem TablePath.new_eq_ok {catalog database table : String} {path : TablePath} :
    TablePath.new catalog database table = .ok path ↔
      path.catalog.value = catalog ∧ path.database.value = database ∧ path.table.value = table := by
  constructor
  · intro h
    simp only [TablePath.new, ExceptRun.bind_eq_ok, ExceptRun.pure_eq_ok] at h
    obtain ⟨catalog', hcatalog, database', hdatabase, table', htable, rfl⟩ := h
    exact ⟨value_of_normalizeSegment hcatalog, value_of_normalizeSegment hdatabase,
      value_of_normalizeSegment htable⟩
  · rintro ⟨rfl, rfl, rfl⟩
    simp only [TablePath.new, normalizeSegment_value]
    rfl

theorem DatabasePath.new_eq_ok {catalog database : String} {path : DatabasePath} :
    DatabasePath.new catalog database = .ok path ↔
      path.catalog.value = catalog ∧ path.database.value = database := by
  constructor
  · intro h
    simp only [DatabasePath.new, ExceptRun.bind_eq_ok, ExceptRun.pure_eq_ok] at h
    obtain ⟨catalog', hcatalog, database', hdatabase, rfl⟩ := h
    exact ⟨value_of_normalizeSegment hcatalog, value_of_normalizeSegment hdatabase⟩
  · rintro ⟨rfl, rfl⟩
    simp only [DatabasePath.new, normalizeSegment_value]
    rfl

theorem CatalogPath.new_value (catalog : Segment) : CatalogPath.new catalog.value = .ok ⟨catalog⟩ := by
  simp only [CatalogPath.new, normalizeSegment_value]
  rfl

section

variable {rules : PaimonRules} {faults : Faults} {session : PlanningSession} {service : CatalogService}
  {name : ObjectName}

theorem tablePathOf_eq_some {path : TablePath} :
    tablePathOf session name = some path ↔
      qualifyTableName session name = .ok ⟨path.catalog.value, path.database.value, path.table.value⟩ := by
  unfold tablePathOf
  cases hname : qualifyTableName session name with
  | error error => simp
  | ok parts =>
      have hpath : (TablePath.new parts.catalog parts.database parts.table).toOption = some path ↔
          TablePath.new parts.catalog parts.database parts.table = .ok path := by
        cases TablePath.new parts.catalog parts.database parts.table with
        | error error => simp [Except.toOption]
        | ok found => simp [Except.toOption]
      show (TablePath.new parts.catalog parts.database parts.table).toOption = some path ↔ _
      rw [hpath, TablePath.new_eq_ok, Except.ok.injEq]
      constructor
      · rintro ⟨h₁, h₂, h₃⟩
        rw [h₁, h₂, h₃]
      · intro h
        rw [h]
        exact ⟨rfl, rfl, rfl⟩

theorem databasePathOf_eq_some {path : DatabasePath} :
    databasePathOf session name = some path ↔
      qualifyDatabaseName session name = .ok (path.catalog.value, path.database.value) := by
  unfold databasePathOf
  cases hname : qualifyDatabaseName session name with
  | error error => simp
  | ok parts =>
      have hpath : (DatabasePath.new parts.1 parts.2).toOption = some path ↔
          DatabasePath.new parts.1 parts.2 = .ok path := by
        cases DatabasePath.new parts.1 parts.2 with
        | error error => simp [Except.toOption]
        | ok found => simp [Except.toOption]
      show (DatabasePath.new parts.1 parts.2).toOption = some path ↔ _
      rw [hpath, DatabasePath.new_eq_ok, Except.ok.injEq]
      constructor
      · rintro ⟨h₁, h₂⟩
        rw [h₁, h₂]
      · intro h
        rw [h]
        exact ⟨rfl, rfl⟩

/-- A catalog that opens is opened under its name. -/
theorem CatalogService.Opens.exists_catalog (h : service.Named) {segment : Segment}
    (hopens : service.Opens segment) :
    ∃ catalog opened, service.openCatalog segment.value = .ok (catalog, opened) ∧
      catalog.name = segment.value ∧ opened.world = service.world := by
  obtain ⟨⟨catalog, opened⟩, hopen⟩ := ExceptRun.exists_of_isOk hopens
  obtain ⟨hname, hworld, -⟩ := h.openCatalog hopen
  exact ⟨catalog, opened, hopen, hname, hworld⟩

/-- A catalog that was opened is registered. -/
theorem CatalogService.Named.registered (h : service.Named) {catalogName : String}
    {catalog : ManagedPaimonCatalog} {opened : CatalogService}
    (hopen : service.openCatalog catalogName = .ok (catalog, opened)) :
    opened.registry.get? catalogName = some catalog := by
  obtain ⟨hname, -, -⟩ := h.openCatalog hopen
  unfold CatalogService.openCatalog at hopen
  split at hopen
  next found hfound =>
    cases hopen
    exact hfound
  next =>
    obtain ⟨path, -, hopen⟩ := ExceptRun.bind_eq_ok.mp hopen
    split at hopen
    next => cases hopen
    next entry _ =>
      split_ifs at hopen
      cases hopen
      rw [CatalogService.register, BTreeMap.get?_insert, if_pos hname.symm]

/-- A registered catalog is opened without more. -/
theorem CatalogService.openCatalog_of_registered {catalogName : String} {catalog : ManagedPaimonCatalog}
    (hregistered : service.registry.get? catalogName = some catalog) :
    service.openCatalog catalogName = .ok (catalog, service) := by
  unfold CatalogService.openCatalog
  rw [hregistered]

/-- The tables of a catalog are looked up under its name. -/
theorem ManagedPaimonCatalog.requireTablePath_value {self : ManagedPaimonCatalog} {path : TablePath}
    (hname : self.name = path.catalog.value) :
    self.requireTablePath path.database.value path.table.value = .ok path :=
  TablePath.new_eq_ok.mpr ⟨hname.symm, rfl, rfl⟩

theorem ManagedPaimonCatalog.requireDatabasePath_value {self : ManagedPaimonCatalog} {path : DatabasePath}
    (hname : self.name = path.catalog.value) : self.requireDatabasePath path.database.value = .ok path :=
  DatabasePath.new_eq_ok.mpr ⟨hname.symm, rfl⟩

/-- A name that designates a table of an open catalog is resolved to it. -/
theorem resolveTable_of_some {path : TablePath} {catalog : ManagedPaimonCatalog} {opened : CatalogService}
    {entry : TableCatalogEntry} (hpath : tablePathOf session name = some path)
    (hopen : service.openCatalog path.catalog.value = .ok (catalog, opened))
    (hname : catalog.name = path.catalog.value) (hentry : service.world.store.getTable path = some entry) :
    service.resolveTable session name = .ok entry := by
  simp only [CatalogService.resolveTable, tablePathOf_eq_some.mp hpath, CatalogPath.new_value, hopen,
    ManagedPaimonCatalog.requireTable, ManagedPaimonCatalog.requireTablePath_value hname, hentry,
    invalidPlanOf, Except.mapError, bind, Except.bind, pure, Except.pure]

/-- If there is no such table, the error says so. -/
theorem resolveTable_of_none {path : TablePath} {catalog : ManagedPaimonCatalog} {opened : CatalogService}
    (hpath : tablePathOf session name = some path)
    (hopen : service.openCatalog path.catalog.value = .ok (catalog, opened))
    (hname : catalog.name = path.catalog.value) (hentry : service.world.store.getTable path = none) :
    service.resolveTable session name = .error (.invalidPlan
      (CatalogError.tableNotFound path.catalog.value path.database.value path.table.value).toString) := by
  simp only [CatalogService.resolveTable, tablePathOf_eq_some.mp hpath, CatalogPath.new_value, hopen,
    ManagedPaimonCatalog.requireTable, ManagedPaimonCatalog.requireTablePath_value hname, hentry, hname,
    invalidPlanOf, Except.mapError, bind, Except.bind]

/-- What is resolved is the table that the name designates. -/
theorem resolveTable_eq_ok (h : service.Named) {entry : TableCatalogEntry}
    (hresolve : service.resolveTable session name = .ok entry) :
    tablePathOf session name = some entry.path ∧ service.Opens entry.path.catalog ∧
      service.world.store.getTable entry.path = some entry := by
  simp only [CatalogService.resolveTable, invalidPlanOf, ExceptRun.bind_eq_ok, ExceptRun.mapError_eq_ok]
    at hresolve
  obtain ⟨parts, hparts, path, hpath, ⟨catalog, opened⟩, hopen, hrequire⟩ := hresolve
  obtain ⟨hname, hworld, -⟩ := h.openCatalog hopen
  obtain ⟨tablePath, htablePath, hentry⟩ := ManagedPaimonCatalog.requireTable_eq_ok hrequire
  obtain ⟨hcatalog, hdatabase, htable⟩ := TablePath.new_eq_ok.mp htablePath
  obtain rfl : entry.path = tablePath := h.tables tablePath entry hentry
  have hvalue : path.catalog.value = parts.catalog := by
    simp only [CatalogPath.new, ExceptRun.bind_eq_ok, ExceptRun.pure_eq_ok] at hpath
    obtain ⟨segment, hsegment, rfl⟩ := hpath
    exact value_of_normalizeSegment hsegment
  refine ⟨tablePathOf_eq_some.mpr ?_, ?_, hentry⟩
  · rw [hparts, hcatalog, hdatabase, htable, hname, hvalue]
  · have hsame : entry.path.catalog.value = path.catalog.value := by rw [hcatalog, hname]
    unfold CatalogService.Opens
    rw [hsame, hopen]
    rfl

theorem toString_tableNotFound (catalog database table : String) :
    (CatalogError.tableNotFound catalog database table).toString =
      "table not found: `" ++ catalog ++ "." ++ database ++ "." ++ table ++ "`" := by
  unfold CatalogError.toString
  rfl

theorem isTableNotFound_tableNotFound (catalog database table : String) :
    isTableNotFound (.invalidPlan (CatalogError.tableNotFound catalog database table).toString) = true := by
  have htext : (CatalogError.tableNotFound catalog database table).toString =
      "table not found" ++ (": `" ++ catalog ++ "." ++ database ++ "." ++ table ++ "`") := by
    have hsplit : "table not found: `" = "table not found" ++ ": `" := by decide
    rw [toString_tableNotFound, hsplit]
    simp only [String.append_assoc]
  rw [htext, isTableNotFound, containsText, decide_eq_true_iff, String.toList_append]
  exact (List.prefix_append _ _).isInfix

/-- The planner passes over what is missing. -/
theorem MissingTable.skipped (h : service.Named) (hmissing : MissingTable session service name) :
    SkippedTable session service name := by
  obtain ⟨path, hpath, hopens, hnone⟩ := hmissing
  obtain ⟨catalog, opened, hopen, hname, -⟩ := hopens.exists_catalog h
  exact ⟨_, resolveTable_of_none hpath hopen hname hnone, isTableNotFound_tableNotFound _ _ _⟩

/-! ## Execution -/

theorem isOk_mapError {ε ε' α : Type} (result : Except ε α) (f : ε → ε') :
    (result.mapError f).isOk = result.isOk := by
  cases result <;> rfl

theorem isOk_map {ε α β : Type} (result : Except ε α) (f : α → β) : (result.map f).isOk = result.isOk := by
  cases result <;> rfl

/-- A command is an operation of the catalog that opens. -/
theorem performCommand_of_open {commandTag catalogName : String} {catalog : ManagedPaimonCatalog}
    {opened : CatalogService} (hopen : service.openCatalog catalogName = .ok (catalog, opened))
    (operation : CatalogOperation) :
    (performCommand rules faults service commandTag catalogName operation).1.isOk =
        (catalog.perform rules faults opened.world operation).1.isOk ∧
      (performCommand rules faults service commandTag catalogName operation).2.world =
        (catalog.perform rules faults opened.world operation).2 := by
  unfold performCommand CatalogService.perform
  rw [hopen]
  refine ⟨?_, rfl⟩
  rw [isOk_map, isOk_mapError]

/-- Without a catalog there is no command. -/
theorem opens_of_performCommand {commandTag catalogName : String} {operation : CatalogOperation}
    (h : (performCommand rules faults service commandTag catalogName operation).1.isOk = true) :
    ∃ catalog opened, service.openCatalog catalogName = .ok (catalog, opened) := by
  unfold performCommand CatalogService.perform at h
  cases hopen : service.openCatalog catalogName with
  | error error =>
      rw [hopen] at h
      cases h
  | ok opened => exact ⟨opened.1, opened.2, rfl⟩

theorem isOk_paimonCall {α : Type} {fault : Option String} {f : PaimonError → CatalogError}
    {result : Except PaimonError α} :
    (paimonCall fault f result).isOk = true ↔ fault = none ∧ result.isOk = true := by
  constructor
  · intro h
    obtain ⟨a, ha⟩ := ExceptRun.exists_of_isOk h
    obtain ⟨hfault, hresult⟩ := paimonCall_eq_ok.mp ha
    rw [hresult]
    exact ⟨hfault, rfl⟩
  · rintro ⟨hfault, hresult⟩
    obtain ⟨a, ha⟩ := ExceptRun.exists_of_isOk hresult
    rw [paimonCall_eq_ok.mpr ⟨hfault, ha⟩]
    rfl

/-- An operation that is checked and needs nothing after its write does what the write does. -/
theorem World.operate_outcome {α β : Type} {w : World} {checks : Except CatalogError α}
    {write : α → Except CatalogError PaimonState} {finish : α → PaimonState → Except CatalogError β}
    {commit : α → β → MemoryCatalogStore} {a : α} {b : β} (hchecks : checks = .ok a)
    (hfinish : ∀ paimon, finish a paimon = .ok b) :
    (w.operate checks write finish commit).1.isOk = (write a).isOk ∧
      ((w.operate checks write finish commit).1.isOk = true →
        (w.operate checks write finish commit).2.store = commit a b) := by
  -- Nothing can fail behind the write.
  cases hwrite : write a with
  | error error =>
      rw [World.operate_of_unwritten hchecks hwrite]
      exact ⟨rfl, fun h => by cases h⟩
  | ok paimon =>
      rw [World.operate_of_finished hchecks hwrite (hfinish paimon)]
      exact ⟨rfl, fun _ => rfl⟩

namespace ManagedPaimonCatalog

variable {self : ManagedPaimonCatalog} {w : World}

/-- Dropping a table that is there. -/
theorem dropTable_outcome {path : TablePath} (hname : self.name = path.catalog.value)
    (hfound : (w.store.getTable path).isSome = true) :
    ((self.dropTable faults w path.database.value path.table.value).1.isOk = true ↔
      faults.write = none ∧ (w.paimon.dropTable path.database.value path.table.value).isOk = true) ∧
    ((self.dropTable faults w path.database.value path.table.value).1.isOk = true →
      (self.dropTable faults w path.database.value path.table.value).2.store = w.store.deleteTable path) := by
  rw [← isOk_paimonCall (f := mapPaimonWriteError), Bool.coe_iff_coe]
  unfold dropTable
  refine World.operate_outcome (a := path) (b := ()) ?_ fun _ => rfl
  exact ExceptRun.bind_eq_ok.mpr ⟨path, requireTablePath_value hname, if_pos hfound⟩

/-- Dropping a database. -/
theorem dropDatabase_outcome {path : DatabasePath} (hname : self.name = path.catalog.value) :
    (self.dropDatabase faults w path.database.value).1.isOk = true ↔
      (w.store.getDatabase path).isSome = true ∧ faults.write = none ∧
        (w.paimon.dropDatabase path.database.value).isOk = true := by
  constructor
  · intro h
    rcases dropDatabase_cases Prod.mk.eta.symm with ⟨error, hr, -⟩ |
      ⟨path', paimon, hpath, hfound, hfault, hdropped, -, -⟩
    · rw [hr] at h
      cases h
    · rw [requireDatabasePath_value hname] at hpath
      cases hpath
      rw [hdropped]
      exact ⟨hfound, hfault, rfl⟩
  · rintro ⟨hfound, hdropped⟩
    unfold dropDatabase
    rw [(World.operate_outcome (a := path) (b := ()) ?_ fun _ => rfl).1]
    · exact isOk_paimonCall.mpr hdropped
    · exact ExceptRun.bind_eq_ok.mpr ⟨path, requireDatabasePath_value hname, if_pos hfound⟩

/-- A free name is taken if Paimon can be written to. What Paimon has already is taken over. -/
theorem isOk_createDatabase {uuid : Uuid} {options : Options} {path : DatabasePath}
    (hname : self.name = path.catalog.value) (hfree : w.store.getDatabase path = none) :
    (self.createDatabase faults w uuid path.database.value options).1.isOk = true ↔ faults.write = none := by
  unfold createDatabase
  rw [(World.operate_outcome (a := path) (b := ⟨uuid, self.entry.catalogId, path, options⟩) ?_ fun _ => rfl).1]
  · cases faults.write with
    | some message => simp [paimonCall, orFault, mapPaimonWriteError, mapPaimonError, Except.isOk, Except.toBool]
    | none =>
        -- A database that Paimon has is reported as a duplicate, which is taken for success.
        unfold PaimonState.createDatabase
        cases w.paimon.databases.get? path.database.value <;>
          simp [paimonCall, orFault, mapPaimonWriteError, Except.isOk, Except.toBool]
  · refine ExceptRun.bind_eq_ok.mpr ⟨path, requireDatabasePath_value hname, if_neg ?_⟩
    rw [hfree]
    exact Bool.false_ne_true

/-- A name that is taken is not free. -/
theorem free_of_createDatabase {uuid : Uuid} {options : Options} {path : DatabasePath}
    (hname : self.name = path.catalog.value)
    (h : (self.createDatabase faults w uuid path.database.value options).1.isOk = true) :
    w.store.getDatabase path = none ∧
      (self.createDatabase faults w uuid path.database.value options).2.store.getDatabase path ≠ none := by
  rcases createDatabase_cases Prod.mk.eta.symm with ⟨error, hr, -⟩ |
    ⟨path', paimon, hpath, hfree, -, -, hworld⟩
  · rw [hr] at h
    cases h
  · rw [requireDatabasePath_value hname] at hpath
    cases hpath
    rw [hworld]
    refine ⟨hfree, ?_⟩
    rw [MemoryCatalogStore.getDatabase_createDatabase, if_pos rfl]
    exact Option.some_ne_none _

/-- A table that is there is not created again. -/
theorem not_createTable {uuid : Uuid} {request : CreateTableRequest} {path : TablePath}
    (hname : self.name = path.catalog.value) (hdatabase : request.databaseName = path.database.value)
    (htable : request.tableName = path.table.value) (hfound : (w.store.getTable path).isSome = true) :
    ¬ (self.createTable rules faults w uuid request).1.isOk = true := by
  intro h
  rcases createTable_cases Prod.mk.eta.symm with ⟨error, hr, -⟩ |
    ⟨database, path', paimon, -, -, hpath, hfree, -, ⟨error, -, hr, -⟩ | _⟩
  · rw [hr] at h
    cases h
  · rw [hr] at h
    cases h
  · rw [hdatabase, htable, requireTablePath_value hname] at hpath
    cases hpath
    rw [hfree] at hfound
    cases hfound

/-- With all that is needed, a table that is not there is created. -/
theorem isOk_createTable {uuid : Uuid} {request : CreateTableRequest} {database : DatabaseCatalogEntry}
    {path : TablePath} {schema : PaimonSchema} {paimon : PaimonState} {entry : TableCatalogEntry}
    (hrequest : faults.request = none) (hwrite : faults.write = none)
    (hkind : self.entry.storageKind = .paimon)
    (hdatabase : self.requireDatabase w request.databaseName = .ok database)
    (hpath : self.requireTablePath request.databaseName request.tableName = .ok path)
    (hfree : w.store.getTable path = none) (hschema : buildSchema rules.format request = .ok schema)
    (hcreated : w.paimon.createTable rules request.databaseName request.tableName schema = .ok paimon)
    (hreload : self.reload rules faults paimon database uuid path = .ok entry) :
    (self.createTable rules faults w uuid request).1.isOk = true := by
  unfold createTable
  rw [World.operate_of_finished (a := (database, path)) ?_ ?_ hreload]
  · rfl
  · rw [if_neg (not_not.mpr hkind)]
    refine ExceptRun.bind_eq_ok.mpr ⟨database, hdatabase, ExceptRun.bind_eq_ok.mpr ⟨path, hpath, if_neg ?_⟩⟩
    rw [hfree]
    exact Bool.false_ne_true
  · refine ExceptRun.bind_eq_ok.mpr ⟨schema, orFault_eq_ok.mpr ⟨hrequest, hschema⟩, ?_⟩
    rw [paimonCall_eq_ok.mpr ⟨hwrite, hcreated⟩]

end ManagedPaimonCatalog

/-! ## Statements -/

theorem succeeds_iff_of_planned {uuid : Uuid} {request : DdlRequest} {root : RootPlan}
    (hplan : planDdl service session request = .ok root) :
    Succeeds rules faults uuid session service request ↔
      (executePlanned rules faults uuid (.ok []) service root).1.isOk = true := by
  unfold Succeeds runDdl
  rw [hplan]
  exact Bool.coe_iff_coe.mpr (isOk_mapError _ _)

theorem runDdl_snd_of_planned {uuid : Uuid} {request : DdlRequest} {root : RootPlan}
    (hplan : planDdl service session request = .ok root) :
    (runDdl rules faults uuid session service request).2 =
      (executePlanned rules faults uuid (.ok []) service root).2 := by
  unfold runDdl
  rw [hplan]

theorem planned_of_succeeds {uuid : Uuid} {request : DdlRequest}
    (h : Succeeds rules faults uuid session service request) :
    ∃ root, planDdl service session request = .ok root := by
  unfold Succeeds runDdl at h
  cases hplan : planDdl service session request with
  | error error =>
      rw [hplan] at h
      cases h
  | ok root => exact ⟨root, rfl⟩

theorem performCommand_dropTable {path : TablePath} {catalog : ManagedPaimonCatalog} {opened : CatalogService}
    (hopen : service.openCatalog path.catalog.value = .ok (catalog, opened))
    (hname : catalog.name = path.catalog.value) (hworld : opened.world = service.world)
    (hfound : (service.world.store.getTable path).isSome = true) :
    ((performCommand rules faults service "DROP TABLE" path.catalog.value
        (.dropTable path.database.value path.table.value)).1.isOk = true ↔
      faults.write = none ∧ (service.world.paimon.dropTable path.database.value path.table.value).isOk = true) ∧
    ((performCommand rules faults service "DROP TABLE" path.catalog.value
        (.dropTable path.database.value path.table.value)).1.isOk = true →
      (performCommand rules faults service "DROP TABLE" path.catalog.value
        (.dropTable path.database.value path.table.value)).2.world.store =
          service.world.store.deleteTable path) := by
  obtain ⟨hok, hafter⟩ := @performCommand_of_open rules faults service "DROP TABLE" _ _ _ hopen
    (.dropTable path.database.value path.table.value)
  rw [hok, hafter, hworld, ManagedPaimonCatalog.perform]
  simp only [Prod.map_fst, Prod.map_snd, id_eq, isOk_map]
  exact ManagedPaimonCatalog.dropTable_outcome hname hfound

section DropTable

variable {uuid : Uuid} {ifExists : Bool} {rest : List ObjectName}

theorem removableTable_iff (h : service.Named) :
    RemovableTable faults session service name ↔
      ∃ entry, service.resolveTable session name = .ok entry ∧ faults.write = none ∧
        (service.world.paimon.dropTable entry.path.database.value entry.path.table.value).isOk = true := by
  constructor
  · rintro ⟨path, hpath, hopens, hfound, hfault, hdropped⟩
    obtain ⟨entry, hentry⟩ := Option.isSome_iff_exists.mp hfound
    obtain ⟨catalog, opened, hopen, hname, -⟩ := hopens.exists_catalog h
    obtain rfl : entry.path = path := h.tables path entry hentry
    exact ⟨entry, resolveTable_of_some hpath hopen hname hentry, hfault, hdropped⟩
  · rintro ⟨entry, hresolve, hfault, hdropped⟩
    obtain ⟨hpath, hopens, hentry⟩ := resolveTable_eq_ok h hresolve
    exact ⟨entry.path, hpath, hopens, Option.isSome_iff_exists.mpr ⟨entry, hentry⟩, hfault, hdropped⟩

/-- A table that is resolved is dropped, if it can be. -/
theorem dropTable_of_resolved (h : service.Named) {entry : TableCatalogEntry}
    (hresolve : service.resolveTable session name = .ok entry) :
    (Succeeds rules faults uuid session service (.drop .table ifExists (name :: rest)) ↔
      faults.write = none ∧
        (service.world.paimon.dropTable entry.path.database.value entry.path.table.value).isOk = true) ∧
    (Succeeds rules faults uuid session service (.drop .table ifExists (name :: rest)) →
      (runDdl rules faults uuid session service (.drop .table ifExists (name :: rest))).2.world.store =
        service.world.store.deleteTable entry.path) := by
  have hplan : planDdl service session (.drop .table ifExists (name :: rest)) =
      .ok (.ddl (.dropTable ⟨entry.reference, ifExists⟩)) := by
    simp only [planDdl, bindDropStatement, bindDropTable, hresolve]
  obtain ⟨-, hopens, hentry⟩ := resolveTable_eq_ok h hresolve
  obtain ⟨catalog, opened, hopen, hname, hworld⟩ := hopens.exists_catalog h
  rw [succeeds_iff_of_planned hplan, runDdl_snd_of_planned hplan]
  exact performCommand_dropTable hopen hname hworld (Option.isSome_iff_exists.mpr ⟨entry, hentry⟩)

theorem succeeds_dropTable_iff (h : service.Named) :
    Succeeds rules faults uuid session service (.drop .table ifExists (name :: rest)) ↔
      RemovableTable faults session service name ∨ ifExists = true ∧ SkippedTable session service name := by
  rw [removableTable_iff h]
  cases hresolve : service.resolveTable session name with
  | ok entry =>
      rw [(dropTable_of_resolved h hresolve).1]
      constructor
      · exact fun hdropped => .inl ⟨entry, rfl, hdropped⟩
      · rintro (⟨other, hother, hdropped⟩ | ⟨-, error, herror, -⟩)
        · cases hother
          exact hdropped
        · rw [hresolve] at herror
          cases herror
  | error error =>
      have hskipped : SkippedTable session service name ↔ isTableNotFound error = true := by
        unfold SkippedTable
        rw [hresolve]
        simp
      rw [hskipped]
      have hplan : planDdl service session (.drop .table ifExists (name :: rest)) =
          if ifExists = true ∧ isTableNotFound error = true then .ok (.other []) else .error error := by
        simp only [planDdl, bindDropStatement, bindDropTable, hresolve]
      constructor
      · intro hok
        obtain ⟨root, hroot⟩ := planned_of_succeeds hok
        rw [hplan] at hroot
        split_ifs at hroot with hpassed
        exact .inr hpassed
      · rintro (⟨_, hother, -⟩ | hpassed)
        · cases hother
        · rw [if_pos hpassed] at hplan
          exact (succeeds_iff_of_planned hplan).mpr rfl

/-- A statement that is passed over changes nothing. -/
theorem runDdl_of_skipped (hflag : ifExists = true) (hskipped : SkippedTable session service name) :
    (runDdl rules faults uuid session service (.drop .table ifExists (name :: rest))).2 = service := by
  obtain ⟨error, herror, hpassed⟩ := hskipped
  have hplan : planDdl service session (.drop .table ifExists (name :: rest)) = .ok (.other []) := by
    simp only [planDdl, bindDropStatement, bindDropTable, herror, if_pos (And.intro hflag hpassed)]
  exact runDdl_snd_of_planned hplan

/-- A statement that removes its first table removes no other. -/
theorem store_of_removable (h : service.Named) (hremovable : RemovableTable faults session service name) :
    ∃ path, tablePathOf session name = some path ∧ (service.world.store.getTable path).isSome = true ∧
      (runDdl rules faults uuid session service (.drop .table ifExists (name :: rest))).2.world.store =
        service.world.store.deleteTable path := by
  obtain ⟨entry, hresolve, hdropped⟩ := (removableTable_iff h).mp hremovable
  obtain ⟨hok, hstore⟩ :=
    @dropTable_of_resolved rules faults session service name uuid ifExists rest h entry hresolve
  obtain ⟨hpath, -, hentry⟩ := resolveTable_eq_ok h hresolve
  exact ⟨entry.path, hpath, Option.isSome_iff_exists.mpr ⟨entry, hentry⟩, hstore (hok.mpr hdropped)⟩

end DropTable

section Databases

variable {uuid : Uuid} {ifExists ifNotExists : Bool} {rest : List ObjectName}

theorem opens_of_openCatalog {segment : Segment} {catalog : ManagedPaimonCatalog} {opened : CatalogService}
    (hopen : service.openCatalog segment.value = .ok (catalog, opened)) : service.Opens segment := by
  unfold CatalogService.Opens
  rw [hopen]
  rfl

theorem succeeds_dropDatabase_iff (h : service.Named) :
    Succeeds rules faults uuid session service (.drop .database ifExists (name :: rest)) ↔
      RemovableDatabase faults session service name := by
  constructor
  · intro hok
    obtain ⟨root, hplan⟩ := planned_of_succeeds hok
    have hqualified := hplan
    simp only [planDdl, bindDropStatement, bindDropDatabase, ExceptRun.bind_eq_ok, ExceptRun.pure_eq_ok]
      at hqualified
    obtain ⟨⟨catalogName, databaseName⟩, hparts, rfl⟩ := hqualified
    rw [succeeds_iff_of_planned hplan] at hok
    obtain ⟨catalog, opened, hopen⟩ := opens_of_performCommand hok
    obtain ⟨hname, hworld, -⟩ := h.openCatalog hopen
    obtain ⟨hcommand, -⟩ := @performCommand_of_open rules faults service "DROP DATABASE" _ _ _ hopen
      (.dropDatabase databaseName)
    have hdropped : (catalog.dropDatabase faults service.world databaseName).1.isOk = true := by
      rw [ManagedPaimonCatalog.perform, Prod.map_fst, isOk_map, hworld] at hcommand
      exact hcommand.symm.trans hok
    rcases ManagedPaimonCatalog.dropDatabase_cases Prod.mk.eta.symm with ⟨error, hr, -⟩ |
      ⟨path, paimon, hpath, hfound, hfault, hpaimon, -, -⟩
    · rw [hr] at hdropped
      cases hdropped
    · obtain ⟨hcatalog, rfl⟩ := DatabasePath.new_eq_ok.mp hpath
      obtain rfl : path.catalog.value = catalogName := hcatalog.trans hname
      exact ⟨path, databasePathOf_eq_some.mpr hparts, opens_of_openCatalog hopen, hfound, hfault,
        by rw [hpaimon]; rfl⟩
  · rintro ⟨path, hpath, hopens, hdropped⟩
    have hplan : planDdl service session (.drop .database ifExists (name :: rest)) =
        .ok (.extension (some (.ddl (.dropDatabase path.catalog.value path.database.value)))) := by
      simp only [planDdl, bindDropStatement, bindDropDatabase, databasePathOf_eq_some.mp hpath]
      rfl
    obtain ⟨catalog, opened, hopen, hname, hworld⟩ := hopens.exists_catalog h
    obtain ⟨hcommand, -⟩ := @performCommand_of_open rules faults service "DROP DATABASE" _ _ _ hopen
      (.dropDatabase path.database.value)
    rw [succeeds_iff_of_planned hplan]
    refine hcommand.trans ?_
    rw [ManagedPaimonCatalog.perform, Prod.map_fst, isOk_map, hworld]
    exact (ManagedPaimonCatalog.dropDatabase_outcome hname).mpr hdropped

/-- A new database gets the name as it is printed, in the catalog of the session. -/
theorem succeeds_createDatabase_iff (h : service.Named) :
    Succeeds rules faults uuid session service (.createDatabase ifNotExists name) ↔
      PrintedFree faults session service name := by
  have hplan : planDdl service session (.createDatabase ifNotExists name) =
      .ok (bindCreateDatabaseStatement session name) := rfl
  rw [succeeds_iff_of_planned hplan]
  constructor
  · intro hok
    obtain ⟨catalog, opened, hopen⟩ := opens_of_performCommand hok
    obtain ⟨hname, hworld, -⟩ := h.openCatalog hopen
    obtain ⟨hcommand, -⟩ := @performCommand_of_open rules faults service "CREATE DATABASE" _ _ _ hopen
      (.createDatabase uuid name.toString .empty)
    have hcreated : (catalog.createDatabase faults service.world uuid name.toString .empty).1.isOk = true := by
      rw [ManagedPaimonCatalog.perform, Prod.map_fst, isOk_map, hworld] at hcommand
      exact hcommand.symm.trans hok
    rcases ManagedPaimonCatalog.createDatabase_cases Prod.mk.eta.symm with ⟨error, hr, -⟩ |
      ⟨path, paimon, hpath, hfree, -, -, -⟩
    · rw [hr] at hcreated
      cases hcreated
    · obtain ⟨hcatalog, hdatabase⟩ := DatabasePath.new_eq_ok.mp hpath
      have hsame : path.catalog.value = session.catalogName := hcatalog.trans hname
      rw [← hdatabase, ManagedPaimonCatalog.isOk_createDatabase hcatalog.symm hfree] at hcreated
      rw [← hsame] at hopen
      exact ⟨path, DatabasePath.new_eq_ok.mpr ⟨hsame, hdatabase⟩, opens_of_openCatalog hopen, hfree, hcreated⟩
  · rintro ⟨path, hpath, hopens, hfree, hfault⟩
    obtain ⟨hcatalog, hdatabase⟩ := DatabasePath.new_eq_ok.mp hpath
    obtain ⟨catalog, opened, hopen, hname, hworld⟩ := hopens.exists_catalog h
    obtain ⟨hcommand, -⟩ := @performCommand_of_open rules faults service "CREATE DATABASE" _ _ _ hopen
      (.createDatabase uuid path.database.value .empty)
    rw [ManagedPaimonCatalog.perform, Prod.map_fst, isOk_map, hworld,
      (ManagedPaimonCatalog.isOk_createDatabase hname hfree).mpr hfault, hcatalog, hdatabase] at hcommand
    exact hcommand

theorem not_unchanged_of_createDatabase (h : service.Named)
    (hok : Succeeds rules faults uuid session service (.createDatabase ifNotExists name)) :
    ¬ Unchanged rules faults uuid session service (.createDatabase ifNotExists name) := by
  obtain ⟨path, hpath, hopens, hfree, hfault⟩ := (succeeds_createDatabase_iff h).mp hok
  obtain ⟨hcatalog, hdatabase⟩ := DatabasePath.new_eq_ok.mp hpath
  obtain ⟨catalog, opened, hopen, hname, hworld⟩ := hopens.exists_catalog h
  obtain ⟨-, hafter⟩ := @performCommand_of_open rules faults service "CREATE DATABASE" _ _ _ hopen
    (.createDatabase uuid path.database.value .empty)
  rw [ManagedPaimonCatalog.perform, Prod.map_snd, id_eq, hworld, hcatalog, hdatabase] at hafter
  intro hsame
  have hworlds : (catalog.createDatabase faults service.world uuid name.toString .empty).2 = service.world :=
    hafter.symm.trans hsame
  have hcreated : (catalog.createDatabase faults service.world uuid path.database.value .empty).1.isOk = true :=
    (ManagedPaimonCatalog.isOk_createDatabase hname hfree).mpr hfault
  have htaken := (ManagedPaimonCatalog.free_of_createDatabase hname hcreated).2
  rw [hdatabase, hworlds] at htaken
  exact htaken hfree

end Databases

section CreateTable

variable {uuid : Uuid} {ifNotExists : Bool} {create : CreateTable}

/-- The statement has the name that is asked for. -/
theorem name_of_bindCreateTableStatement {statement : CreateExternalTable}
    (hbind : bindCreateTableStatement service session create = .ok statement) :
    qualifyTableName session create.name = .ok statement.name := by
  unfold bindCreateTableStatement at hbind
  split_ifs at hbind
  simp only [ExceptRun.bind_eq_ok, ExceptRun.pure_eq_ok] at hbind
  obtain ⟨name, hname, _, _, _, _, _, _, _, _, _, _, rfl⟩ := hbind
  exact hname

theorem names_of_createTableRequest {statement : CreateExternalTable} {request : CreateTableRequest}
    (hrequest : createTableRequest statement = .ok request) :
    request.databaseName = statement.name.database ∧ request.tableName = statement.name.table := by
  simp only [createTableRequest, ExceptRun.bind_eq_ok, ExceptRun.pure_eq_ok] at hrequest
  obtain ⟨schema, -, rfl⟩ := hrequest
  exact ⟨rfl, rfl⟩

/-- A table that is there is not created, with or without the flag. -/
theorem not_succeeds_of_present (h : service.Named) (hpresent : PresentTable session service create.name) :
    ¬ Succeeds rules faults uuid session service (.createTable ifNotExists create) := by
  obtain ⟨path, hpath, hfound⟩ := hpresent
  intro hok
  obtain ⟨root, hplan⟩ := planned_of_succeeds hok
  have hbound := hplan
  simp only [planDdl, ExceptRun.map_eq_ok] at hbound
  obtain ⟨statement, hbind, rfl⟩ := hbound
  have hstatement := (name_of_bindCreateTableStatement hbind).symm.trans (tablePathOf_eq_some.mp hpath)
  rw [Except.ok.injEq] at hstatement
  rw [succeeds_iff_of_planned hplan] at hok
  replace hok : (executeCreateTable rules faults uuid service statement).1.isOk = true := hok
  unfold executeCreateTable at hok
  cases hopen : service.openCatalog statement.name.catalog with
  | error error =>
      rw [hopen] at hok
      cases hok
  | ok found =>
      obtain ⟨catalog, opened⟩ := found
      obtain ⟨hname, hworld, -⟩ := h.openCatalog hopen
      rw [hopen] at hok
      cases hrequest : createTableRequest statement with
      | error error =>
          simp only [hrequest] at hok
          cases hok
      | ok request =>
          simp only [hrequest] at hok
          -- The command opens the catalog once more.
          obtain ⟨hcommand, -⟩ := @performCommand_of_open rules faults opened "CREATE TABLE" _ _ _
            (CatalogService.openCatalog_of_registered (h.registered hopen)) (.createTable uuid request)
          rw [hcommand, ManagedPaimonCatalog.perform, Prod.map_fst, isOk_map, hworld] at hok
          obtain ⟨hdatabase, htable⟩ := names_of_createTableRequest hrequest
          rw [hstatement] at hname hdatabase htable
          exact ManagedPaimonCatalog.not_createTable hname hdatabase htable hfound hok

/-- A table that is not there is created, if all that is needed is. -/
theorem succeeds_of_creatable (h : service.Named) (habsent : ¬ PresentTable session service create.name)
    (hcreatable : CreatableTable faults session service rules uuid create) :
    Succeeds rules faults uuid session service (.createTable ifNotExists create) := by
  obtain ⟨hfaultRequest, hfaultWrite, statement, catalog, opened, request, database, path, schema, paimon, entry,
    hbind, hopen, hrequest, hkind, hdatabase, hpath, hschema, hcreated, hreload⟩ := hcreatable
  have hplan : planDdl service session (.createTable ifNotExists create) =
      .ok (.ddl (.createExternalTable statement)) := by
    rw [planDdl, hbind]
    rfl
  obtain ⟨hname, hworld, -⟩ := h.openCatalog hopen
  obtain ⟨hdatabaseName, htableName⟩ := names_of_createTableRequest hrequest
  have hfree : service.world.store.getTable path = none := by
    by_contra hsome
    obtain ⟨hcatalog, hdatabase, htable⟩ := TablePath.new_eq_ok.mp hpath
    refine habsent ⟨path, tablePathOf_eq_some.mpr ?_, Option.ne_none_iff_isSome.mp hsome⟩
    rw [name_of_bindCreateTableStatement hbind, hcatalog, hdatabase, htable, hdatabaseName, htableName, hname]
  obtain ⟨hcommand, -⟩ := @performCommand_of_open rules faults opened "CREATE TABLE" _ _ _
    (CatalogService.openCatalog_of_registered (h.registered hopen)) (.createTable uuid request)
  rw [succeeds_iff_of_planned hplan]
  show (executeCreateTable rules faults uuid service statement).1.isOk = true
  unfold executeCreateTable
  simp only [hopen, hrequest]
  rw [hcommand, ManagedPaimonCatalog.perform, Prod.map_fst, isOk_map, hworld]
  exact ManagedPaimonCatalog.isOk_createTable hfaultRequest hfaultWrite hkind hdatabase hpath hfree hschema
    hcreated hreload

end CreateTable

end

end BrewDB.Catalog

import BrewDB.Execution.Statements

/-!
# One name, one database

Reference: `bind_create_database_statement`, `bind_drop_statement`, `bind_show_databases_statement` and
`bind_show_tables_statement` of `brewdb-planner/src/logical/ddl.rs`, `bind_use_statement` of `session.rs`, and
`qualify_database_name` and `qualify_table_name` of `planner.rs`.

`CREATE DATABASE` prints its name, with quotes and dots, where all others take it apart. This says which names
still mean the same database.
-/

namespace BrewDB.Catalog

/-! ## Names -/

/-- The name of a database, of one or two parts. -/
def databaseName (catalog : Option Ident) (database : Ident) : ObjectName :=
  ⟨(catalog.toList ++ [database]).map .identifier⟩

/-- The name of a table in it. -/
def tableOf (name : ObjectName) (table : Ident) : ObjectName := ⟨name.parts ++ [.identifier table]⟩

/-- The catalog that the name means. -/
def meantCatalog (session : PlanningSession) (catalog : Option Ident) : String :=
  (catalog.map Ident.value).getD session.catalogName

theorem qualifyDatabaseName_databaseName (session : PlanningSession) (catalog : Option Ident) (database : Ident) :
    qualifyDatabaseName session (databaseName catalog database) =
      .ok (meantCatalog session catalog, database.value) := by
  cases catalog <;> rfl

theorem qualifyTableName_tableOf (session : PlanningSession) (catalog : Option Ident) (database table : Ident) :
    qualifyTableName session (tableOf (databaseName catalog database) table) =
      .ok ⟨meantCatalog session catalog, database.value, table.value⟩ := by
  cases catalog <;> rfl

theorem showTablesTarget_databaseName (session : PlanningSession) (catalog : Option Ident) (database : Ident) :
    showTablesTarget session (databaseName catalog database) =
      .ok (meantCatalog session catalog, database.value) := by
  cases catalog <;> rfl

theorem toString_databaseName_none (database : Ident) : (databaseName none database).toString = database.toString :=
  rfl

theorem toString_databaseName_some (catalog database : Ident) :
    (databaseName (some catalog) database).toString = catalog.toString ++ "." ++ database.toString := by
  show ".".intercalate [catalog.toString, database.toString] = _
  rw [String.intercalate_cons_cons, String.intercalate_singleton]

/-! ## The law -/

/-- What `SHOW DATABASES` lists in a catalog. -/
def Shows (session : PlanningSession) (service : CatalogService) (rules : PaimonRules)
    (catalogName databaseName : String) : Prop :=
  ∃ handle, (runDdl rules .none 0 session service
      (.showDatabases (some ⟨[.identifier ⟨catalogName, none⟩]⟩))).1 = .ok handle ∧
    ∃ batch ∈ handle.output, [.string databaseName] ∈ batch.rows

/-- A statement that creates the database has succeeded, and all others mean that database by its name. -/
structure MeansDatabase (rules : PaimonRules) (session : PlanningSession) (after : CatalogService)
    (name : ObjectName) (catalogName databaseName : String) : Prop where
  shown : Shows session after rules catalogName databaseName
  created : ∀ create table statement, create.name = tableOf name table →
    bindCreateTableStatement after session create = .ok statement →
    statement.name = ⟨catalogName, databaseName, table.value⟩
  selected : ∀ table entry, after.resolveTable session (tableOf name table) = .ok entry →
    entry.reference = ⟨catalogName, databaseName, table.value⟩
  listed : planDdl after session (.showTables (some name)) =
    .ok (.extension (some (.show (.tables catalogName databaseName))))
  used : planDdl after session (.use name) = .ok (.statement ⟨"database", catalogName ++ "." ++ databaseName⟩)
  dropped : ∃ path, DatabasePath.new catalogName databaseName = .ok path ∧ ∀ uuid,
    Succeeds rules .none uuid session after (.drop .database false [name]) ∧
    (runDdl rules .none uuid session after (.drop .database false [name])).2.world.store.getDatabase path = none

section

variable (rules : PaimonRules) (faults : Faults) (uuid : Uuid) (session : PlanningSession)
  (service : CatalogService)

/-- The database that the name means is in a catalog that is there, and nothing stands in the way of it. -/
def FreeDatabase (name : ObjectName) : Prop :=
  ∃ path, databasePathOf session name = some path ∧ service.Opens path.catalog ∧
    service.world.store.getDatabase path = none ∧ faults.write = none

/-- `CREATE DATABASE` creates the database that its name means. -/
structure CreatesMeant (ifNotExists : Bool) (catalog : Option Ident) (database : Ident) : Prop where
  same : Succeeds rules faults uuid session service
      (.createDatabase ifNotExists (databaseName catalog database)) →
    MeansDatabase rules session
      (runDdl rules faults uuid session service
        (.createDatabase ifNotExists (databaseName catalog database))).2
      (databaseName catalog database) (meantCatalog session catalog) database.value
  qualified : catalog.isSome = true → FreeDatabase faults session service (databaseName catalog database) →
    Succeeds rules faults uuid session service
        (.createDatabase ifNotExists (databaseName catalog database)) ∧
      ∃ path, databasePathOf session (databaseName catalog database) = some path ∧
        ((runDdl rules faults uuid session service
          (.createDatabase ifNotExists (databaseName catalog database))).2.world.store.getDatabase path).isSome =
            true

end

/-- The warehouse has no table in a database. -/
def PaimonState.NoTables (state : PaimonState) (database : String) : Prop :=
  ∀ tables, state.databases.get? database = some tables → tables.len = 0

/-- Where it does. A qualified name must have no use; a name of one part that is printed as another must mean a
database that is there. -/
def CreatesMeantWhen (faults : Faults) (session : PlanningSession) (service : CatalogService) :
    Option Ident → Ident → Prop
  | some catalog, database => ¬ FreeDatabase faults session service (databaseName (some catalog) database)
  | none, database => PrintedFree faults session service (databaseName none database) →
      database.toString = database.value ∧ service.world.paimon.NoTables database.value ∨
      database.toString ≠ database.value ∧ PresentDatabase session service (databaseName none database) ∧
        (service.world.paimon.dropDatabase database.value).isOk = true

/-! ## Databases of the warehouse -/

namespace PaimonState

variable {state : PaimonState}

theorem isOk_dropDatabase {database : String} :
    (state.dropDatabase database).isOk = true ↔
      ∃ tables, state.databases.get? database = some tables ∧ tables.len = 0 := by
  unfold dropDatabase
  cases state.databases.get? database with
  | none => simp [Except.isOk, Except.toBool]
  | some tables => by_cases hempty : tables.len = 0 <;> simp [hempty, Except.isOk, Except.toBool]

/-- What was there is there after a database was created or taken over. -/
theorem get?_of_written {w : World} {path : DatabasePath} {paimon : PaimonState}
    (h : ManagedPaimonCatalog.DatabaseWritten w path paimon) (database : String) :
    paimon.databases.get? database =
      if database = path.database.value then some ((w.paimon.databases.get? database).getD .empty)
      else w.paimon.databases.get? database := by
  rcases h with hcreated | ⟨hthere, rfl⟩
  · unfold createDatabase at hcreated
    cases hnone : w.paimon.databases.get? path.database.value with
    | some tables =>
        rw [hnone] at hcreated
        cases hcreated
    | none =>
        rw [hnone] at hcreated
        cases hcreated
        rw [setTables, BTreeMap.get?_insert]
        split_ifs with hsame
        · rw [hsame, hnone]
          rfl
        · rfl
  · split_ifs with hsame
    · obtain ⟨tables, htables⟩ := Option.isSome_iff_exists.mp hthere
      rw [hsame, htables]
      rfl
    · rfl

end PaimonState

/-! ## The state after a database was created -/

section

variable {rules : PaimonRules} {faults : Faults} {uuid : Uuid} {session : PlanningSession}
  {service : CatalogService} {ifNotExists : Bool} {name : ObjectName}

/-- The store gets the database as it is printed, the warehouse too if it has none, and its catalog stays open. -/
theorem runDdl_createDatabase (h : service.Named) {path : DatabasePath}
    (hpath : DatabasePath.new session.catalogName name.toString = .ok path) (hopens : service.Opens path.catalog)
    (hnone : service.world.store.getDatabase path = none) (hfault : faults.write = none) :
    (runDdl rules faults uuid session service (.createDatabase ifNotExists name)).2.Named ∧
      (runDdl rules faults uuid session service (.createDatabase ifNotExists name)).2.Opens path.catalog ∧
      ∃ paimon entry, entry.path = path ∧ ManagedPaimonCatalog.DatabaseWritten service.world path paimon ∧
        (runDdl rules faults uuid session service (.createDatabase ifNotExists name)).2.world =
          ⟨service.world.store.createDatabase entry, paimon⟩ := by
  obtain ⟨hcatalog, hdatabase⟩ := DatabasePath.new_eq_ok.mp hpath
  obtain ⟨catalog, opened, hopen, hname, hworld⟩ := hopens.exists_catalog h
  have hrun : (runDdl rules faults uuid session service (.createDatabase ifNotExists name)).2 =
      (service.perform rules path.catalog.value (.createDatabase uuid path.database.value .empty) faults).2 := by
    rw [hcatalog, hdatabase]
    rfl
  have hperform : (service.perform rules path.catalog.value
      (.createDatabase uuid path.database.value .empty) faults).2 = { opened with world :=
        (catalog.createDatabase faults service.world uuid path.database.value .empty).2 } := by
    unfold CatalogService.perform
    rw [hopen]
    simp only [ManagedPaimonCatalog.perform, Prod.map_snd, id_eq, hworld]
  rw [hrun]
  refine ⟨h.perform _ _ _, ?_, ?_⟩
  · rw [hperform]
    have hregistered := h.registered hopen
    exact opens_of_openCatalog (CatalogService.openCatalog_of_registered hregistered)
  · rw [hperform]
    have hok : (catalog.createDatabase faults service.world uuid path.database.value .empty).1.isOk = true :=
      (ManagedPaimonCatalog.isOk_createDatabase hname hnone).mpr hfault
    rcases ManagedPaimonCatalog.createDatabase_cases Prod.mk.eta.symm with ⟨error, hr, -⟩ |
      ⟨path', paimon, hpath', -, hwritten, -, hafter⟩
    · rw [hr] at hok
      cases hok
    · rw [ManagedPaimonCatalog.requireDatabasePath_value hname] at hpath'
      cases hpath'
      exact ⟨paimon, _, rfl, hwritten, hafter⟩

end

section

variable {rules : PaimonRules} {faults : Faults} {session : PlanningSession} {service : CatalogService}
  {name : ObjectName}

/-- A database that is there is shown in its catalog. -/
theorem shows_iff (h : service.Named) (catalog : Segment) (databaseName : String) :
    Shows session service rules catalog.value databaseName ↔
      ∃ path : DatabasePath, path.catalog = catalog ∧ path.database.value = databaseName ∧
        (service.world.store.getDatabase path).isSome = true := by
  have hrun : (runDdl rules .none 0 session service
      (.showDatabases (some ⟨[.identifier ⟨catalog.value, none⟩]⟩))).1 =
      .ok (buildShowHandle "SHOW DATABASES" "database_name"
        ((service.world.store.listDatabases ⟨catalog⟩).map fun entry => entry.path.database.value)) := by
    show ((((CatalogPath.new catalog.value).map service.world.store.listDatabases).mapError mapCatalogError).map
      fun databases => buildShowHandle "SHOW DATABASES" "database_name"
        (databases.map fun entry => entry.path.database.value)).mapError StatementError.execution = _
    rw [CatalogPath.new_value]
    rfl
  unfold Shows
  rw [hrun]
  simp only [Except.ok.injEq, exists_eq_left', buildShowHandle, List.mem_singleton, exists_eq_left, List.map_map,
    List.mem_map, Function.comp_apply, List.cons.injEq, Value.string.injEq, and_true]
  constructor
  · rintro ⟨entry, hentry, hname⟩
    obtain ⟨hfound, hcatalog⟩ := h.databases.mem_listDatabases.mp hentry
    exact ⟨entry.path, hcatalog, hname, Option.isSome_iff_exists.mpr ⟨entry, hfound⟩⟩
  · rintro ⟨path, hcatalog, hname, hfound⟩
    obtain ⟨entry, hentry⟩ := Option.isSome_iff_exists.mp hfound
    obtain rfl := h.databases.path_of_getDatabase hentry
    exact ⟨entry, h.databases.mem_listDatabases.mpr ⟨hentry, hcatalog⟩, hname⟩

/-- What is dropped is gone. -/
theorem gone_of_dropDatabase (h : service.Named) {uuid : Uuid} {ifExists : Bool} {path : DatabasePath}
    (hpath : databasePathOf session name = some path)
    (hok : Succeeds rules faults uuid session service (.drop .database ifExists [name])) :
    (runDdl rules faults uuid session service (.drop .database ifExists [name])).2.world.store.getDatabase path =
      none := by
  obtain ⟨path', hpath', hopens, -, -, -⟩ := (succeeds_dropDatabase_iff h).mp hok
  obtain rfl : path = path' := Option.some.inj (hpath.symm.trans hpath')
  have hplan : planDdl service session (.drop .database ifExists [name]) =
      .ok (.extension (some (.ddl (.dropDatabase path.catalog.value path.database.value)))) := by
    simp only [planDdl, bindDropStatement, bindDropDatabase, databasePathOf_eq_some.mp hpath]
    rfl
  obtain ⟨catalog, opened, hopen, hname, hworld⟩ := hopens.exists_catalog h
  obtain ⟨hcommand, hafter⟩ := @performCommand_of_open rules faults service "DROP DATABASE" _ _ _ hopen
    (.dropDatabase path.database.value)
  rw [ManagedPaimonCatalog.perform, Prod.map_fst, isOk_map, hworld] at hcommand
  rw [ManagedPaimonCatalog.perform, Prod.map_snd, id_eq, hworld] at hafter
  rw [succeeds_iff_of_planned hplan] at hok
  have hdropped := hcommand.symm.trans hok
  rw [runDdl_snd_of_planned hplan]
  refine (congrArg (fun world : World => world.store.getDatabase path) hafter).trans ?_
  rcases ManagedPaimonCatalog.dropDatabase_cases Prod.mk.eta.symm with ⟨error, hr, -⟩ |
    ⟨path', paimon, hfound, -, -, -, -, hstore⟩
  · rw [hr] at hdropped
    cases hdropped
  · rw [ManagedPaimonCatalog.requireDatabasePath_value hname] at hfound
    cases hfound
    show MemoryCatalogStore.getDatabase _ path = none
    rw [hstore]
    exact (MemoryCatalogStore.getDatabase_deleteDatabase _ _).trans (if_pos rfl)

end

/-! ## Where the names agree -/

section

variable {rules : PaimonRules} {faults : Faults} {uuid : Uuid} {session : PlanningSession}
  {service : CatalogService} {ifNotExists : Bool} {catalog database : Ident}

/-- For a name of one part, it is enough that the database can be dropped by it. -/
theorem meansDatabase_iff {after : CatalogService} (h : after.Named) :
    MeansDatabase rules session after (databaseName none database) (meantCatalog session none) database.value ↔
      RemovableDatabase .none session after (databaseName none database) := by
  constructor
  · intro hmeans
    obtain ⟨path, -, hdropped⟩ := hmeans.dropped
    exact (succeeds_dropDatabase_iff h).mp (hdropped 0).1
  · intro hremovable
    obtain ⟨path, hpath, -, hfound, -, -⟩ := id hremovable
    have hmeant := databasePathOf_eq_some.mp hpath
    rw [qualifyDatabaseName_databaseName, Except.ok.injEq, Prod.mk.injEq] at hmeant
    obtain ⟨hcatalog, hdatabase⟩ := hmeant
    have hnew : DatabasePath.new (meantCatalog session none) database.value = .ok path :=
      DatabasePath.new_eq_ok.mpr ⟨hcatalog.symm, hdatabase.symm⟩
    have hdropped : ∀ uuid, Succeeds rules .none uuid session after
        (.drop .database false [databaseName none database]) :=
      fun uuid => (succeeds_dropDatabase_iff h).mpr hremovable
    constructor
    · rw [hcatalog]
      exact (shows_iff h path.catalog database.value).mpr ⟨path, rfl, hdatabase.symm, hfound⟩
    · intro create table statement hname hbind
      have hbound := name_of_bindCreateTableStatement hbind
      rw [hname, qualifyTableName_tableOf] at hbound
      exact (Except.ok.inj hbound).symm
    · intro table entry hresolve
      have hresolved := tablePathOf_eq_some.mp (resolveTable_eq_ok h hresolve).1
      rw [qualifyTableName_tableOf] at hresolved
      exact (Except.ok.inj hresolved).symm
    · simp only [planDdl, bindShowTablesStatement, showTablesTarget_databaseName]
      rfl
    · simp only [planDdl, bindUseStatement, qualifyDatabaseName_databaseName]
      rfl
    · exact ⟨path, hnew, fun uuid => ⟨hdropped uuid, gone_of_dropDatabase h hpath (hdropped uuid)⟩⟩

/-- What was created can be dropped by its name. -/
theorem removable_after_iff (h : service.Named)
    (hfree : PrintedFree faults session service (databaseName none database)) :
    RemovableDatabase .none session
        (runDdl rules faults uuid session service
          (.createDatabase ifNotExists (databaseName none database))).2 (databaseName none database) ↔
      database.toString = database.value ∧ service.world.paimon.NoTables database.value ∨
      database.toString ≠ database.value ∧ PresentDatabase session service (databaseName none database) ∧
        (service.world.paimon.dropDatabase database.value).isOk = true := by
  obtain ⟨printed, hprinted, hopens, hnone, hfault⟩ := hfree
  obtain ⟨-, hopen, paimon, entry, hentry, hwritten, hworld⟩ :=
    @runDdl_createDatabase rules faults uuid session service ifNotExists _ h printed hprinted hopens hnone hfault
  obtain ⟨hcatalog, hdatabase⟩ := DatabasePath.new_eq_ok.mp hprinted
  rw [toString_databaseName_none] at hdatabase
  unfold RemovableDatabase
  rw [hworld]
  constructor
  · rintro ⟨path, hpath, -, hfound, -, hdropped⟩
    have hmeant := databasePathOf_eq_some.mp hpath
    rw [qualifyDatabaseName_databaseName, Except.ok.injEq, Prod.mk.injEq] at hmeant
    obtain ⟨tables, htables, hempty⟩ := PaimonState.isOk_dropDatabase.mp hdropped
    rw [PaimonState.get?_of_written hwritten, ← hmeant.2, hdatabase] at htables
    -- In the warehouse only the database of the printed name has changed.
    by_cases hsame : database.toString = database.value
    · refine .inl ⟨hsame, fun tables' htables' => ?_⟩
      rw [if_pos hsame.symm, htables', Option.getD_some, Option.some.injEq] at htables
      rw [htables]
      exact hempty
    · rw [if_neg (Ne.symm hsame)] at htables
      refine .inr ⟨hsame, ⟨path, hpath, ?_⟩, PaimonState.isOk_dropDatabase.mpr ⟨tables, htables, hempty⟩⟩
      rw [MemoryCatalogStore.getDatabase_createDatabase, if_neg] at hfound
      · exact hfound
      · intro heq
        rw [← hdatabase, ← hentry, ← heq] at hsame
        exact hsame hmeant.2.symm
  · rintro (⟨hsame, hempty⟩ | ⟨hdiffers, ⟨path, hpath, hfound⟩, hdropped⟩)
    -- The name means the database that was created, or one that was there before.
    · refine ⟨printed, databasePathOf_eq_some.mpr ?_, hopen, ?_, rfl, ?_⟩
      · rw [qualifyDatabaseName_databaseName, hcatalog, hdatabase, hsame]
        rfl
      · rw [MemoryCatalogStore.getDatabase_createDatabase, if_pos hentry.symm]
        rfl
      · refine PaimonState.isOk_dropDatabase.mpr
          ⟨_, (PaimonState.get?_of_written hwritten _).trans (if_pos rfl), ?_⟩
        cases hthere : service.world.paimon.databases.get? printed.database.value with
        | none => rfl
        | some tables =>
            rw [hdatabase, hsame] at hthere
            exact hempty tables hthere
    · have hmeant := databasePathOf_eq_some.mp hpath
      rw [qualifyDatabaseName_databaseName, Except.ok.injEq, Prod.mk.injEq] at hmeant
      have hcatalogs : path.catalog = printed.catalog :=
        Segment.ext (hmeant.1.symm.trans hcatalog.symm)
      refine ⟨path, hpath, ?_, ?_, rfl, ?_⟩
      · rw [hcatalogs]
        exact hopen
      · rw [MemoryCatalogStore.getDatabase_createDatabase]
        split_ifs
        · rfl
        · exact hfound
      · obtain ⟨tables, htables, hempty⟩ := PaimonState.isOk_dropDatabase.mp hdropped
        refine PaimonState.isOk_dropDatabase.mpr ⟨tables, ?_, hempty⟩
        rw [PaimonState.get?_of_written hwritten, ← hmeant.2, hdatabase, if_neg (Ne.symm hdiffers)]
        exact htables

theorem createsMeant_none_iff (h : service.Named) :
    CreatesMeant rules faults uuid session service ifNotExists none database ↔
      CreatesMeantWhen faults session service none database := by
  have hafter : ∀ hfree : PrintedFree faults session service (databaseName none database),
      (runDdl rules faults uuid session service
        (.createDatabase ifNotExists (databaseName none database))).2.Named := by
    rintro ⟨path, hpath, hopens, hnone, hfault⟩
    exact (runDdl_createDatabase h hpath hopens hnone hfault).1
  constructor
  · intro hcreates hfree
    have hmeans := hcreates.same ((succeeds_createDatabase_iff h).mpr hfree)
    exact (removable_after_iff h hfree).mp ((meansDatabase_iff (hafter hfree)).mp hmeans)
  · intro hwhen
    refine ⟨fun hok => ?_, fun hsome => by cases hsome⟩
    have hfree := (succeeds_createDatabase_iff h).mp hok
    exact (meansDatabase_iff (hafter hfree)).mpr ((removable_after_iff h hfree).mpr (hwhen hfree))

/-- A name of two parts is printed with a dot, which no database has. -/
theorem not_succeeds_of_qualified (h : service.Named) :
    ¬ Succeeds rules faults uuid session service
      (.createDatabase ifNotExists (databaseName (some catalog) database)) := by
  intro hok
  obtain ⟨path, hpath, -⟩ := (succeeds_createDatabase_iff h).mp hok
  have hdot := path.database.noDot
  rw [(DatabasePath.new_eq_ok.mp hpath).2, toString_databaseName_some] at hdot
  simp [String.toList_append] at hdot

theorem createsMeant_some_iff (h : service.Named) :
    CreatesMeant rules faults uuid session service ifNotExists (some catalog) database ↔
      CreatesMeantWhen faults session service (some catalog) database := by
  constructor
  · exact fun hcreates hfree => not_succeeds_of_qualified h (hcreates.qualified rfl hfree).1
  · exact fun hnot => ⟨fun hok => absurd hok (not_succeeds_of_qualified h), fun _ hfree => absurd hfree hnot⟩

end

/-- In every reached state, `CREATE DATABASE` creates what its name means just in these cases. -/
theorem createsMeant_iff {rules : PaimonRules} {service : CatalogService} (hreached : service.Reached rules)
    (faults : Faults) (uuid : Uuid) (session : PlanningSession) (ifNotExists : Bool) (catalog : Option Ident)
    (database : Ident) :
    CreatesMeant rules faults uuid session service ifNotExists catalog database ↔
      CreatesMeantWhen faults session service catalog database := by
  cases catalog with
  | none => exact createsMeant_none_iff hreached.named
  | some catalog => exact createsMeant_some_iff hreached.named

namespace CatalogService

/-- A catalog without databases. -/
def prodOnly : CatalogService := (fresh ⟨.empty⟩).afterCall .plain (.createCatalog (catalogEntry 0 prod))

theorem reached_prodOnly : prodOnly.Reached .plain :=
  ⟨⟨.empty⟩, [.createCatalog (catalogEntry 0 prod)], rfl⟩

end CatalogService

/-- A plain name. -/
theorem createsMeant_iff_plain :
    CreatesMeant .plain .none 1 ⟨"prod", "default"⟩ CatalogService.prodOnly false none ⟨"sales", none⟩ := by
  refine (createsMeant_iff CatalogService.reached_prodOnly .none 1 ⟨"prod", "default"⟩ false none
    ⟨"sales", none⟩).mpr fun _ => .inl ⟨rfl, fun tables htables => ?_⟩
  cases htables

/-- `CREATE DATABASE "sales"` creates a database that `DROP DATABASE "sales"` does not find. -/
theorem not_createsMeant_quoted :
    CatalogService.prodOnly.Reached .plain ∧
      ¬ CreatesMeant .plain .none 1 ⟨"prod", "default"⟩ CatalogService.prodOnly false none
        ⟨"sales", some '"'⟩ := by
  refine ⟨CatalogService.reached_prodOnly, fun h => ?_⟩
  have hok : (runDdl .plain .none 1 ⟨"prod", "default"⟩ CatalogService.prodOnly
      (.createDatabase false (databaseName none ⟨"sales", some '"'⟩))).1.isOk = true := by decide +kernel
  obtain ⟨path, -, hdropped⟩ := (h.same hok).dropped
  have hmissed : (runDdl .plain .none 2 ⟨"prod", "default"⟩
      (runDdl .plain .none 1 ⟨"prod", "default"⟩ CatalogService.prodOnly
        (.createDatabase false (databaseName none ⟨"sales", some '"'⟩))).2
      (.drop .database false [databaseName none ⟨"sales", some '"'⟩])).1.isOk = false := by decide +kernel
  have hfound := (hdropped 2).1
  rw [Succeeds, hmissed] at hfound
  cases hfound

end BrewDB.Catalog

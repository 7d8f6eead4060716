import BrewDB.Catalog.Service

/-!
# Bootstrapping the catalog

Reference: `with_config_and_default_managed_paimon_catalog` of `brewdb-catalog/src/service.rs`.

A server makes sure that its default catalog and the default database in it exist. It takes over what it finds, in the
store and in the warehouse, and doing it again changes nothing.
-/

namespace BrewDB.Catalog

/-- `DEFAULT_DATABASE_NAME`. -/
def defaultDatabaseName : String := "brewdb"

/-- The path segment of that name. -/
def defaultDatabase : Segment := ⟨defaultDatabaseName, by decide, by decide⟩

namespace CatalogService

variable (service : CatalogService) (faults : Faults)

/-- `ensure_managed_paimon_catalog`, with the id of a new catalog. -/
def ensureManagedPaimonCatalog (uuid : Uuid) (catalogName : String) : Except CatalogError Unit × CatalogService :=
  match CatalogPath.new catalogName with
  | .error error => (.error error, service)
  | .ok path =>
      match service.world.store.getCatalog path with
      | none =>
          match service.createCatalog ⟨uuid, path, .managed, .paimon⟩ with
          | (.error error, created) => (.error error, created)
          | (.ok (), created) => (.ok (), created.register ⟨⟨uuid, path, .managed, .paimon⟩⟩)
      | some entry =>
          if entry.mode = .managed ∧ entry.storageKind = .paimon then (.ok (), service.register ⟨entry⟩)
          else (.error (.catalogNotRegistered catalogName), service)

/-- `ensure_default_managed_paimon_database`, with the id of a new database. -/
def ensureDefaultManagedPaimonDatabase (uuid : Uuid) (catalogName : String) :
    Except CatalogError Unit × CatalogService :=
  match service.openCatalog catalogName with
  | .error error => (.error error, service)
  | .ok (catalog, opened) =>
      match catalog.requireDatabase opened.world defaultDatabaseName with
      | .ok _ => (.ok (), opened)
      | .error (.databaseNotFound _ _) =>
          ((catalog.createDatabase faults opened.world uuid defaultDatabaseName .empty).1.map fun _ => (),
            { opened with world := (catalog.createDatabase faults opened.world uuid defaultDatabaseName .empty).2 })
      | .error error => (.error error, opened)

/-- `with_config_and_default_managed_paimon_catalog`, of a service that may have been used before. -/
def bootstrap (catalogId databaseId : Uuid) (catalogName : String) : Except CatalogError Unit × CatalogService :=
  match service.ensureManagedPaimonCatalog catalogId catalogName with
  | (.error error, ensured) => (.error error, ensured)
  | (.ok (), ensured) => ensured.ensureDefaultManagedPaimonDatabase faults databaseId catalogName

end CatalogService

/-! ## Creating a database that the store does not have -/

namespace ManagedPaimonCatalog

variable {self : ManagedPaimonCatalog} {faults : Faults} {w : World} {uuid : Uuid} {databaseName : String}
  {options : Options} {path : DatabasePath}

/-- It fails only if the write fails. -/
theorem createDatabase_of_free (hpath : self.requireDatabasePath databaseName = .ok path)
    (hfree : w.store.getDatabase path = none) :
    (∀ message, faults.write = some message → ∃ error,
      self.createDatabase faults w uuid databaseName options = (.error error, w)) ∧
    (faults.write = none → ∃ paimon, DatabaseWritten w path paimon ∧
      self.createDatabase faults w uuid databaseName options = (.ok ⟨uuid, self.entry.catalogId, path, options⟩,
        ⟨w.store.createDatabase ⟨uuid, self.entry.catalogId, path, options⟩, paimon⟩)) := by
  have hchecks : (do
      let path ← self.requireDatabasePath databaseName
      if (w.store.getDatabase path).isSome then .error (.duplicateDatabase self.name databaseName)
      else return path : Except CatalogError DatabasePath) = .ok path := by
    rw [hpath]
    exact if_neg (by rw [hfree]; exact Bool.false_ne_true)
  constructor
  · intro message hfault
    refine ⟨.catalogBackend "paimon" message, ?_⟩
    simp only [createDatabase, World.operate.eq_def, hchecks, hfault]
    rfl
  · intro hfault
    cases hcreate : w.paimon.createDatabase path.database.value with
    | ok paimon =>
        refine ⟨paimon, .inl hcreate, ?_⟩
        simp only [createDatabase, World.operate.eq_def, hchecks, hfault, hcreate, paimonCall, orFault, Option.map_none]
    | error error =>
        have herror : error = .databaseAlreadyExist path.database.value := by
          rw [PaimonState.createDatabase] at hcreate
          split at hcreate
          · exact (Except.error.inj hcreate).symm
          · cases hcreate
        refine ⟨w.paimon, .inr ⟨PaimonState.createDatabase_eq_error hcreate, rfl⟩, ?_⟩
        simp only [createDatabase, World.operate.eq_def, hchecks, hfault, hcreate, herror, paimonCall, orFault,
          Option.map_none, mapPaimonWriteError, if_true]

/-- Nothing but the database itself changes in the warehouse. -/
theorem DatabaseWritten.frame {path : DatabasePath} {paimon : PaimonState} (h : DatabaseWritten w path paimon) :
    (∀ database, database ≠ path.database.value ∨ w.paimon.hasDatabase database = true →
      paimon.hasDatabase database = w.paimon.hasDatabase database) ∧
    ∀ database table, paimon.table database table = w.paimon.table database table := by
  rcases h with hcreated | ⟨-, rfl⟩
  · obtain ⟨hfree, hhas, htable⟩ := PaimonState.createDatabase_eq_ok hcreated
    refine ⟨fun database hother => ?_, htable⟩
    rw [hhas, decide_eq_false, Bool.false_or]
    rintro rfl
    exact hother.elim (fun hne => hne rfl) fun htrue => by cases hfree.symm.trans htrue
  · exact ⟨fun _ _ => rfl, fun _ _ => rfl⟩

end ManagedPaimonCatalog

/-! ## What is there afterwards -/

/-- The catalog may be used as a managed Paimon catalog. -/
def CatalogEntry.IsManagedPaimon (entry : CatalogEntry) : Prop := entry.mode = .managed ∧ entry.storageKind = .paimon

instance (entry : CatalogEntry) : Decidable entry.IsManagedPaimon := inferInstanceAs (Decidable (_ ∧ _))

/-- The catalog and its default database are there, and nothing else has changed. -/
structure Bootstrapped (path : CatalogPath) (before after : World) : Prop where
  catalog : ∃ entry, after.store.getCatalog path = some entry ∧ entry.IsManagedPaimon
  database : ∃ entry, after.store.getDatabase ⟨path.catalog, defaultDatabase⟩ = some entry
  otherCatalogs : ∀ other, other ≠ path ∨ (before.store.getCatalog other).isSome →
    after.store.getCatalog other = before.store.getCatalog other
  otherDatabases : ∀ other, other ≠ ⟨path.catalog, defaultDatabase⟩ ∨ (before.store.getDatabase other).isSome →
    after.store.getDatabase other = before.store.getDatabase other
  tables : ∀ other, after.store.getTable other = before.store.getTable other
  warehouse : ∀ database, database ≠ defaultDatabaseName ∨ before.paimon.hasDatabase database = true →
    after.paimon.hasDatabase database = before.paimon.hasDatabase database
  warehouseTables : ∀ database table, after.paimon.table database table = before.paimon.table database table

namespace CatalogService

variable {service : CatalogService} {faults : Faults} {catalogId databaseId : Uuid} {catalogName : String}

theorem catalogPath_eq_ok {path : CatalogPath} (h : CatalogPath.new catalogName = .ok path) :
    path.catalog.value = catalogName := by
  simp only [CatalogPath.new, ExceptRun.bind_eq_ok, ExceptRun.pure_eq_ok] at h
  obtain ⟨segment, hsegment, rfl⟩ := h
  exact value_of_normalizeSegment hsegment

/-- Registering a catalog of the store. -/
theorem Valid.register (hvalid : service.Valid) {catalog : ManagedPaimonCatalog}
    (hregistered : catalog.Registered service.world.store) : (service.register catalog).Valid where
  store := hvalid.store
  registry name other hother := by
    rw [CatalogService.register, BTreeMap.get?_insert] at hother
    split_ifs at hother with hname
    · cases hother
      exact ⟨hname.symm, hregistered⟩
    · exact hvalid.registry name other hother

/-- With the catalog ensured, it is in the store, and it is the one that is opened. -/
theorem ensureManagedPaimonCatalog_cases (catalogName : String) (hvalid : service.Valid)
    (hnew : service.world.store.catalogs.byId.get? catalogId = none) :
    (∃ error, service.ensureManagedPaimonCatalog catalogId catalogName = (.error error, service) ∧
      ∀ path, CatalogPath.new catalogName = .ok path →
        ∃ entry, service.world.store.getCatalog path = some entry ∧ ¬ entry.IsManagedPaimon) ∨
    ∃ path entry ensured, CatalogPath.new catalogName = .ok path ∧ entry.path = path ∧ entry.IsManagedPaimon ∧
      service.ensureManagedPaimonCatalog catalogId catalogName = (.ok (), ensured) ∧ ensured.Valid ∧
      ensured.openCatalog catalogName = .ok (⟨entry⟩, ensured) ∧
      ((service.world.store.getCatalog path = some entry ∧ ensured.world = service.world) ∨
        service.world.store.getCatalog path = none ∧
          ensured.world = ⟨service.world.store.createCatalog entry, service.world.paimon⟩) := by
  cases hpath : CatalogPath.new catalogName with
  | error error => exact .inl ⟨error, by rw [ensureManagedPaimonCatalog, hpath], nofun⟩
  | ok path =>
      have hname : path.catalog.value = catalogName := catalogPath_eq_ok hpath
      have hopen : ∀ (other : CatalogService) (entry : CatalogEntry), entry.path = path →
          (other.register ⟨entry⟩).openCatalog catalogName = .ok (⟨entry⟩, other.register ⟨entry⟩) := by
        intro other entry hentry
        have hget : (other.register ⟨entry⟩).registry.get? catalogName = some ⟨entry⟩ := by
          rw [register, BTreeMap.get?_insert, if_pos]
          rw [← hname, ← hentry]
          rfl
        rw [openCatalog, hget]
      cases hfound : service.world.store.getCatalog path with
      | some entry =>
          have hentry : entry.path = path := MemoryCatalogStore.Valid.path_of_getCatalog hvalid.store hfound
          have hensure : service.ensureManagedPaimonCatalog catalogId catalogName =
              if entry.IsManagedPaimon then (.ok (), service.register ⟨entry⟩)
              else (.error (.catalogNotRegistered catalogName), service) := by
            simp only [ensureManagedPaimonCatalog, hpath, hfound]
            rfl
          by_cases hmanaged : entry.IsManagedPaimon
          · refine .inr ⟨path, entry, service.register ⟨entry⟩, rfl, hentry, hmanaged, hensure.trans (if_pos hmanaged),
              ?_, hopen service entry hentry, .inl ⟨hfound, rfl⟩⟩
            refine hvalid.register ?_
            rw [ManagedPaimonCatalog.Registered, hentry]
            exact hfound
          · refine .inl ⟨_, hensure.trans (if_neg hmanaged), fun path' hpath' => ?_⟩
            obtain rfl := Except.ok.inj hpath'
            exact ⟨entry, hfound, hmanaged⟩
      | none =>
          obtain ⟨created, hcreate, hworld⟩ : ∃ created : CatalogService,
              service.createCatalog ⟨catalogId, path, .managed, .paimon⟩ = (.ok (), created) ∧ created.world =
                ⟨service.world.store.createCatalog ⟨catalogId, path, .managed, .paimon⟩, service.world.paimon⟩ := by
            rw [createCatalog, hfound]
            exact ⟨_, rfl, rfl⟩
          have hcreated := @createCatalog_valid service hvalid ⟨catalogId, path, .managed, .paimon⟩ hnew
          rw [hcreate] at hcreated
          refine .inr ⟨path, ⟨catalogId, path, .managed, .paimon⟩, created.register ⟨_⟩, rfl, rfl, ⟨rfl, rfl⟩,
            by simp only [ensureManagedPaimonCatalog, hpath, hfound, hcreate], ?_, hopen _ _ rfl, .inr ⟨hfound, hworld⟩⟩
          refine hcreated.register ?_
          rw [ManagedPaimonCatalog.Registered, hworld, MemoryCatalogStore.getCatalog_createCatalog, if_pos rfl]

/-- What is in the world once the catalog is ensured, whether it was there or is created. -/
theorem world_of_ensured {before after : World} {entry : CatalogEntry} (hmanaged : entry.IsManagedPaimon)
    (hworld : (before.store.getCatalog entry.path = some entry ∧ after = before) ∨
      before.store.getCatalog entry.path = none ∧ after = ⟨before.store.createCatalog entry, before.paimon⟩) :
    after.store.getCatalog entry.path = some entry ∧
    (∀ other, other ≠ entry.path ∨ (before.store.getCatalog other).isSome →
      after.store.getCatalog other = before.store.getCatalog other) ∧
    after.store.databases = before.store.databases ∧ after.store.tables = before.store.tables ∧
    after.paimon = before.paimon ∧
    ∀ found, before.store.getCatalog entry.path = some found → found.IsManagedPaimon := by
  rcases hworld with ⟨hfound, rfl⟩ | ⟨hnone, rfl⟩
  · refine ⟨hfound, fun _ _ => rfl, rfl, rfl, rfl, fun found hsome => ?_⟩
    obtain rfl := Option.some.inj (hfound.symm.trans hsome)
    exact hmanaged
  · refine ⟨by rw [MemoryCatalogStore.getCatalog_createCatalog, if_pos rfl], fun other hother => ?_, rfl, rfl, rfl,
      fun found hsome => by cases hnone.symm.trans hsome⟩
    rw [MemoryCatalogStore.getCatalog_createCatalog, if_neg]
    rintro rfl
    rw [hnone] at hother
    exact hother.elim (fun hne => hne rfl) Bool.false_ne_true

/-- What making sure of the default database comes to, once the catalog is open. -/
theorem ensureDefaultManagedPaimonDatabase_cases (faults : Faults) (databaseId : Uuid) {entry : CatalogEntry}
    (hopen : service.openCatalog catalogName = .ok (⟨entry⟩, service)) :
    ((service.world.store.getDatabase ⟨entry.path.catalog, defaultDatabase⟩).isSome ∧
      service.ensureDefaultManagedPaimonDatabase faults databaseId catalogName = (.ok (), service)) ∨
    service.world.store.getDatabase ⟨entry.path.catalog, defaultDatabase⟩ = none ∧
      ((∃ error, faults.write ≠ none ∧
        service.ensureDefaultManagedPaimonDatabase faults databaseId catalogName = (.error error, service)) ∨
      ∃ paimon, faults.write = none ∧
        ManagedPaimonCatalog.DatabaseWritten service.world ⟨entry.path.catalog, defaultDatabase⟩ paimon ∧
        service.ensureDefaultManagedPaimonDatabase faults databaseId catalogName = (.ok (), { service with world :=
          ⟨service.world.store.createDatabase
            ⟨databaseId, entry.catalogId, ⟨entry.path.catalog, defaultDatabase⟩, .empty⟩, paimon⟩ })) := by
  have hpath : ManagedPaimonCatalog.requireDatabasePath ⟨entry⟩ defaultDatabaseName =
      .ok ⟨entry.path.catalog, defaultDatabase⟩ := by
    rw [ManagedPaimonCatalog.requireDatabasePath, ManagedPaimonCatalog.name, DatabasePath.new, normalizeSegment_value]
    rfl
  cases hfound : service.world.store.getDatabase ⟨entry.path.catalog, defaultDatabase⟩ with
  | some database =>
      refine .inl ⟨rfl, ?_⟩
      have hrequire : ManagedPaimonCatalog.requireDatabase ⟨entry⟩ service.world defaultDatabaseName =
          .ok database := by
        simp only [ManagedPaimonCatalog.requireDatabase, hpath, bind, Except.bind, hfound]
        rfl
      simp only [ensureDefaultManagedPaimonDatabase, hopen, hrequire]
  | none =>
      refine .inr ⟨rfl, ?_⟩
      have hrequire : ManagedPaimonCatalog.requireDatabase ⟨entry⟩ service.world defaultDatabaseName =
          .error (.databaseNotFound (ManagedPaimonCatalog.name ⟨entry⟩) defaultDatabaseName) := by
        simp only [ManagedPaimonCatalog.requireDatabase, hpath, bind, Except.bind, hfound]
      obtain ⟨hfails, hworks⟩ := @ManagedPaimonCatalog.createDatabase_of_free ⟨entry⟩ faults service.world databaseId
        defaultDatabaseName .empty _ hpath hfound
      cases hfault : faults.write with
      | some message =>
          obtain ⟨error, herror⟩ := hfails message hfault
          refine .inl ⟨error, Option.some_ne_none message, ?_⟩
          simp only [ensureDefaultManagedPaimonDatabase, hopen, hrequire, herror]
          rfl
      | none =>
          obtain ⟨paimon, hwritten, hcreated⟩ := hworks hfault
          refine .inr ⟨paimon, rfl, hwritten, ?_⟩
          simp only [ensureDefaultManagedPaimonDatabase, hopen, hrequire, hcreated]
          rfl

/-- A service with the catalog of the store opened, once a database was created in it. -/
theorem Valid.createDatabase (hvalid : service.Valid) {entry : CatalogEntry} {database : Segment} {paimon : PaimonState}
    (hentry : service.world.store.getCatalog entry.path = some entry)
    (hfree : service.world.store.getDatabase ⟨entry.path.catalog, database⟩ = none)
    (hnew : service.world.store.databases.byId.get? databaseId = none) :
    CatalogService.Valid { service with world := ⟨service.world.store.createDatabase
      ⟨databaseId, entry.catalogId, ⟨entry.path.catalog, database⟩, .empty⟩, paimon⟩ } where
  store := MemoryCatalogStore.Valid.createDatabase hvalid.store hfree hnew hentry rfl
  registry := hvalid.registry

/-- With the catalog and its default database there, bootstrapping changes nothing. -/
theorem bootstrap_of_found (hvalid : service.Valid) {path : CatalogPath} {entry : CatalogEntry}
    (hpath : CatalogPath.new catalogName = .ok path) (hentry : service.world.store.getCatalog path = some entry)
    (hmanaged : entry.IsManagedPaimon)
    (hdatabase : (service.world.store.getDatabase ⟨path.catalog, defaultDatabase⟩).isSome)
    (hnew : service.world.store.catalogs.byId.get? catalogId = none) :
    (service.bootstrap faults catalogId databaseId catalogName).1 = .ok () ∧
      (service.bootstrap faults catalogId databaseId catalogName).2.world = service.world := by
  rcases ensureManagedPaimonCatalog_cases catalogName hvalid hnew with
    ⟨error, -, hconflict⟩ | ⟨path', entry', ensured, hpath', hentryPath, -, hensure, -, hopen, hworld⟩
  · obtain ⟨other, hother, hforeign⟩ := hconflict path hpath
    obtain rfl := Option.some.inj (hentry.symm.trans hother)
    exact absurd hmanaged hforeign
  · obtain rfl := Except.ok.inj (hpath.symm.trans hpath')
    obtain ⟨-, hworld⟩ := hworld.resolve_right fun ⟨hnone, _⟩ => by cases hentry.symm.trans hnone
    rcases ensureDefaultManagedPaimonDatabase_cases faults databaseId hopen with
      ⟨-, hdefault⟩ | ⟨hnone, -⟩
    · have hbootstrap : service.bootstrap faults catalogId databaseId catalogName = (.ok (), ensured) := by
        simp only [bootstrap, hensure, hdefault]
      rw [hbootstrap]
      exact ⟨rfl, hworld⟩
    · rw [hworld, hentryPath] at hnone
      rw [hnone] at hdatabase
      cases hdatabase

/-- Bootstrapping succeeds unless the name is no catalog name, a catalog of another kind has it, or the database cannot
be written; then the catalog and its default database are there and nothing else has changed. -/
theorem bootstrap_ready (hvalid : service.Valid)
    (hcatalog : service.world.store.catalogs.byId.get? catalogId = none)
    (hdatabase : service.world.store.databases.byId.get? databaseId = none) :
    (service.bootstrap faults catalogId databaseId catalogName).2.Valid ∧
      ((service.bootstrap faults catalogId databaseId catalogName).1 = .ok () ↔
        ∃ path, CatalogPath.new catalogName = .ok path ∧
          (∀ entry, service.world.store.getCatalog path = some entry → entry.IsManagedPaimon) ∧
          (faults.write = none ∨ (service.world.store.getDatabase ⟨path.catalog, defaultDatabase⟩).isSome)) ∧
      ((service.bootstrap faults catalogId databaseId catalogName).1 = .ok () →
        ∀ path, CatalogPath.new catalogName = .ok path →
          Bootstrapped path service.world (service.bootstrap faults catalogId databaseId catalogName).2.world) := by
  rcases ensureManagedPaimonCatalog_cases catalogName hvalid hcatalog with
    ⟨error, hensure, hconflict⟩ |
      ⟨path, entry, ensured, hpath, hentryPath, hmanaged, hensure, hensured, hopen, hworld⟩
  · have hbootstrap : service.bootstrap faults catalogId databaseId catalogName = (.error error, service) := by
      simp only [bootstrap, hensure]
    rw [hbootstrap]
    refine ⟨hvalid, iff_of_false (fun h => by cases h) ?_, fun h => by cases h⟩
    rintro ⟨path, hpath, hkind, -⟩
    obtain ⟨entry, hentry, hforeign⟩ := hconflict path hpath
    exact hforeign (hkind entry hentry)
  · subst hentryPath
    have hbootstrap : service.bootstrap faults catalogId databaseId catalogName =
        ensured.ensureDefaultManagedPaimonDatabase faults databaseId catalogName := by
      simp only [bootstrap, hensure]
    rw [hbootstrap]
    obtain ⟨hentry, hcatalogs, hdatabases, htables, hpaimon, hkind⟩ := world_of_ensured hmanaged hworld
    have hgetDatabase : ∀ other, ensured.world.store.getDatabase other = service.world.store.getDatabase other :=
      fun other => by rw [MemoryCatalogStore.getDatabase, hdatabases, MemoryCatalogStore.getDatabase]
    have hgetTable : ∀ other, ensured.world.store.getTable other = service.world.store.getTable other :=
      fun other => by rw [MemoryCatalogStore.getTable, htables, MemoryCatalogStore.getTable]
    rcases ensureDefaultManagedPaimonDatabase_cases faults databaseId hopen with
      ⟨hfound, hdefault⟩ | ⟨hnone, ⟨error, hfault, hdefault⟩ | ⟨paimon, hfault, hwritten, hdefault⟩⟩
    · rw [hdefault]
      rw [hgetDatabase] at hfound
      refine ⟨hensured, iff_of_true rfl ⟨entry.path, hpath, hkind, .inr hfound⟩, fun _ path hpath' => ?_⟩
      obtain rfl := Except.ok.inj (hpath.symm.trans hpath')
      exact {
        catalog := ⟨entry, hentry, hmanaged⟩
        database := by rw [hgetDatabase]; exact Option.isSome_iff_exists.mp hfound
        otherCatalogs := hcatalogs
        otherDatabases := fun other _ => hgetDatabase other
        tables := hgetTable
        warehouse := fun database _ => by rw [hpaimon]
        warehouseTables := fun database table => by rw [hpaimon] }
    · rw [hdefault]
      refine ⟨hensured, iff_of_false (fun h => by cases h) ?_, fun h => by cases h⟩
      rintro ⟨path, hpath', -, hwrites⟩
      obtain rfl := Except.ok.inj (hpath.symm.trans hpath')
      rw [hgetDatabase] at hnone
      rw [hnone] at hwrites
      exact hwrites.elim hfault Bool.false_ne_true
    · rw [hdefault]
      have hnew : ensured.world.store.databases.byId.get? databaseId = none := by
        rw [hdatabases]
        exact hdatabase
      refine ⟨hensured.createDatabase hentry hnone hnew, iff_of_true rfl ⟨entry.path, hpath, hkind, .inl hfault⟩,
        fun _ path hpath' => ?_⟩
      obtain rfl := Except.ok.inj (hpath.symm.trans hpath')
      rw [hgetDatabase] at hnone
      have hwarehouse := hwritten.frame
      rw [hpaimon] at hwarehouse
      exact {
        catalog := ⟨entry, hentry, hmanaged⟩
        database := by
          rw [MemoryCatalogStore.getDatabase_createDatabase, if_pos rfl]
          exact ⟨_, rfl⟩
        otherCatalogs := hcatalogs
        otherDatabases := fun other hother => by
          rw [MemoryCatalogStore.getDatabase_createDatabase, if_neg, hgetDatabase]
          rintro rfl
          rw [hnone] at hother
          exact hother.elim (fun hne => hne rfl) Bool.false_ne_true
        tables := fun other => by rw [MemoryCatalogStore.getTable_createDatabase, hgetTable]
        warehouse := hwarehouse.1
        warehouseTables := hwarehouse.2 }

/-- Bootstrapping a service in any state it can be in: when it succeeds, what is there then, and that doing it again, with
other ids and whatever fails then, changes nothing. -/
theorem bootstrap_settles (hvalid : service.Valid)
    (hcatalog : service.world.store.catalogs.byId.get? catalogId = none)
    (hdatabase : service.world.store.databases.byId.get? databaseId = none) :
    ((service.bootstrap faults catalogId databaseId catalogName).1 = .ok () ↔
      ∃ path, CatalogPath.new catalogName = .ok path ∧
        (∀ entry, service.world.store.getCatalog path = some entry → entry.IsManagedPaimon) ∧
        (faults.write = none ∨ (service.world.store.getDatabase ⟨path.catalog, defaultDatabase⟩).isSome)) ∧
    ((service.bootstrap faults catalogId databaseId catalogName).1 = .ok () →
      ∀ path, CatalogPath.new catalogName = .ok path →
        Bootstrapped path service.world (service.bootstrap faults catalogId databaseId catalogName).2.world ∧
        ∀ later faults' catalogId' databaseId', later = (service.bootstrap faults catalogId databaseId catalogName).2 →
          later.world.store.catalogs.byId.get? catalogId' = none →
          (later.bootstrap faults' catalogId' databaseId' catalogName).1 = .ok () ∧
            (later.bootstrap faults' catalogId' databaseId' catalogName).2.world = later.world) := by
  obtain ⟨hlater, hiff, hready⟩ := @bootstrap_ready service faults catalogId databaseId catalogName hvalid hcatalog
    hdatabase
  refine ⟨hiff, fun hok path hpath => ⟨hready hok path hpath, ?_⟩⟩
  rintro later faults' catalogId' databaseId' rfl hnew
  obtain ⟨entry, hentry, hmanaged⟩ := (hready hok path hpath).catalog
  obtain ⟨database, hdatabase⟩ := (hready hok path hpath).database
  exact bootstrap_of_found hlater hpath hentry hmanaged (Option.isSome_iff_exists.mpr ⟨database, hdatabase⟩) hnew

end CatalogService

theorem bootstrap_settles_prod :
    ((CatalogService.fresh ⟨.empty⟩).bootstrap .none 0 1 "prod").1 = .ok () := by
  obtain ⟨hiff, -⟩ := @CatalogService.bootstrap_settles (.fresh ⟨.empty⟩) .none 0 1 "prod"
    (CatalogService.valid_fresh _) rfl rfl
  exact hiff.mpr ⟨⟨CatalogService.prod⟩, rfl, nofun, .inl rfl⟩

end BrewDB.Catalog

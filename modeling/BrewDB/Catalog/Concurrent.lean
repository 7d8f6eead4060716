import BrewDB.Common.CheckedPut
import BrewDB.Catalog.Operations

/-!
# Clients that create the same object

Clones of one catalog share the store and the warehouse, and the calls of their operations to them may be
interleaved in any order. Between the check for an existing entry and the write of the new one nothing keeps
another client from writing its own.
-/

namespace BrewDB.Catalog

open CheckedPut (Phase)

/-! ## Calls one at a time -/

/-- How far a `create_table` is. -/
inductive TablePhase where
  | idle
  | found (database : DatabaseCatalogEntry)
  | checked (database : DatabaseCatalogEntry) (path : TablePath)
  | written (database : DatabaseCatalogEntry) (path : TablePath)
  | loaded (entry : TableCatalogEntry)
  | returned (result : Except CatalogError TableCatalogEntry)

/-- How far a `create_database` is. -/
inductive DatabasePhase where
  | idle
  | checked (path : DatabasePath)
  | written (path : DatabasePath)
  | returned (result : Except CatalogError DatabaseCatalogEntry)

namespace ManagedPaimonCatalog

variable (rules : PaimonRules) (self : ManagedPaimonCatalog) (faults : Faults) (uuid : Uuid)

/-- The Paimon call of `create_table`. -/
def writeTable (w : World) (request : CreateTableRequest) (path : TablePath) :
    Except CatalogError PaimonState := do
  let schema ← orFault faults.request (buildSchema rules.format request)
  match paimonCall faults.write mapPaimonWriteError
    (w.paimon.createTable rules request.databaseName request.tableName schema) with
  | .ok paimon => .ok paimon
  | .error error =>
      if error = .duplicateTable "<paimon>" path.database.value path.table.value then .ok w.paimon
      else .error error

/-- The next call of a `create_table` to the store or to Paimon. -/
def createTableStep (request : CreateTableRequest) (w : World) : TablePhase → Option (World × TablePhase)
  | .idle =>
      if self.entry.storageKind ≠ .paimon then
        some (w, .returned (.error
          (.catalogFormatMismatch self.name "paimon" self.entry.storageKind.asStr)))
      else
        match self.requireDatabase w request.databaseName with
        | .ok database => some (w, .found database)
        | .error error => some (w, .returned (.error error))
  | .found database =>
      match self.requireTablePath request.databaseName request.tableName with
      | .ok path =>
          if (w.store.getTable path).isSome then
            some (w, .returned (.error (.duplicateTable self.name request.databaseName request.tableName)))
          else some (w, .checked database path)
      | .error error => some (w, .returned (.error error))
  | .checked database path =>
      match writeTable rules faults w request path with
      | .ok paimon => some (⟨w.store, paimon⟩, .written database path)
      | .error error => some (w, .returned (.error error))
  | .written database path =>
      match self.reload rules faults w.paimon database uuid path with
      | .ok entry => some (w, .loaded entry)
      | .error error => some (w, .returned (.error error))
  | .loaded entry => some (⟨w.store.createTable entry, w.paimon⟩, .returned (.ok entry))
  | .returned _ => none

/-- The Paimon call of `create_database`. -/
def writeDatabase (w : World) (path : DatabasePath) : Except CatalogError PaimonState :=
  match paimonCall faults.write mapPaimonWriteError (w.paimon.createDatabase path.database.value) with
  | .ok paimon => .ok paimon
  | .error error =>
      if error = .duplicateDatabase "<paimon>" path.database.value then .ok w.paimon else .error error

/-- The next call of a `create_database`. -/
def createDatabaseStep (databaseName : String) (options : Options) (w : World) :
    DatabasePhase → Option (World × DatabasePhase)
  | .idle =>
      match self.requireDatabasePath databaseName with
      | .ok path =>
          if (w.store.getDatabase path).isSome then
            some (w, .returned (.error (.duplicateDatabase self.name databaseName)))
          else some (w, .checked path)
      | .error error => some (w, .returned (.error error))
  | .checked path =>
      match writeDatabase faults w path with
      | .ok paimon => some (⟨w.store, paimon⟩, .written path)
      | .error error => some (w, .returned (.error error))
  | .written path =>
      some (⟨w.store.createDatabase ⟨uuid, self.entry.catalogId, path, options⟩, w.paimon⟩,
        .returned (.ok ⟨uuid, self.entry.catalogId, path, options⟩))
  | .returned _ => none

end ManagedPaimonCatalog

/-- A client that is left alone, for at most `n` calls. -/
def alone {P : Type} (step : World → P → Option (World × P)) : ℕ → World × P → World × P
  | 0, x => x
  | n + 1, x =>
      match step x.1 x.2 with
      | some y => alone step n y
      | none => x

namespace ManagedPaimonCatalog

variable {rules : PaimonRules} {self : ManagedPaimonCatalog} {faults : Faults} {uuid : Uuid} {w : World}

/-- The calls one after the other are the operation. -/
theorem createDatabase_eq_alone (databaseName : String) (options : Options) :
    alone (self.createDatabaseStep faults uuid databaseName options) 3 (w, .idle) =
      ((self.createDatabase faults w uuid databaseName options).2,
        .returned (self.createDatabase faults w uuid databaseName options).1) := by
  cases hpath : self.requireDatabasePath databaseName with
  | error error =>
      have hcall : self.createDatabase faults w uuid databaseName options = (.error error, w) :=
        World.operate_of_refused (by rw [hpath]; rfl)
      rw [hcall]
      simp [alone, createDatabaseStep, hpath]
  | ok path =>
      by_cases hexists : (w.store.getDatabase path).isSome
      · have hcall : self.createDatabase faults w uuid databaseName options =
            (.error (.duplicateDatabase self.name databaseName), w) :=
          World.operate_of_refused (by rw [hpath]; exact if_pos hexists)
        rw [hcall]
        simp [alone, createDatabaseStep, hpath, hexists]
      have hchecks : (do
          let path ← self.requireDatabasePath databaseName
          if (w.store.getDatabase path).isSome then
            .error (CatalogError.duplicateDatabase self.name databaseName)
          else return path) = .ok path := by
        rw [hpath]
        exact if_neg hexists
      cases hwrite : writeDatabase faults w path with
      | error error =>
          have hcall : self.createDatabase faults w uuid databaseName options = (.error error, w) :=
            World.operate_of_unwritten hchecks hwrite
          rw [hcall]
          simp [alone, createDatabaseStep, hpath, hexists, hwrite]
      | ok paimon =>
          have hcall : self.createDatabase faults w uuid databaseName options =
              (.ok ⟨uuid, self.entry.catalogId, path, options⟩,
                ⟨w.store.createDatabase ⟨uuid, self.entry.catalogId, path, options⟩, paimon⟩) :=
            World.operate_of_finished hchecks hwrite rfl
          rw [hcall]
          simp [alone, createDatabaseStep, hpath, hexists, hwrite]

theorem createTable_eq_alone (request : CreateTableRequest) :
    alone (self.createTableStep rules faults uuid request) 5 (w, .idle) =
      ((self.createTable rules faults w uuid request).2,
        .returned (self.createTable rules faults w uuid request).1) := by
  by_cases hkind : self.entry.storageKind = .paimon
  swap
  · have hcall : self.createTable rules faults w uuid request =
        (.error (.catalogFormatMismatch self.name "paimon" self.entry.storageKind.asStr), w) :=
      World.operate_of_refused (if_pos hkind)
    rw [hcall]
    simp [alone, createTableStep, hkind]
  cases hdatabase : self.requireDatabase w request.databaseName with
  | error error =>
      have hcall : self.createTable rules faults w uuid request = (.error error, w) :=
        World.operate_of_refused (by rw [if_neg (not_not.mpr hkind), hdatabase]; rfl)
      rw [hcall]
      simp [alone, createTableStep, hkind, hdatabase]
  | ok database =>
  cases hpath : self.requireTablePath request.databaseName request.tableName with
  | error error =>
      have hcall : self.createTable rules faults w uuid request = (.error error, w) :=
        World.operate_of_refused (by rw [if_neg (not_not.mpr hkind), hdatabase, hpath]; rfl)
      rw [hcall]
      simp [alone, createTableStep, hkind, hdatabase, hpath]
  | ok path =>
  by_cases hexists : (w.store.getTable path).isSome
  · have hcall : self.createTable rules faults w uuid request =
        (.error (.duplicateTable self.name request.databaseName request.tableName), w) :=
      World.operate_of_refused (by rw [if_neg (not_not.mpr hkind), hdatabase, hpath]; exact if_pos hexists)
    rw [hcall]
    simp [alone, createTableStep, hkind, hdatabase, hpath, hexists]
  have hchecks : (do
      if self.entry.storageKind ≠ StorageKind.paimon then
        Except.error (CatalogError.catalogFormatMismatch self.name "paimon" self.entry.storageKind.asStr)
      else
        let database ← self.requireDatabase w request.databaseName
        let path ← self.requireTablePath request.databaseName request.tableName
        if (w.store.getTable path).isSome then
          .error (.duplicateTable self.name request.databaseName request.tableName)
        else return (database, path)) = .ok (database, path) := by
    rw [if_neg (not_not.mpr hkind), hdatabase, hpath]
    exact if_neg hexists
  cases hwrite : writeTable rules faults w request path with
  | error error =>
      have hcall : self.createTable rules faults w uuid request = (.error error, w) :=
        World.operate_of_unwritten hchecks hwrite
      rw [hcall]
      simp [alone, createTableStep, hkind, hdatabase, hpath, hexists, hwrite]
  | ok paimon =>
  cases hreload : self.reload rules faults paimon database uuid path with
  | error error =>
      have hcall : self.createTable rules faults w uuid request = (.error error, ⟨w.store, paimon⟩) :=
        World.operate_of_unfinished hchecks hwrite hreload
      rw [hcall]
      simp [alone, createTableStep, hkind, hdatabase, hpath, hexists, hwrite, hreload]
  | ok entry =>
      have hcall : self.createTable rules faults w uuid request =
          (.ok entry, ⟨w.store.createTable entry, paimon⟩) :=
        World.operate_of_finished hchecks hwrite hreload
      rw [hcall]
      simp [alone, createTableStep, hkind, hdatabase, hpath, hexists, hwrite, hreload]

end ManagedPaimonCatalog

/-! ## Interleavings -/

/-- The world that clients share, and how far each is. -/
structure Clients (ι P : Type) where
  world : World
  phase : ι → P

namespace Clients

variable {ι P : Type} [DecidableEq ι]

/-- The next call of one client. -/
def step (client : ι → World → P → Option (World × P)) (s : Clients ι P) (i : ι) : Option (Clients ι P) :=
  (client i s.world (s.phase i)).map fun r => ⟨r.1, Function.update s.phase i r.2⟩

/-- A step is a call of the client, and leaves the others where they are. -/
theorem step_eq_some {client : ι → World → P → Option (World × P)} {s s' : Clients ι P} {i : ι}
    (h : s.step client i = some s') :
    ∃ w' p', client i s.world (s.phase i) = some (w', p') ∧ s' = ⟨w', Function.update s.phase i p'⟩ := by
  obtain ⟨⟨w', p'⟩, hcall, rfl⟩ := Option.map_eq_some_iff.mp h
  exact ⟨w', p', hcall, rfl⟩

end Clients

/-- What a phase is to the other clients. -/
def TablePhase.abstract : TablePhase → Phase
  | .idle => .idle
  | .found _ => .idle
  | .checked .. => .working
  | .written .. => .working
  | .loaded _ => .working
  | .returned (.ok _) => .won
  | .returned (.error _) => .failed

def DatabasePhase.abstract : DatabasePhase → Phase
  | .idle => .idle
  | .checked _ => .working
  | .written _ => .working
  | .returned (.ok _) => .won
  | .returned (.error _) => .failed

/-- The tables of the store, and the phases of the clients. -/
def tableView {ι : Type} (s : Clients ι TablePhase) : CheckedPut.State ι String Uuid TableCatalogEntry :=
  ⟨s.world.store.tables, fun i => (s.phase i).abstract⟩

def databaseView {ι : Type} (s : Clients ι DatabasePhase) :
    CheckedPut.State ι String Uuid DatabaseCatalogEntry :=
  ⟨s.world.store.databases, fun i => (s.phase i).abstract⟩

/-- At most one client has created the table, and once all have returned the store has it under its id only. -/
def TableWinner {ι : Type} (path : TablePath) (s : Clients ι TablePhase) : Prop :=
  (∀ i j entry entry', s.phase i = .returned (.ok entry) → s.phase j = .returned (.ok entry') → i = j) ∧
    ((∀ i, ∃ result, s.phase i = .returned result) → ∀ i entry, s.phase i = .returned (.ok entry) →
      ∃ stored, s.world.store.getTable path = some stored ∧ stored.tableId = entry.tableId ∧
        s.world.store.tables.byId.get? entry.tableId = some stored ∧
        ∀ id other, s.world.store.tables.byId.get? id = some other → other.path = path → id = entry.tableId)

def DatabaseWinner {ι : Type} (path : DatabasePath) (s : Clients ι DatabasePhase) : Prop :=
  (∀ i j entry entry', s.phase i = .returned (.ok entry) → s.phase j = .returned (.ok entry') → i = j) ∧
    ((∀ i, ∃ result, s.phase i = .returned result) → ∀ i entry, s.phase i = .returned (.ok entry) →
      ∃ stored, s.world.store.getDatabase path = some stored ∧ stored.databaseId = entry.databaseId ∧
        s.world.store.databases.byId.get? entry.databaseId = some stored ∧
        ∀ id other, s.world.store.databases.byId.get? id = some other → other.path = path → id = entry.databaseId)

/-- A client that is about to write its entry finds none in the store. -/
def TablePutsFree {ι : Type} (path : TablePath) (s : Clients ι TablePhase) (i : ι) : Prop :=
  ∀ entry, s.phase i = .loaded entry → s.world.store.getTable path = none

def DatabasePutsFree {ι : Type} (path : DatabasePath) (s : Clients ι DatabasePhase) (i : ι) : Prop :=
  ∀ target, s.phase i = .written target → s.world.store.getDatabase path = none

/-- A phase of a client that creates a table of this path and id. -/
def TablePhase.Of (path : TablePath) (uuid : Uuid) : TablePhase → Prop
  | .checked _ target => target = path
  | .written _ target => target = path
  | .loaded entry => entry.path = path ∧ entry.tableId = uuid
  | .returned (.ok entry) => entry.path = path ∧ entry.tableId = uuid
  | _ => True

def DatabasePhase.Of (path : DatabasePath) (uuid : Uuid) : DatabasePhase → Prop
  | .checked target => target = path
  | .written target => target = path
  | .returned (.ok entry) => entry.path = path ∧ entry.databaseId = uuid
  | _ => True

/-! ## One call of one client -/

namespace ManagedPaimonCatalog

variable {rules : PaimonRules} {self : ManagedPaimonCatalog} {faults : Faults} {uuid : Uuid} {w w' : World}

/-- What a call of `create_table` does to the tables of the store: nothing, unless it is the last. -/
theorem createTableStep_effect {request : CreateTableRequest} {path : TablePath} {p p' : TablePhase}
    (hpath : self.requireTablePath request.databaseName request.tableName = .ok path)
    (h : self.createTableStep rules faults uuid request w p = some (w', p')) (hof : p.Of path uuid) :
    p'.Of path uuid ∧ p.abstract ≠ .won ∧ (p'.abstract = .won ↔ ∃ entry, p = .loaded entry) ∧
      CheckedPut.Effect TableCatalogEntry.key TableCatalogEntry.tableId path.toString uuid w.store.tables
        p.abstract w'.store.tables p'.abstract := by
  cases p with
  | idle =>
      simp only [createTableStep] at h
      split_ifs at h
      · cases h
        exact ⟨trivial, nofun, ⟨nofun, nofun⟩, .fail⟩
      · split at h
        next =>
          cases h
          exact ⟨trivial, nofun, ⟨nofun, nofun⟩, .stay⟩
        next =>
          cases h
          exact ⟨trivial, nofun, ⟨nofun, nofun⟩, .fail⟩
  | found database =>
      simp only [createTableStep, hpath] at h
      split_ifs at h with hexists
      · cases h
        exact ⟨trivial, nofun, ⟨nofun, nofun⟩, .fail⟩
      · cases h
        rw [Option.not_isSome_iff_eq_none] at hexists
        exact ⟨rfl, nofun, ⟨nofun, nofun⟩, .check rfl hexists⟩
  | checked database target =>
      simp only [createTableStep] at h
      split at h
      next =>
        cases h
        exact ⟨hof, nofun, ⟨nofun, nofun⟩, .stay⟩
      next =>
        cases h
        exact ⟨trivial, nofun, ⟨nofun, nofun⟩, .fail⟩
  | written database target =>
      simp only [createTableStep] at h
      split at h
      next entry hreload =>
        cases h
        obtain ⟨live, -, hentry⟩ := reload_eq_ok hreload
        obtain ⟨hid, -, -, hentryPath, -⟩ := buildTableEntry_eq_ok hentry
        exact ⟨⟨hentryPath.trans hof, hid⟩, nofun, ⟨nofun, nofun⟩, .stay⟩
      next =>
        cases h
        exact ⟨trivial, nofun, ⟨nofun, nofun⟩, .fail⟩
  | loaded entry =>
      cases h
      refine ⟨hof, nofun, ⟨fun _ => ⟨entry, rfl⟩, fun _ => rfl⟩, .put entry rfl ?_ hof.2⟩
      exact congrArg TablePath.toString hof.1
  | returned result => cases h

theorem createDatabaseStep_effect {databaseName : String} {options : Options} {path : DatabasePath}
    {p p' : DatabasePhase} (hpath : self.requireDatabasePath databaseName = .ok path)
    (h : self.createDatabaseStep faults uuid databaseName options w p = some (w', p')) (hof : p.Of path uuid) :
    p'.Of path uuid ∧ p.abstract ≠ .won ∧ (p'.abstract = .won ↔ ∃ target, p = .written target) ∧
      CheckedPut.Effect DatabaseCatalogEntry.key DatabaseCatalogEntry.databaseId path.toString uuid
        w.store.databases p.abstract w'.store.databases p'.abstract := by
  cases p with
  | idle =>
      simp only [createDatabaseStep, hpath] at h
      split_ifs at h with hexists
      · cases h
        exact ⟨trivial, nofun, ⟨nofun, nofun⟩, .fail⟩
      · cases h
        rw [Option.not_isSome_iff_eq_none] at hexists
        exact ⟨rfl, nofun, ⟨nofun, nofun⟩, .check rfl hexists⟩
  | checked target =>
      simp only [createDatabaseStep] at h
      split at h
      next =>
        cases h
        exact ⟨hof, nofun, ⟨nofun, nofun⟩, .stay⟩
      next =>
        cases h
        exact ⟨trivial, nofun, ⟨nofun, nofun⟩, .fail⟩
  | written target =>
      obtain rfl : target = path := hof
      cases h
      exact ⟨⟨rfl, rfl⟩, nofun, ⟨fun _ => ⟨target, rfl⟩, fun _ => rfl⟩, .put _ rfl rfl rfl⟩
  | returned result => cases h

end ManagedPaimonCatalog

/-! ## All clients -/

section Tables

variable {ι : Type} {rules : PaimonRules} {self : ManagedPaimonCatalog} {faults : ι → Faults}
  {uuid : ι → Uuid} {requests : ι → CreateTableRequest} {path : TablePath} {s s' : Clients ι TablePhase} {i : ι}

theorem TablePhase.abstract_eq_won {p : TablePhase} : p.abstract = .won ↔ ∃ entry, p = .returned (.ok entry) := by
  cases p with
  | returned result =>
      cases result with
      | ok entry => exact ⟨fun _ => ⟨entry, rfl⟩, fun _ => rfl⟩
      | error error => exact ⟨nofun, nofun⟩
  | _ => exact ⟨nofun, nofun⟩

/-- A call of a client is a move. -/
theorem tableView_move [DecidableEq ι]
    (hpath : ∀ i, self.requireTablePath (requests i).databaseName (requests i).tableName = .ok path)
    (hof : ∀ i, (s.phase i).Of path (uuid i))
    (h : s.step (fun i => self.createTableStep rules (faults i) (uuid i) (requests i)) i = some s') :
    (∀ j, (s'.phase j).Of path (uuid j)) ∧
      CheckedPut.Move TableCatalogEntry.key TableCatalogEntry.tableId path.toString uuid (tableView s) i
        (tableView s') ∧
      (TablePutsFree path s i ↔ CheckedPut.PutsFree path.toString (tableView s) i (tableView s')) := by
  obtain ⟨w', p', hcall, rfl⟩ := Clients.step_eq_some h
  obtain ⟨hof', hnot, hwon, heffect⟩ := ManagedPaimonCatalog.createTableStep_effect (hpath i) hcall (hof i)
  have hview : tableView ⟨w', Function.update s.phase i p'⟩ =
      (tableView s).next w'.store.tables i p'.abstract := by
    simp only [tableView, CheckedPut.State.next, CheckedPut.State.mk.injEq, true_and]
    exact Function.comp_update TablePhase.abstract s.phase i p'
  refine ⟨fun j => ?_, ⟨hnot, _, _, heffect, hview⟩, ?_⟩
  · show (Function.update s.phase i p' j).Of path (uuid j)
    rw [Function.update_apply]
    split_ifs with heq
    · rw [heq]
      exact hof'
    · exact hof j
  · rw [CheckedPut.PutsFree, hview, CheckedPut.State.phase_next, if_pos rfl, hwon, TablePutsFree]
    exact ⟨fun hfree hloaded => hloaded.elim hfree, fun hfree entry hentry => hfree ⟨entry, hentry⟩⟩

/-- One client wins if every write finds the path free. -/
theorem tableWinner_of_inv (hown : Function.Injective uuid) (hof : ∀ i, (s.phase i).Of path (uuid i))
    (hinv : CheckedPut.Inv TableCatalogEntry.key TableCatalogEntry.tableId path.toString uuid (tableView s)) :
    TableWinner path s := by
  refine ⟨fun i j entry entry' hi hj => ?_, fun _ i entry hi => ?_⟩
  · exact hinv.atMostOne hown i j (TablePhase.abstract_eq_won.mpr ⟨entry, hi⟩)
      (TablePhase.abstract_eq_won.mpr ⟨entry', hj⟩)
  · obtain ⟨stored, hstored, hid, hbyId, honly⟩ := hinv.only (TablePhase.abstract_eq_won.mpr ⟨entry, hi⟩)
    have hentryId : entry.tableId = uuid i := by
      have := hof i
      rw [hi] at this
      exact this.2
    rw [hentryId]
    exact ⟨stored, hstored, hid, hbyId, fun id other hother hpath =>
      honly id other hother (congrArg TablePath.toString hpath)⟩

theorem atMostOne_of_tableWinner (h : TableWinner path s) : CheckedPut.AtMostOne (tableView s) := by
  intro i j hi hj
  obtain ⟨entry, hentry⟩ := TablePhase.abstract_eq_won.mp hi
  obtain ⟨entry', hentry'⟩ := TablePhase.abstract_eq_won.mp hj
  exact h.1 i j entry entry' hentry hentry'

end Tables

section Databases

variable {ι : Type} {self : ManagedPaimonCatalog} {faults : ι → Faults} {uuid : ι → Uuid}
  {databaseName : String} {options : ι → Options} {path : DatabasePath} {s s' : Clients ι DatabasePhase} {i : ι}

theorem DatabasePhase.abstract_eq_won {p : DatabasePhase} :
    p.abstract = .won ↔ ∃ entry, p = .returned (.ok entry) := by
  cases p with
  | returned result =>
      cases result with
      | ok entry => exact ⟨fun _ => ⟨entry, rfl⟩, fun _ => rfl⟩
      | error error => exact ⟨nofun, nofun⟩
  | _ => exact ⟨nofun, nofun⟩

theorem databaseView_move [DecidableEq ι] (hpath : self.requireDatabasePath databaseName = .ok path)
    (hof : ∀ i, (s.phase i).Of path (uuid i))
    (h : s.step (fun i => self.createDatabaseStep (faults i) (uuid i) databaseName (options i)) i = some s') :
    (∀ j, (s'.phase j).Of path (uuid j)) ∧
      CheckedPut.Move DatabaseCatalogEntry.key DatabaseCatalogEntry.databaseId path.toString uuid (databaseView s) i
        (databaseView s') ∧
      (DatabasePutsFree path s i ↔ CheckedPut.PutsFree path.toString (databaseView s) i (databaseView s')) := by
  obtain ⟨w', p', hcall, rfl⟩ := Clients.step_eq_some h
  obtain ⟨hof', hnot, hwon, heffect⟩ := ManagedPaimonCatalog.createDatabaseStep_effect hpath hcall (hof i)
  have hview : databaseView ⟨w', Function.update s.phase i p'⟩ =
      (databaseView s).next w'.store.databases i p'.abstract := by
    simp only [databaseView, CheckedPut.State.next, CheckedPut.State.mk.injEq, true_and]
    exact Function.comp_update DatabasePhase.abstract s.phase i p'
  refine ⟨fun j => ?_, ⟨hnot, _, _, heffect, hview⟩, ?_⟩
  · show (Function.update s.phase i p' j).Of path (uuid j)
    rw [Function.update_apply]
    split_ifs with heq
    · rw [heq]
      exact hof'
    · exact hof j
  · rw [CheckedPut.PutsFree, hview, CheckedPut.State.phase_next, if_pos rfl, hwon, DatabasePutsFree]
    exact ⟨fun hfree hwritten => hwritten.elim hfree, fun hfree target htarget => hfree ⟨target, htarget⟩⟩

theorem databaseWinner_of_inv (hown : Function.Injective uuid) (hof : ∀ i, (s.phase i).Of path (uuid i))
    (hinv : CheckedPut.Inv DatabaseCatalogEntry.key DatabaseCatalogEntry.databaseId path.toString uuid
      (databaseView s)) : DatabaseWinner path s := by
  refine ⟨fun i j entry entry' hi hj => ?_, fun _ i entry hi => ?_⟩
  · exact hinv.atMostOne hown i j (DatabasePhase.abstract_eq_won.mpr ⟨entry, hi⟩)
      (DatabasePhase.abstract_eq_won.mpr ⟨entry', hj⟩)
  · obtain ⟨stored, hstored, hid, hbyId, honly⟩ := hinv.only (DatabasePhase.abstract_eq_won.mpr ⟨entry, hi⟩)
    have hentryId : entry.databaseId = uuid i := by
      have := hof i
      rw [hi] at this
      exact this.2
    rw [hentryId]
    exact ⟨stored, hstored, hid, hbyId, fun id other hother hpath =>
      honly id other hother (congrArg DatabasePath.toString hpath)⟩

theorem atMostOne_of_databaseWinner (h : DatabaseWinner path s) : CheckedPut.AtMostOne (databaseView s) := by
  intro i j hi hj
  obtain ⟨entry, hentry⟩ := DatabasePhase.abstract_eq_won.mp hi
  obtain ⟨entry', hentry'⟩ := DatabasePhase.abstract_eq_won.mp hj
  exact h.1 i j entry entry' hentry hentry'

end Databases

/-- All clients are about to begin. -/
def tableStart {ι : Type} (w : World) : Clients ι TablePhase := ⟨w, fun _ => .idle⟩

def databaseStart {ι : Type} (w : World) : Clients ι DatabasePhase := ⟨w, fun _ => .idle⟩

/-- However the calls of clients that create one table, or one database, are interleaved: there is at most
one winner, whose id the store has, exactly if no client writes its entry over that of another. -/
theorem oneWinner_iff {ι : Type} [DecidableEq ι] (rules : PaimonRules) (self : ManagedPaimonCatalog)
    (faults : ι → Faults) (uuid : ι → Uuid) (w : World) (hown : Function.Injective uuid) :
    (∀ (path : TablePath) (requests : ι → CreateTableRequest),
      (∀ i, self.requireTablePath (requests i).databaseName (requests i).tableName = .ok path) →
      TwoIndex.Consistent TableCatalogEntry.key TableCatalogEntry.tableId w.store.tables →
      (∀ i, w.store.tables.byId.get? (uuid i) = none) → ∀ calls,
      (Transition.Along
          (Clients.step fun i => self.createTableStep rules (faults i) (uuid i) (requests i))
          (fun _ _ s' => TableWinner path s') (tableStart w) calls ↔
        Transition.Along
          (Clients.step fun i => self.createTableStep rules (faults i) (uuid i) (requests i))
          (fun s i _ => TablePutsFree path s i) (tableStart w) calls)) ∧
    ∀ (path : DatabasePath) (databaseName : String) (options : ι → Options),
      self.requireDatabasePath databaseName = .ok path →
      TwoIndex.Consistent DatabaseCatalogEntry.key DatabaseCatalogEntry.databaseId w.store.databases →
      (∀ i, w.store.databases.byId.get? (uuid i) = none) → ∀ calls,
      (Transition.Along
          (Clients.step fun i => self.createDatabaseStep (faults i) (uuid i) databaseName (options i))
          (fun _ _ s' => DatabaseWinner path s') (databaseStart w) calls ↔
        Transition.Along
          (Clients.step fun i => self.createDatabaseStep (faults i) (uuid i) databaseName (options i))
          (fun s i _ => DatabasePutsFree path s i) (databaseStart w) calls) := by
  constructor
  · intro path requests hpath hconsistent hunused calls
    have hstart : CheckedPut.Inv TableCatalogEntry.key TableCatalogEntry.tableId path.toString uuid
        (tableView (tableStart w)) := ⟨hconsistent, nofun, fun i _ => hunused i⟩
    have hof : ∀ i, ((tableStart w).phase i).Of path (uuid i) := fun _ => trivial
    exact CheckedPut.along_iff hown (fun s i s' hof hs' => tableView_move hpath hof hs')
      (fun s hof hinv => tableWinner_of_inv hown hof hinv) (fun s _ hwinner => atMostOne_of_tableWinner hwinner)
      hof hstart (fun _ => rfl) calls
  · intro path databaseName options hpath hconsistent hunused calls
    have hstart : CheckedPut.Inv DatabaseCatalogEntry.key DatabaseCatalogEntry.databaseId path.toString uuid
        (databaseView (databaseStart w)) := ⟨hconsistent, nofun, fun i _ => hunused i⟩
    have hof : ∀ i, ((databaseStart w).phase i).Of path (uuid i) := fun _ => trivial
    exact CheckedPut.along_iff hown (fun s i s' hof hs' => databaseView_move hpath hof hs')
      (fun s hof hinv => databaseWinner_of_inv hown hof hinv)
      (fun s _ hwinner => atMostOne_of_databaseWinner hwinner) hof hstart (fun _ => rfl) calls

/-! ## Two clients -/

/-- The catalog whose clones the clients use. -/
def sharedCatalog : ManagedPaimonCatalog := ⟨⟨0, ⟨⟨"lake", by decide, by decide⟩⟩, .managed, .paimon⟩⟩

def visitsPath : TablePath :=
  ⟨⟨"lake", by decide, by decide⟩, ⟨"web", by decide, by decide⟩, ⟨"visits", by decide, by decide⟩⟩

def visitsRequest : CreateTableRequest :=
  ⟨"web", "visits", ⟨[⟨"id", .int64, true⟩], [], [], [], none, none, []⟩, none, .empty⟩

/-- A store and a warehouse with one database. -/
def webWorld : World := (sharedCatalog.createDatabase .none ⟨.empty, ⟨.empty⟩⟩ 1 "web" .empty).2

/-- Both clients create the table, with the ids 2 and 3. -/
def visitsClients : Clients Bool TablePhase → Bool → Option (Clients Bool TablePhase) :=
  Clients.step fun i => sharedCatalog.createTableStep .plain .none (bif i then 2 else 3) visitsRequest

/-- One after the other there is one winner. -/
theorem oneWinner_iff_visits :
    Transition.Along visitsClients (fun _ _ s' => TableWinner visitsPath s') (tableStart webWorld)
        [true, true, true, true, true, false, false] ↔
      Transition.Along visitsClients (fun s i _ => TablePutsFree visitsPath s i) (tableStart webWorld)
        [true, true, true, true, true, false, false] := by
  refine (oneWinner_iff .plain sharedCatalog (fun _ => .none) (fun i => bif i then 2 else 3) webWorld
    (by decide)).1 visitsPath (fun _ => visitsRequest) (fun _ => by decide +kernel) ?_ (fun i => ?_) _
  · exact TwoIndex.consistent_empty
  · cases i <;> rfl

/-- Both check before either writes: both succeed. -/
theorem not_tableWinner_visits :
    ¬ Transition.Along visitsClients (fun _ _ s' => TableWinner visitsPath s') (tableStart webWorld)
      ([true, true, false, false, true, true, true, false, false] ++ [false]) := by
  intro h
  have hrun : ((Transition.exec visitsClients (tableStart webWorld)
      ([true, true, false, false, true, true, true, false, false] ++ [false])).map fun s =>
        decide ((s.phase true).abstract = .won) && decide ((s.phase false).abstract = .won)) = some true := by
    decide +kernel
  obtain ⟨s, hexec, hboth⟩ := Option.map_eq_some_iff.mp hrun
  obtain ⟨_, hwinner⟩ := Transition.last_of_along h hexec
  rw [Bool.and_eq_true, decide_eq_true_eq, decide_eq_true_eq] at hboth
  have := atMostOne_of_tableWinner hwinner true false hboth.1 hboth.2
  cases this

end BrewDB.Catalog

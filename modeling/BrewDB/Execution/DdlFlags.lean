import BrewDB.Execution.Statements

/-!
# Names and flags of DROP and CREATE

Reference: `bind_drop_statement` of `brewdb-planner/src/logical/ddl.rs`, and `execute_brewdb_extension`,
`create_table` and `drop_table` of `brewdb-execution/src/runtime/coordinator.rs`.

The names of a `DROP` behind the first are never looked at, and of the flags only the one of `DROP TABLE` is, by
the planner. In every state that the catalogs reach, this says when a statement keeps to its names and flags.
-/

namespace BrewDB.Catalog

/-! ## Names and flags -/

/-- A `DROP` that keeps to its flag. -/
structure DropFlags (ifExists : Bool) (missing removable : ObjectName → Prop) (names : List ObjectName)
    (succeeds unchanged : Prop) : Prop where
  lenient : ifExists = true → (∀ name ∈ names, missing name) → succeeds ∧ unchanged
  tolerant : ifExists = true → (∀ name ∈ names, missing name ∨ removable name) → succeeds
  strict : ifExists = false → (∃ name ∈ names, missing name) → ¬ succeeds
  otherwise : ifExists = false → (∀ name ∈ names, removable name) → succeeds

/-- A `DROP TABLE` that keeps to its names. -/
structure DropsNamed (session : PlanningSession) (names : List ObjectName) (before after : MemoryCatalogStore) :
    Prop where
  gone : ∀ name ∈ names, ∀ path, tablePathOf session name = some path → after.getTable path = none
  others : ∀ path, (∀ name ∈ names, tablePathOf session name ≠ some path) →
    after.getTable path = before.getTable path

/-- A `CREATE` that keeps to its flag. -/
structure CreateFlags (ifNotExists : Bool) (present accepted creatable succeeds unchanged : Prop) : Prop where
  lenient : ifNotExists = true → present → accepted → succeeds ∧ unchanged
  strict : ifNotExists = false → present → ¬ succeeds
  otherwise : ifNotExists = false → ¬ present → creatable → succeeds

section

variable (rules : PaimonRules) (faults : Faults) (uuid : Uuid) (session : PlanningSession)
  (service : CatalogService)

/-- A statement that keeps to its names and flags. The parser makes no `DROP` without names. -/
def Honours : DdlRequest → Prop
  | .drop .table ifExists (name :: rest) =>
      let request := DdlRequest.drop .table ifExists (name :: rest)
      (Succeeds rules faults uuid session service request →
        DropsNamed session (name :: rest) service.world.store
          (runDdl rules faults uuid session service request).2.world.store) ∧
      DropFlags ifExists (MissingTable session service) (RemovableTable faults session service) (name :: rest)
        (Succeeds rules faults uuid session service request) (Unchanged rules faults uuid session service request)
  | .drop .database ifExists (name :: rest) =>
      let request := DdlRequest.drop .database ifExists (name :: rest)
      DropFlags ifExists (MissingDatabase session service) (RemovableDatabase faults session service)
        (name :: rest) (Succeeds rules faults uuid session service request)
        (Unchanged rules faults uuid session service request)
  | .createTable ifNotExists create =>
      let request := DdlRequest.createTable ifNotExists create
      CreateFlags ifNotExists (PresentTable session service create.name)
        ((planDdl service session request).isOk = true)
        (CreatableTable faults session service rules uuid create)
        (Succeeds rules faults uuid session service request) (Unchanged rules faults uuid session service request)
  | .createDatabase ifNotExists name =>
      let request := DdlRequest.createDatabase ifNotExists name
      CreateFlags ifNotExists (PresentDatabase session service name)
        ((planDdl service session request).isOk = true)
        (CreatableDatabase faults session service name)
        (Succeeds rules faults uuid session service request) (Unchanged rules faults uuid session service request)
  | _ => True

end

/-- What keeps a statement to its names and flags. -/
def HonouredWhen (faults : Faults) (session : PlanningSession) (service : CatalogService) : DdlRequest → Prop
  | .drop .table ifExists (name :: rest) =>
      (ifExists = true → SkippedTable session service name → ∀ other ∈ name :: rest, ∀ path,
        tablePathOf session other = some path → service.world.store.getTable path = none) ∧
      (RemovableTable faults session service name → ∀ other ∈ rest, ∀ path,
        tablePathOf session other = some path → (service.world.store.getTable path).isSome = true →
        tablePathOf session name = some path) ∧
      (ifExists = false → RemovableTable faults session service name →
        ∀ other ∈ rest, ¬ MissingTable session service other)
  | .drop .database ifExists (name :: rest) =>
      (ifExists = true → MissingDatabase session service name → ∃ other ∈ rest,
        ¬ (MissingDatabase session service other ∨ RemovableDatabase faults session service other)) ∧
      (ifExists = false → RemovableDatabase faults session service name →
        ∀ other ∈ rest, ¬ MissingDatabase session service other)
  | .createTable ifNotExists create =>
      ¬ (ifNotExists = true ∧ PresentTable session service create.name ∧
        (bindCreateTableStatement service session create).isOk = true)
  | .createDatabase ifNotExists name =>
      (PresentDatabase session service name →
        ifNotExists = false ∧ ¬ PrintedFree faults session service name) ∧
      (ifNotExists = false → ¬ PresentDatabase session service name →
        CreatableDatabase faults session service name → PrintedFree faults session service name)
  | _ => True

/-! ## When they are kept -/

section

variable {rules : PaimonRules} {faults : Faults} {session : PlanningSession} {service : CatalogService}
  {name : ObjectName} {uuid : Uuid} {ifExists ifNotExists : Bool} {rest : List ObjectName} {create : CreateTable}

/-- A statement that looks at its first name only keeps to all of them if the others are gone or the same. -/
theorem honours_dropTable_iff (h : service.Named) :
    Honours rules faults uuid session service (.drop .table ifExists (name :: rest)) ↔
      HonouredWhen faults session service (.drop .table ifExists (name :: rest)) := by
  have hsucceeds : Succeeds rules faults uuid session service (.drop .table ifExists (name :: rest)) ↔ _ :=
    succeeds_dropTable_iff h
  constructor
  -- What is left behind shows which names were looked at.
  · rintro ⟨hnamed, hflags⟩
    refine ⟨fun hflag hskipped other hother path hpath => ?_, fun hremovable other hother path hpath hfound => ?_,
      fun hflag hremovable other hother hmissing => ?_⟩
    · have hgone := (hnamed (hsucceeds.mpr (.inr ⟨hflag, hskipped⟩))).gone other hother path hpath
      rw [runDdl_of_skipped hflag hskipped] at hgone
      exact hgone
    · have hgone := (hnamed (hsucceeds.mpr (.inl hremovable))).gone other (List.mem_cons_of_mem _ hother) path hpath
      obtain ⟨first, hfirst, -, hstore⟩ := store_of_removable h hremovable
      rw [hstore, MemoryCatalogStore.getTable_deleteTable] at hgone
      split_ifs at hgone with hsame
      · rw [hfirst, hsame]
      · rw [hgone] at hfound
        cases hfound
    · exact hflags.strict hflag ⟨other, List.mem_cons_of_mem _ hother, hmissing⟩
        (hsucceeds.mpr (.inl hremovable))
  · rintro ⟨hskips, hremoves, hstrict⟩
    refine ⟨fun hok => ?_, ?_, ?_, ?_, ?_⟩
    -- A success has dropped the first table, or has passed over it.
    · rcases hsucceeds.mp hok with hremovable | ⟨hflag, hskipped⟩
      · obtain ⟨first, hfirst, -, hstore⟩ := store_of_removable h hremovable
        constructor
        · intro other hother path hpath
          rw [hstore, MemoryCatalogStore.getTable_deleteTable]
          split_ifs with hsame
          · rfl
          · rcases List.mem_cons.mp hother with rfl | hother
            · rw [hfirst, Option.some.injEq] at hpath
              exact absurd hpath.symm hsame
            · by_contra hsome
              have hfound := Option.ne_none_iff_isSome.mp hsome
              have hsecond := hremoves hremovable other hother path hpath hfound
              rw [hfirst, Option.some.injEq] at hsecond
              exact hsame hsecond.symm
        · intro path hother
          rw [hstore, MemoryCatalogStore.getTable_deleteTable, if_neg]
          rintro rfl
          exact hother name List.mem_cons_self hfirst
      · rw [runDdl_of_skipped hflag hskipped]
        exact ⟨hskips hflag hskipped, fun _ _ => rfl⟩
    · intro hflag hmissing
      have hskipped := (hmissing name List.mem_cons_self).skipped h
      refine ⟨hsucceeds.mpr (.inr ⟨hflag, hskipped⟩), ?_⟩
      unfold Unchanged
      rw [runDdl_of_skipped hflag hskipped]
    · intro hflag hall
      rcases hall name List.mem_cons_self with hmissing | hremovable
      · exact hsucceeds.mpr (.inr ⟨hflag, hmissing.skipped h⟩)
      · exact hsucceeds.mpr (.inl hremovable)
    · rintro hflag ⟨other, hother, hmissing⟩ hok
      rcases hsucceeds.mp hok with hremovable | ⟨hset, -⟩
      · rcases List.mem_cons.mp hother with rfl | hother
        · obtain ⟨path, hpath, -, hnone⟩ := hmissing
          obtain ⟨first, hfirst, hfound, -⟩ :=
            @store_of_removable rules faults session service other uuid ifExists rest h hremovable
          rw [hpath, Option.some.injEq] at hfirst
          rw [← hfirst, hnone] at hfound
          cases hfound
        · exact hstrict hflag hremovable other hother hmissing
      · rw [hflag] at hset
        cases hset
    · exact fun _ hall => hsucceeds.mpr (.inl (hall name List.mem_cons_self))

theorem honours_dropDatabase_iff (h : service.Named) :
    Honours rules faults uuid session service (.drop .database ifExists (name :: rest)) ↔
      HonouredWhen faults session service (.drop .database ifExists (name :: rest)) := by
  have hsucceeds : Succeeds rules faults uuid session service (.drop .database ifExists (name :: rest)) ↔ _ :=
    succeeds_dropDatabase_iff h
  have hexclusive : MissingDatabase session service name → ¬ RemovableDatabase faults session service name := by
    rintro ⟨path, hpath, -, hnone⟩ ⟨other, hother, -, hfound, -⟩
    rw [hpath, Option.some.injEq] at hother
    rw [← hother, hnone] at hfound
    cases hfound
  constructor
  · intro hflags
    refine ⟨fun hflag hmissing => ?_, fun hflag hremovable other hother hmissing => ?_⟩
    · by_contra hnone
      push Not at hnone
      refine hexclusive hmissing (hsucceeds.mp (hflags.tolerant hflag fun other hother => ?_))
      rcases List.mem_cons.mp hother with rfl | hother
      · exact .inl hmissing
      · exact hnone other hother
    · exact hflags.strict hflag ⟨other, List.mem_cons_of_mem _ hother, hmissing⟩ (hsucceeds.mpr hremovable)
  · rintro ⟨htolerant, hstrict⟩
    refine ⟨fun hflag hall => ?_, fun hflag hall => ?_, ?_, ?_⟩
    · obtain ⟨other, hother, hneither⟩ := htolerant hflag (hall name List.mem_cons_self)
      exact absurd (.inl (hall other (List.mem_cons_of_mem _ hother))) hneither
    · rcases hall name List.mem_cons_self with hmissing | hremovable
      · obtain ⟨other, hother, hneither⟩ := htolerant hflag hmissing
        exact absurd (hall other (List.mem_cons_of_mem _ hother)) hneither
      · exact hsucceeds.mpr hremovable
    · rintro hflag ⟨other, hother, hmissing⟩ hok
      have hremovable := hsucceeds.mp hok
      rcases List.mem_cons.mp hother with rfl | hother
      · exact hexclusive hmissing hremovable
      · exact hstrict hflag hremovable other hother hmissing
    · exact fun _ hall => hsucceeds.mpr (hall name List.mem_cons_self)

theorem honours_createDatabase_iff (h : service.Named) :
    Honours rules faults uuid session service (.createDatabase ifNotExists name) ↔
      HonouredWhen faults session service (.createDatabase ifNotExists name) := by
  have hsucceeds : Succeeds rules faults uuid session service (.createDatabase ifNotExists name) ↔ _ :=
    succeeds_createDatabase_iff h
  constructor
  · intro hflags
    refine ⟨fun hpresent => ?_, fun hflag habsent hcreatable =>
      hsucceeds.mp (hflags.otherwise hflag habsent hcreatable)⟩
    cases ifNotExists with
    | true =>
        -- A success would have to leave everything as it is, but it adds a database.
        obtain ⟨hok, hunchanged⟩ := hflags.lenient rfl hpresent rfl
        exact absurd hunchanged (not_unchanged_of_createDatabase h hok)
    | false => exact ⟨rfl, fun hfree => hflags.strict rfl hpresent (hsucceeds.mpr hfree)⟩
  · rintro ⟨hpresent, hcreatable⟩
    refine ⟨fun hflag hthere _ => ?_, fun _ hthere hok => (hpresent hthere).2 (hsucceeds.mp hok),
      fun hflag habsent hready => hsucceeds.mpr (hcreatable hflag habsent hready)⟩
    rw [(hpresent hthere).1] at hflag
    cases hflag

theorem honours_createTable_iff (h : service.Named) :
    Honours rules faults uuid session service (.createTable ifNotExists create) ↔
      HonouredWhen faults session service (.createTable ifNotExists create) := by
  constructor
  · rintro hflags ⟨hflag, hpresent, haccepted⟩
    have hplanned : (planDdl service session (.createTable ifNotExists create)).isOk = true := by
      rw [planDdl, isOk_map]
      exact haccepted
    exact not_succeeds_of_present h hpresent (hflags.lenient hflag hpresent hplanned).1
  · intro hnot
    refine ⟨fun hflag hpresent haccepted => ?_, fun _ hpresent => not_succeeds_of_present h hpresent,
      fun _ habsent hcreatable => succeeds_of_creatable h habsent hcreatable⟩
    rw [planDdl, isOk_map] at haccepted
    exact absurd ⟨hflag, hpresent, haccepted⟩ hnot

end

/-- In every reached state, a statement keeps to its names and flags just in these cases. -/
theorem honours_iff {rules : PaimonRules} {service : CatalogService} (hreached : service.Reached rules)
    (faults : Faults) (uuid : Uuid) (session : PlanningSession) (request : DdlRequest) :
    Honours rules faults uuid session service request ↔ HonouredWhen faults session service request := by
  cases request with
  | createDatabase ifNotExists name => exact honours_createDatabase_iff hreached.named
  | createTable ifNotExists create => exact honours_createTable_iff hreached.named
  | drop objectType ifExists names =>
      cases names with
      | nil => cases objectType <;> exact Iff.rfl
      | cons name rest =>
          cases objectType with
          | table => exact honours_dropTable_iff hreached.named
          | database => exact honours_dropDatabase_iff hreached.named
          | other display => exact Iff.rfl
  | showDatabases parent => exact Iff.rfl
  | showTables parent => exact Iff.rfl
  | use name => exact Iff.rfl

/-! ## Two tables -/

namespace CatalogService

/-- Two tables are created. -/
def twoTablesCalls : List ServiceCall :=
  [.createCatalog (catalogEntry 0 prod), .perform "prod" (.createDatabase 1 "sales" .empty) .none,
    .perform "prod" (.createTable 2 ordersRequest) .none,
    .perform "prod" (.createTable 3 { ordersRequest with tableName := "items" }) .none]

/-- The state after that. -/
def twoTables : CatalogService := twoTablesCalls.foldl (afterCall .plain) (fresh ⟨.empty⟩)

theorem reached_twoTables : twoTables.Reached .plain := ⟨⟨.empty⟩, twoTablesCalls, rfl⟩

end CatalogService

/-- A name of one part. -/
def singleName (value : String) : ObjectName := ⟨[.identifier ⟨value, none⟩]⟩

/-- One table of two. -/
theorem honours_iff_oneTable :
    Honours .plain .none 4 ⟨"prod", "sales"⟩ CatalogService.twoTables
      (.drop .table false [singleName "orders"]) := by
  refine (honours_iff CatalogService.reached_twoTables .none 4 ⟨"prod", "sales"⟩
    (.drop .table false [singleName "orders"])).mpr ⟨?_, ?_, ?_⟩
  · intro hflag
    cases hflag
  · intro _ other hother
    cases hother
  · intro _ _ other hother
    cases hother

/-- `DROP TABLE orders, items` leaves `items`. -/
theorem not_honours_twoTables :
    CatalogService.twoTables.Reached .plain ∧
      ¬ Honours .plain .none 4 ⟨"prod", "sales"⟩ CatalogService.twoTables
        (.drop .table false [singleName "orders", singleName "items"]) := by
  refine ⟨CatalogService.reached_twoTables, fun h => ?_⟩
  have hok : (runDdl .plain .none 4 ⟨"prod", "sales"⟩ CatalogService.twoTables
      (.drop .table false [singleName "orders", singleName "items"])).1.isOk = true := by decide +kernel
  have hleft : ((tablePathOf ⟨"prod", "sales"⟩ (singleName "items")).bind
      (runDdl .plain .none 4 ⟨"prod", "sales"⟩ CatalogService.twoTables
        (.drop .table false [singleName "orders", singleName "items"])).2.world.store.getTable).isSome = true := by
    decide +kernel
  obtain ⟨entry, hentry⟩ := Option.isSome_iff_exists.mp hleft
  obtain ⟨path, hpath, hfound⟩ := Option.bind_eq_some_iff.mp hentry
  have hgone := (h.1 hok).gone (singleName "items") (by simp) path hpath
  rw [hgone] at hfound
  cases hfound

end BrewDB.Catalog

import BrewDB.Catalog.Path
import BrewDB.Common.AsciiCase
import BrewDB.Planner.Ast
import BrewDB.Planner.TableCatalogs
import BrewDB.Runtime.Channels
import BrewDB.Runtime.LocalFragment

/-!
# Statements that write

Reference: `brewdb-planner/src/logical/mutation.rs`, the fragment planners of
`brewdb-planner/src/distributed/fragment.rs`, `SqlDriver::new` of `brewdb-execution/src/runtime/driver.rs`,
`QueryCoordinator::build_fragment_instances` of `coordinator.rs` and `normalize_file_path` of
`brewdb-common/src/utils.rs`.

`INSERT` and `COPY FROM` are planned as one node that appends its input to a table. On a worker the table is looked up
again by the last part of its name, among the tables of the statement. It is found because the target is the first of
them; the file of a `COPY` comes after it and is lost, in a second pass, to a target of the same name.
-/

namespace BrewDB

/-! ## Planning -/

/-- The calls of the planning of writes that may fail, and what they return. `σ` are the expressions of the syntax. -/
structure MutationEnv (σ : Type) where
  /-- `bind_expr_with_context`, in a context without tables. -/
  bindExpr : σ → Except PlannerError Expr
  tableEngine : TableCatalogEntry → Except StorageError Unit
  /-- The column names of a table, and its columns as DataFusion's schema. -/
  columns : TableCatalogEntry → List String
  arrowSchema : TableCatalogEntry → Except PlannerError DFSchema
  /-- DataFusion's builder of `VALUES`: the rows with their casts, and their columns. -/
  values : List (List Expr) → Option DFSchema → Except PlannerError (List (List Expr) × DFSchema)
  project : DFSchema → List Expr → Except PlannerError DFSchema
  scan : String → TableCatalogEntry → Except PlannerError DFSchema
  /-- Whether there is a file, as `fs::metadata` tells. -/
  isFile : String → Except String Bool
  /-- The id drawn for the table of a file. -/
  fileId : Uuid
  /-- The columns of a DML node: the number of rows. -/
  countSchema : DFSchema

/-- The source of an `INSERT`; anything but `VALUES` only by its text. -/
inductive InsertSource (σ : Type) where
  | values (rows : List (List σ))
  | other (text : String)

/-- `Insert`, as far as the planner reads it. -/
structure Insert (σ : Type) where
  columns : List ObjectName
  source : Option (InsertSource σ)

/-- The plan that appends `input` to a table, named in full. -/
def insertPlan (countSchema : DFSchema) (target : TableCatalogEntry) (input : LogicalPlan) : LogicalPlan :=
  .other (.dml target.path.reference (.default target) countSchema) [input]

section Planning

variable {σ : Type} (env : MutationEnv σ) (target : TableCatalogEntry)

/-- `validate_insert_columns`. -/
def validateInsertColumns (columns : List ObjectName) : Except PlannerError Unit :=
  if columns.isEmpty then .ok ()
  else if columns.length = (env.columns target).length &&
      ((columns.map ObjectName.toString).zip (env.columns target)).all fun pair => AsciiCase.Same pair.1 pair.2 then
    .ok ()
  else .error (.unsupportedPlan ("INSERT VALUES currently requires either no column list or the full target " ++
    "column list in table order"))

/-- The projection that names the columns of `VALUES` after the table's. -/
def insertProjection : List Expr :=
  (env.columns target).zipIdx.map fun field =>
    .aliasExpr (.column ⟨none, "column" ++ toString (field.2 + 1)⟩) field.1

/-- `build_values_plan`. -/
def buildValuesPlan (rows : List (List σ)) (schema : Option DFSchema) : Except PlannerError LogicalPlan := do
  let rows ← rows.mapM fun row => row.mapM env.bindExpr
  let (rows, schema) ← env.values rows (schema.filter fun schema => !schema.qualifiedFields.isEmpty)
  return .other (.values rows schema) []

/-- `build_values_input`. -/
def buildValuesInput (columns : List ObjectName) (rows : List (List σ)) : Except PlannerError LogicalPlan := do
  validateInsertColumns env target columns
  let schema ← env.arrowSchema target
  let valuesPlan ← buildValuesPlan env rows (some schema)
  let schema ← env.project valuesPlan.schema (insertProjection env target)
  return .unary (.projection (insertProjection env target) schema) valuesPlan

/-- `build_insert_input`. -/
def buildInsertInput (insert : Insert σ) : Except PlannerError LogicalPlan :=
  match insert.source with
  | none => .error (.invalidPlan "INSERT statement requires an input source")
  | some (.values rows) => buildValuesInput env target insert.columns rows
  | some (.other text) => .error (.unsupportedPlan ("unsupported insert source `" ++ text ++ "`"))

/-- `table_source_for_catalog`. -/
def tableSourceForCatalog (table : TableCatalogEntry) : Except PlannerError TableSource :=
  ((env.tableEngine table).map fun _ => .default table).mapError fun error => .invalidPlan error.toString

/-- `plan_insert_statement`. -/
def planInsertStatement (insert : Insert σ) : Except PlannerError LogicalPlan := do
  let input ← buildInsertInput env target insert
  let source ← tableSourceForCatalog env target
  return .other (.dml target.path.reference source env.countSchema) [input]

/-- `Path::file_name`: the last component, unless it goes up. -/
def fileName (path : String) : Option String :=
  match ((path.toList.splitOn '/').filter fun component => component ≠ [] && component ≠ ['.']).getLast? with
  | some ['.', '.'] => none
  | last => last.map String.ofList

/-- `normalize_file_path`. -/
def normalizeFilePath (path : String) : String :=
  let chars := ((fileName path).getD "file").toList.map fun ch => if ch.isAlphanum || ch = '_' then ch.toLower else '_'
  let trimmed := ((chars.dropWhile (· = '_')).reverse.dropWhile (· = '_')).reverse
  if trimmed.isEmpty then "file" else String.ofList trimmed

/-- `TableCatalogEntry::temporary_file_with_schema`. -/
def temporaryFile (name : String) : Except PlannerError TableCatalogEntry := do
  let path ← (Catalog.TablePath.new "__temporary" "__file" name).mapError fun error => .invalidPlan error.toString
  return ⟨env.fileId, ⟨path.catalog.value, path.database.value, path.table.value⟩⟩

/-- `ensure_copy_from_single_file`. -/
def ensureCopyFromSingleFile (location : String) : Except PlannerError Unit :=
  match env.isFile location with
  | .error error => .error (.invalidPlan error)
  | .ok true => .ok ()
  | .ok false => .error (.invalidPlan ("COPY FROM expects a single file: " ++ location))

/-- `plan_copy_from_file_statement`. -/
def planCopyFromFileStatement (filename : String) : Except PlannerError LogicalPlan := do
  ensureCopyFromSingleFile env filename
  let targetSource ← tableSourceForCatalog env target
  let sourceTable ← temporaryFile env (normalizeFilePath filename)
  let source ← tableSourceForCatalog env sourceTable
  let schema ← env.scan (normalizeFilePath filename) sourceTable
  return .other (.dml target.path.reference targetSource env.countSchema)
    [.tableScan ⟨.bare (normalizeFilePath filename), source, none, [], none, schema⟩]

end Planning

/-! ## From the plan to the workers -/

/-- A distributed plan with the tables of its statement. -/
structure StatementPlan where
  plan : DistributedFragmentPlan
  tableCatalogs : List TableCatalogEntry

/-- `StandaloneFragmentPlanner::plan_fragments`. -/
def StandaloneFragmentPlanner.planFragments (env : PlannerEnv) (p : LogicalPlan) :
    Except PlannerError StatementPlan := do
  let tableScanSplits ← collectTableScanSplits env.engines p
  let fragmentScanSplits := if tableScanSplits.isEmpty then [] else [⟨0, tableScanSplits⟩]
  return ⟨⟨[⟨0, .root, some p, some p⟩], fragmentScanSplits, []⟩, collectTableCatalogs p⟩

/-- `DistributedFragmentPlanner::plan_fragments`. -/
def DistributedFragmentPlanner.planFragments (env : PlannerEnv) (p : LogicalPlan) :
    Except PlannerError StatementPlan := do
  let plan ← build env p
  return ⟨plan, collectTableCatalogs p⟩

/-- `is_single_node`. -/
def isSingleNode : List WorkerInfo → Bool
  | [_] => true
  | _ => false

/-- The fragment planner `SqlDriver::new` takes for the workers there are. -/
def SqlDriver.planFragments (workers : List WorkerInfo) (env : PlannerEnv) (p : LogicalPlan) :
    Except PlannerError StatementPlan :=
  if isSingleNode workers then StandaloneFragmentPlanner.planFragments env p
  else DistributedFragmentPlanner.planFragments env p

/-- `build_fragment_instances`, with the scheduler's first-worker selection. Both errors are reported by their text. -/
def buildFragmentInstances (newV4 : ℕ → Uuid) (workers : List WorkerInfo) (planned : StatementPlan) :
    Except (FragmentSchedulerError ⊕ ExchangeRuntimeError) (List FragmentInstance) := do
  let graph ← (schedule firstWorkerSelector newV4 (.fromPlanFragments planned.plan.fragments)
    planned.plan.fragmentScanSplits workers).mapError .inl
  (buildFragmentInstancesFromGraph graph planned.plan.exchanges planned.tableCatalogs).mapError .inr

/-- The local plan `LocalFragmentExecutor::execute_fragment` prepares for an instance. -/
def FragmentInstance.prepare (env : LocalPlannerEnv) (passes : ℕ) (inst : FragmentInstance) :
    Except PlannerError LocalFragmentPlan :=
  LocalFragmentPlan.prepare env passes inst.executionFragment.fragment inst.tableCatalogs inst.tableScanSplit

/-! ## The plan of a write -/

/-- A column list is taken if it is the table's, up to case, or missing. -/
theorem validateInsertColumns_eq_ok_iff {σ : Type} {env : MutationEnv σ} {target : TableCatalogEntry}
    {columns : List ObjectName} :
    validateInsertColumns env target columns = .ok () ↔
      columns = [] ∨ List.Forall₂ (fun name column => AsciiCase.Same name.toString column) columns
        (env.columns target) := by
  rw [validateInsertColumns]
  split_ifs with hempty hnames
  · exact iff_of_true rfl (.inl (List.isEmpty_iff.mp hempty))
  · refine iff_of_true rfl (.inr ?_)
    rw [Bool.and_eq_true, decide_eq_true_iff] at hnames
    obtain ⟨hlength, hall⟩ := hnames
    rw [List.forall₂_iff_zip]
    refine ⟨hlength, fun hmem => ?_⟩
    have hzip := List.all_eq_true.mp hall
    rw [List.zip_map_left] at hzip
    exact of_decide_eq_true (hzip _ (List.mem_map_of_mem hmem))
  · refine iff_of_false (fun h => by cases h) ?_
    rintro (rfl | hsame)
    · exact hempty rfl
    · refine hnames ?_
      rw [Bool.and_eq_true, decide_eq_true_iff]
      refine ⟨hsame.length_eq, List.all_eq_true.mpr ?_⟩
      rw [List.zip_map_left]
      intro pair hpair
      obtain ⟨⟨name, column⟩, hmem, rfl⟩ := List.mem_map.mp hpair
      exact decide_eq_true ((List.forall₂_iff_zip.mp hsame).2 hmem)

section Planned

variable {σ : Type} {env : MutationEnv σ} {target : TableCatalogEntry} {p : LogicalPlan}

theorem eq_of_tableSourceForCatalog {table : TableCatalogEntry} {source : TableSource}
    (h : tableSourceForCatalog env table = .ok source) : source = .default table := by
  rw [tableSourceForCatalog, ExceptRun.mapError_eq_ok, ExceptRun.map_eq_ok] at h
  obtain ⟨_, -, rfl⟩ := h
  rfl

/-- An `INSERT` appends to its table, from an input that reads and writes no table. -/
theorem planInsertStatement_spec {insert : Insert σ} (h : planInsertStatement env target insert = .ok p) :
    ∃ input, p = insertPlan env.countSchema target input ∧ input.tableScans = [] ∧ input.dmlTargets = [] := by
  rw [planInsertStatement, ExceptRun.bind_eq_ok] at h
  obtain ⟨input, hinput, h⟩ := h
  obtain ⟨source, hsource, h⟩ := ExceptRun.bind_eq_ok.mp h
  obtain rfl := ExceptRun.pure_eq_ok.mp h
  obtain rfl := eq_of_tableSourceForCatalog hsource
  refine ⟨input, rfl, ?_⟩
  rw [buildInsertInput] at hinput
  split at hinput
  · cases hinput
  · simp only [buildValuesInput, buildValuesPlan, ExceptRun.bind_eq_ok, ExceptRun.pure_eq_ok] at hinput
    obtain ⟨_, -, _, -, _, ⟨_, -, _, -, rfl⟩, _, -, rfl⟩ := hinput
    exact ⟨rfl, rfl⟩
  · cases hinput

/-- No dot in a normalized character. -/
theorem toLower_ne_dot {ch : Char} (h : ch.isAlphanum || ch = '_') : ch.toLower ≠ '.' := by
  rw [Char.toLower]
  split_ifs with hupper
  · intro hdot
    have hval := congrArg Char.val hdot
    simp only at hval
    grind
  · rintro rfl
    exact absurd h (by decide)

/-- The name of a file is a segment of a path. -/
theorem normalizeFilePath_segment (path : String) :
    normalizeFilePath path ≠ "" ∧ '.' ∉ (normalizeFilePath path).toList := by
  rw [normalizeFilePath]
  split_ifs with hempty
  · decide
  · rw [List.isEmpty_iff] at hempty
    refine ⟨fun h => hempty ?_, fun hdot => ?_⟩
    · rw [← String.toList_inj, String.toList_ofList] at h
      exact h
    · rw [String.toList_ofList, List.mem_reverse] at hdot
      have hmem := List.mem_reverse.mp ((List.dropWhile_suffix _).subset hdot)
      obtain ⟨ch, -, hch⟩ := List.mem_map.mp ((List.dropWhile_suffix _).subset hmem)
      split_ifs at hch with hword
      · exact toLower_ne_dot hword hch
      · cases hch

/-- The table of a file is always named. -/
theorem temporaryFile_normalizeFilePath (filename : String) :
    temporaryFile env (normalizeFilePath filename) =
      .ok ⟨env.fileId, ⟨"__temporary", "__file", normalizeFilePath filename⟩⟩ := by
  rw [temporaryFile, Catalog.TablePath.new, Catalog.normalizeSegment, dif_pos (by decide), Catalog.normalizeSegment,
    dif_pos (by decide), Catalog.normalizeSegment, dif_pos (normalizeFilePath_segment filename)]
  rfl

/-- A `COPY` appends to its table what it reads from the table of the file. -/
theorem planCopyFromFileStatement_spec {filename : String}
    (h : planCopyFromFileStatement env target filename = .ok p) :
    ∃ schema, p = insertPlan env.countSchema target (.tableScan ⟨.bare (normalizeFilePath filename),
      .default ⟨env.fileId, ⟨"__temporary", "__file", normalizeFilePath filename⟩⟩, none, [], none, schema⟩) := by
  simp only [planCopyFromFileStatement, temporaryFile_normalizeFilePath, ExceptRun.bind_eq_ok, ExceptRun.pure_eq_ok,
    Except.ok.injEq] at h
  obtain ⟨_, -, targetSource, htarget, _, rfl, source, hsource, schema, -, rfl⟩ := h
  obtain rfl := eq_of_tableSourceForCatalog htarget
  obtain rfl := eq_of_tableSourceForCatalog hsource
  exact ⟨schema, rfl⟩

end Planned

/-! ## One instance -/

/-- Both fragment planners leave a write whole: it is the root fragment, and there is no other. -/
theorem SqlDriver.planFragments_insertPlan {workers : List WorkerInfo} {env : PlannerEnv} {countSchema : DFSchema}
    {target : TableCatalogEntry} {input p : LogicalPlan} {planned : StatementPlan}
    (hp : p = insertPlan countSchema target input) (h : SqlDriver.planFragments workers env p = .ok planned) :
    planned.plan.fragments = [⟨0, .root, some p, some p⟩] ∧ planned.plan.exchanges = [] ∧
      planned.tableCatalogs = collectTableCatalogs p := by
  rw [SqlDriver.planFragments] at h
  split_ifs at h
  · obtain ⟨splits, -, h⟩ := ExceptRun.bind_eq_ok.mp h
    obtain rfl := ExceptRun.pure_eq_ok.mp h
    exact ⟨rfl, rfl, rfl⟩
  · obtain ⟨plan, hbuild, h⟩ := ExceptRun.bind_eq_ok.mp h
    obtain rfl := ExceptRun.pure_eq_ok.mp h
    rw [build] at hbuild
    obtain ⟨⟨rewritten, st⟩, hrewrite, hbuild⟩ := ExceptRun.bind_eq_ok.mp hbuild
    obtain ⟨⟨_, st'⟩, hsplits, hbuild⟩ := ExceptRun.bind_eq_ok.mp hbuild
    obtain rfl := ExceptRun.pure_eq_ok.mp hbuild
    -- The node is copied, with everything below it.
    have hcopied : rewritten = p ∧ st = .new 0 := by
      rw [hp, insertPlan, rewritePlan] at hrewrite
      obtain ⟨rfl, rfl⟩ := Prod.mk.inj (Except.ok.inj hrewrite)
      exact ⟨hp.symm, rfl⟩
    obtain ⟨rfl, rfl⟩ := hcopied
    obtain ⟨splits, -, rfl⟩ := pushFragmentScanSplits_eq_ok hsplits
    exact ⟨rfl, rfl, rfl⟩

/-- A plan that is one root fragment runs as one instance, which has the tables of the statement, no split and no
channels. -/
theorem buildFragmentInstances_root {newV4 : ℕ → Uuid} {workers : List WorkerInfo} {planned : StatementPlan}
    {fragment : PlanFragment} (hfragments : planned.plan.fragments = [fragment]) (hkind : fragment.kind = .root)
    (hexchanges : planned.plan.exchanges = []) (hworkers : workers ≠ []) :
    ∃ inst, buildFragmentInstances newV4 workers planned = .ok [inst] ∧
      inst.executionFragment.fragment = fragment ∧ inst.tableScanSplit = none ∧
      inst.tableCatalogs = planned.tableCatalogs ∧ inst.exchangeInputs = [] ∧ inst.exchangeOutputs = [] := by
  have hne : planned.plan.fragments ≠ [] := by
    rw [hfragments]
    exact List.cons_ne_nil _ _
  obtain ⟨graph, hgraph, hscheduled⟩ := schedule_spec newV4 hne planned.plan.fragmentScanSplits hworkers
  have hinstances := hscheduled.instances_eq
  have hperm := hscheduled.fragments_perm
  rw [hfragments, List.map_singleton, List.perm_singleton] at hperm
  rw [hperm, assignedFragments, List.flatMap_singleton, assignedInstances,
    if_neg (by rw [hkind]; exact Bool.false_ne_true)] at hinstances
  obtain ⟨inst, hinst, hpair⟩ := List.map_eq_singleton_iff.mp hinstances
  obtain ⟨hexecution, hsplit⟩ := Prod.mk.inj hpair
  refine ⟨inst.connect [] planned.tableCatalogs, ?_, congrArg ExecutionFragment.fragment hexecution,
    hsplit, rfl, rfl, rfl⟩
  have hbuilt : buildFragmentInstancesFromGraph graph [] planned.tableCatalogs =
      .ok [inst.connect [] planned.tableCatalogs] := by
    refine buildFragmentInstancesFromGraph_eq_ok_iff.mpr ⟨[], rfl, ?_⟩
    rw [ExecutionGraph.connect, hinst]
    rfl
  rw [buildFragmentInstances, hgraph]
  refine ExceptRun.bind_eq_ok.mpr ⟨graph, rfl, ?_⟩
  rw [hexchanges, hbuilt]
  rfl

/-! ## What the instance reads and writes -/

/-- Local planning adds no scan and no target, and drops none. -/
theorem localOptimize_length {env : LocalPlannerEnv} {tables : List TableCatalogEntry}
    {tableScanSplit : Option TableScanSplit} {passes : ℕ} {p q : LogicalPlan}
    (h : localOptimize env tables tableScanSplit passes p = .ok q) :
    q.tableScans.length = p.tableScans.length ∧ q.dmlTargets.length = p.dmlTargets.length := by
  induction passes generalizing p with
  | zero =>
      obtain rfl := Except.ok.inj h
      exact ⟨rfl, rfl⟩
  | succ passes ih =>
      rw [localOptimize] at h
      obtain ⟨mid, hmid, hq⟩ := ExceptRun.bind_eq_ok.mp h
      obtain ⟨hscans, htargets⟩ := localPass_spec hmid
      rw [(ih hq).1, (ih hq).2]
      exact ⟨hscans.length_eq.symm, htargets.length_eq.symm⟩

theorem optimized_of_prepare {env : LocalPlannerEnv} {passes : ℕ} {inst : FragmentInstance} {p : LogicalPlan}
    {prepared : LocalFragmentPlan} (hplan : inst.executionFragment.fragment.localPlan = some p)
    (h : inst.prepare env passes = .ok prepared) :
    localOptimize env inst.tableCatalogs inst.tableScanSplit passes p = .ok prepared.logicalPlan := by
  rw [FragmentInstance.prepare, LocalFragmentPlan.prepare, hplan] at h
  obtain ⟨_, -, h⟩ := ExceptRun.bind_eq_ok.mp h
  obtain ⟨optimized, hoptimized, h⟩ := ExceptRun.bind_eq_ok.mp h
  obtain rfl := ExceptRun.pure_eq_ok.mp h
  exact hoptimized

/-- The only write of a plan stays on its table: it is the first of the tables, whatever else has its last part. -/
theorem dmlTargets_of_localOptimize {env : LocalPlannerEnv} {tableScanSplit : Option TableScanSplit} {passes : ℕ}
    {countSchema : DFSchema} {target : TableCatalogEntry} {input q : LogicalPlan} (hinput : input.dmlTargets = [])
    (h : localOptimize env (collectTableCatalogs (insertPlan countSchema target input)) tableScanSplit (passes + 1)
      (insertPlan countSchema target input) = .ok q) :
    q.dmlTargets = [(target.path.reference, .provider ⟨target.tableId, none⟩)] := by
  have htargets : (insertPlan countSchema target input).dmlTargets = [(target.path.reference, .default target)] := by
    simp only [insertPlan, LogicalPlan.dmlTargets, LogicalPlan.allDmlTargets, hinput]
    rfl
  have htarget : (insertPlan countSchema target input).dmlTargets[0]? =
      some (target.path.reference, .default target) := by
    rw [htargets]
    rfl
  obtain ⟨target', htarget', heq⟩ := localOptimize_target htarget h
  obtain ⟨rest, hrest⟩ := collectTableCatalogs_write target.path.reference target countSchema [input]
  rw [insertPlan, hrest, List.find?_cons_of_pos (by exact decide_eq_true rfl)] at heq
  have hlength := (localOptimize_length h).2
  rw [htargets] at hlength
  obtain ⟨only, honly⟩ := List.length_eq_one_iff.mp hlength
  rw [honly] at htarget' ⊢
  rw [Option.some.inj htarget', heq]

/-- A scan stays on its table in one pass, and in more if no other table of the statement has the last part of its
name. -/
theorem scan_of_localOptimize {env : LocalPlannerEnv} {passes i : ℕ} {p q : LogicalPlan} {scan : TableScan}
    {table : TableCatalogEntry} (hscan : p.tableScans[i]? = some scan) (hsource : scan.source = .default table)
    (hname : passes = 0 ∨ ∀ other ∈ p.sourceTables, other.path.table = scan.tableName.table →
      other.tableId = table.tableId)
    (h : localOptimize env (collectTableCatalogs p) none (passes + 1) p = .ok q) :
    ∃ bound, q.tableScans[i]? = some bound ∧ bound.source = .provider ⟨table.tableId, none⟩ := by
  obtain ⟨bound, hbound, hprovider⟩ := localOptimize_default hsource hscan h
  refine ⟨bound, hbound, hprovider.trans ?_⟩
  have htable : (if passes = 0 then table.tableId else
      (LocalTableScanRewriteRule.mk (collectTableCatalogs p) none).laterTable scan table.tableId) = table.tableId := by
    split_ifs with hpasses
    · rfl
    · rw [LocalTableScanRewriteRule.laterTable]
      cases hfound : (collectTableCatalogs p).find? (·.path.table = scan.tableName.table) with
      | none => rfl
      | some other =>
          have hother := mem_sourceTables_of_collect (List.mem_of_find?_eq_some hfound)
          have hlast : other.path.table = scan.tableName.table := by simpa using List.find?_some hfound
          exact hname.resolve_left hpasses other hother hlast
  rw [htable]
  rfl

/-- A write runs in one instance, on its whole plan, with the tables of the statement. -/
theorem instance_of_write {workers : List WorkerInfo} {env : PlannerEnv} {countSchema : DFSchema}
    {target : TableCatalogEntry} {input p : LogicalPlan} {planned : StatementPlan} (newV4 : ℕ → Uuid)
    (hworkers : workers ≠ []) (hp : p = insertPlan countSchema target input)
    (hplan : SqlDriver.planFragments workers env p = .ok planned) :
    ∃ inst, buildFragmentInstances newV4 workers planned = .ok [inst] ∧
      inst.exchangeInputs = [] ∧ inst.exchangeOutputs = [] ∧
      ∀ (localEnv : LocalPlannerEnv) (passes : ℕ) (prepared : LocalFragmentPlan),
        inst.prepare localEnv passes = .ok prepared →
        localOptimize localEnv (collectTableCatalogs p) none passes p = .ok prepared.logicalPlan := by
  obtain ⟨hfragments, hexchanges, htables⟩ := SqlDriver.planFragments_insertPlan hp hplan
  obtain ⟨inst, hinst, hfragment, hsplit, hcatalogs, hinputs, houtputs⟩ :=
    @buildFragmentInstances_root newV4 workers planned _ hfragments rfl hexchanges hworkers
  refine ⟨inst, hinst, hinputs, houtputs, fun localEnv passes prepared hprepared => ?_⟩
  have hoptimized := optimized_of_prepare (congrArg PlanFragment.localPlan hfragment) hprepared
  rw [hcatalogs, hsplit, htables] at hoptimized
  exact hoptimized

theorem tableScans_insertPlan (countSchema : DFSchema) (target : TableCatalogEntry) (input : LogicalPlan) :
    (insertPlan countSchema target input).tableScans = input.tableScans :=
  List.append_nil _

theorem sourceTables_insertPlan (countSchema : DFSchema) (target : TableCatalogEntry) (input : LogicalPlan) :
    (insertPlan countSchema target input).sourceTables = target :: input.sourceTables :=
  congrArg (target :: ·) (List.append_nil _)

/-- On one worker or many, a write runs in one instance, without channels. Whatever the number of passes, the instance
appends to the table of the statement, also if other tables have its last name part; and the tables of the input are
read in full, each of them itself in one pass, and in more if its name is not another table's. -/
theorem write_runs_once {workers : List WorkerInfo} {env : PlannerEnv} {countSchema : DFSchema}
    {target : TableCatalogEntry} {input : LogicalPlan} {planned : StatementPlan} (newV4 : ℕ → Uuid)
    (hworkers : workers ≠ []) (hinput : input.dmlTargets = [])
    (hplan : SqlDriver.planFragments workers env (insertPlan countSchema target input) = .ok planned) :
    ∃ inst, buildFragmentInstances newV4 workers planned = .ok [inst] ∧
      inst.exchangeInputs = [] ∧ inst.exchangeOutputs = [] ∧
      ∀ (localEnv : LocalPlannerEnv) (passes : ℕ) (prepared : LocalFragmentPlan),
        inst.prepare localEnv (passes + 1) = .ok prepared →
        prepared.logicalPlan.dmlTargets = [(target.path.reference, .provider ⟨target.tableId, none⟩)] ∧
        prepared.logicalPlan.tableScans.length = input.tableScans.length ∧
        ∀ (i : ℕ) (scan : TableScan) (table : TableCatalogEntry), input.tableScans[i]? = some scan →
          scan.source = .default table →
          (passes = 0 ∨ ∀ other ∈ target :: input.sourceTables, other.path.table = scan.tableName.table →
            other.tableId = table.tableId) →
          ∃ bound, prepared.logicalPlan.tableScans[i]? = some bound ∧
            bound.source = .provider ⟨table.tableId, none⟩ := by
  obtain ⟨inst, hinst, hinputs, houtputs, hrun⟩ := instance_of_write newV4 hworkers rfl hplan
  refine ⟨inst, hinst, hinputs, houtputs, fun localEnv passes prepared hprepared => ?_⟩
  have hoptimized := hrun localEnv (passes + 1) prepared hprepared
  refine ⟨dmlTargets_of_localOptimize hinput hoptimized, ?_, fun i scan table hscan hsource hname => ?_⟩
  · rw [(localOptimize_length hoptimized).1, tableScans_insertPlan]
  · rw [← tableScans_insertPlan countSchema target input] at hscan
    rw [← sourceTables_insertPlan countSchema target input] at hname
    exact scan_of_localOptimize hscan hsource hname hoptimized

namespace Sample

/-- Two workers. -/
def twoWorkers : List WorkerInfo := [⟨10, "rpc://worker-0"⟩, ⟨11, "rpc://worker-1"⟩]

end Sample

/-- `INSERT INTO archive.orders SELECT * FROM orders` on two workers, in two passes. -/
theorem write_runs_once_archive : ∃ planned inst prepared,
    SqlDriver.planFragments Sample.twoWorkers Sample.env (insertPlan ⟨[]⟩ Sample.oldOrders Sample.scanOrders) =
      .ok planned ∧
    buildFragmentInstances id Sample.twoWorkers planned = .ok [inst] ∧
    inst.prepare Sample.localEnv 2 = .ok prepared ∧
    prepared.logicalPlan.dmlTargets =
      [(Sample.oldOrders.path.reference, .provider ⟨Sample.oldOrders.tableId, none⟩)] := by
  refine ⟨_, _, _, rfl, rfl, rfl, ?_⟩
  obtain ⟨inst, hinst, -, -, hwrites⟩ := @write_runs_once Sample.twoWorkers Sample.env ⟨[]⟩ Sample.oldOrders
    Sample.scanOrders _ id (List.cons_ne_nil _ _) rfl rfl
  obtain rfl := List.head_eq_of_cons_eq (Except.ok.inj hinst)
  exact (hwrites Sample.localEnv 1 _ rfl).1

/-- The only scan of a write from a file: later passes find the target first, if it has the name of the file. -/
theorem scan_of_copy {env : LocalPlannerEnv} {passes : ℕ} {countSchema : DFSchema} {target : TableCatalogEntry}
    {fileId : Uuid} {catalog database name : String} {file : TableScan} {q : LogicalPlan}
    (hname : file.tableName = .bare name) (hsource : file.source = .default ⟨fileId, ⟨catalog, database, name⟩⟩)
    (h : localOptimize env (collectTableCatalogs (insertPlan countSchema target (.tableScan file))) none (passes + 1)
      (insertPlan countSchema target (.tableScan file)) = .ok q) :
    ∃ bound, q.tableScans = [bound] ∧ bound.source =
      .provider ⟨if passes = 0 ∨ name ≠ target.path.table then fileId else target.tableId, none⟩ := by
  have hscans : (insertPlan countSchema target (.tableScan file)).tableScans = [file] :=
    tableScans_insertPlan countSchema target (.tableScan file)
  have hlength := (localOptimize_length h).1
  rw [hscans] at hlength
  obtain ⟨bound, hbound⟩ := List.length_eq_one_iff.mp hlength
  have hscan : (insertPlan countSchema target (.tableScan file)).tableScans[0]? = some file := by rw [hscans]; rfl
  refine ⟨bound, hbound, ?_⟩
  split_ifs with hkept
  · have hapart : name ≠ target.path.table → ∀ other ∈ (insertPlan countSchema target (.tableScan file)).sourceTables,
        other.path.table = file.tableName.table → other.tableId = fileId := by
      -- The tables of the statement are the target, of another name, and the file.
      intro hne other hother hlast
      rw [hname] at hlast
      rw [sourceTables_insertPlan, LogicalPlan.sourceTables, hsource] at hother
      rcases List.mem_cons.mp hother with rfl | hother
      · exact absurd hlast.symm hne
      · rw [List.mem_singleton.mp hother]
    obtain ⟨other, hother, hprovider⟩ := scan_of_localOptimize hscan hsource (hkept.imp_right hapart) h
    rw [hbound] at hother
    rw [Option.some.inj hother, hprovider]
  · obtain ⟨hpasses, hsame⟩ := not_or.mp hkept
    obtain ⟨other, hother, hprovider⟩ := localOptimize_default hsource hscan h
    obtain ⟨rest, hrest⟩ := collectTableCatalogs_write target.path.reference target countSchema [.tableScan file]
    have htarget : (collectTableCatalogs (insertPlan countSchema target (.tableScan file))).find?
        (·.path.table = file.tableName.table) = some target := by
      rw [insertPlan, hrest, hname]
      exact List.find?_cons_of_pos (decide_eq_true (not_not.mp hsame).symm)
    rw [hbound] at hother
    rw [Option.some.inj hother, hprovider, if_neg hpasses, LocalTableScanRewriteRule.laterTable, htarget]
    rfl

/-- DataFusion's optimizer keeps a write of what a scan reads: the target, and the name and the source of the scan. -/
def KeepsCopies (optimize : LogicalPlan → Except PlannerError LogicalPlan) : Prop :=
  ∀ (countSchema : DFSchema) (target : TableCatalogEntry) (scan : TableScan) (q : LogicalPlan), scan.filters = [] →
    optimize (insertPlan countSchema target (.tableScan scan)) = .ok q →
    ∃ scan', q = insertPlan countSchema target (.tableScan scan') ∧ scan'.tableName = scan.tableName ∧
      scan'.source = scan.source

/-- A `COPY` runs in one instance, which appends to the table of the statement. It reads the file in the first pass;
in a later one the file is lost if its normalized name is the name of the table, which is then copied into itself. -/
theorem copy_reads_file {σ : Type} {mutation : MutationEnv σ} {workers : List WorkerInfo} {env : PlannerEnv}
    {target : TableCatalogEntry} {filename : String} {optimize : LogicalPlan → Except PlannerError LogicalPlan}
    {p q : LogicalPlan} {planned : StatementPlan} (newV4 : ℕ → Uuid) (hworkers : workers ≠ [])
    (hkeeps : KeepsCopies optimize) (hcopy : planCopyFromFileStatement mutation target filename = .ok p)
    (hoptimize : optimize p = .ok q) (hplan : SqlDriver.planFragments workers env q = .ok planned) :
    ∃ inst, buildFragmentInstances newV4 workers planned = .ok [inst] ∧
      ∀ (localEnv : LocalPlannerEnv) (passes : ℕ) (prepared : LocalFragmentPlan),
        inst.prepare localEnv (passes + 1) = .ok prepared →
        prepared.logicalPlan.dmlTargets = [(target.path.reference, .provider ⟨target.tableId, none⟩)] ∧
        ∃ bound, prepared.logicalPlan.tableScans = [bound] ∧ bound.source =
          .provider ⟨if passes = 0 ∨ normalizeFilePath filename ≠ target.path.table then mutation.fileId
            else target.tableId, none⟩ := by
  obtain ⟨schema, rfl⟩ := planCopyFromFileStatement_spec hcopy
  obtain ⟨file, rfl, hname, hsource⟩ := hkeeps _ _ _ _ rfl hoptimize
  obtain ⟨inst, hinst, -, -, hrun⟩ := instance_of_write newV4 hworkers rfl hplan
  refine ⟨inst, hinst, fun localEnv passes prepared hprepared => ?_⟩
  have hoptimized := hrun localEnv (passes + 1) prepared hprepared
  exact ⟨dmlTargets_of_localOptimize rfl hoptimized, scan_of_copy hname hsource hoptimized⟩

namespace Sample

/-- Every file is there, and every table is opened; files become table 7. -/
def mutationEnv : MutationEnv String where
  bindExpr text := .ok (.literal (.string text))
  tableEngine _ := .ok ()
  columns _ := ["id", "amount"]
  arrowSchema _ := .ok ⟨[(none, ⟨"id", .int64, false⟩), (none, ⟨"amount", .int64, true⟩)]⟩
  values rows schema := .ok (rows, schema.getD ⟨[]⟩)
  project schema _ := .ok schema
  scan _ _ := .ok ⟨[(none, ⟨"id", .int64, false⟩), (none, ⟨"amount", .int64, true⟩)]⟩
  isFile _ := .ok true
  fileId := 7
  countSchema := ⟨[]⟩

/-- The columns a scan below a write is asked for: all of them. -/
def optimizeScan : LogicalPlan → Except PlannerError LogicalPlan
  | .other (.dml tableName target schema) [.tableScan scan] => .ok (.other (.dml tableName target schema)
      [.tableScan { scan with projection := some (List.range scan.projectedSchema.qualifiedFields.length) }])
  | p => .ok p

end Sample

/-- `COPY orders FROM '/tmp/orders'` on two workers, in two passes, reads `orders`. -/
theorem copy_reads_file_orders : ∃ p q planned inst prepared bound,
    planCopyFromFileStatement Sample.mutationEnv Sample.orders "/tmp/orders" = .ok p ∧
    Sample.optimizeScan p = .ok q ∧
    SqlDriver.planFragments Sample.twoWorkers Sample.env q = .ok planned ∧
    buildFragmentInstances id Sample.twoWorkers planned = .ok [inst] ∧
    inst.prepare Sample.localEnv 2 = .ok prepared ∧
    prepared.logicalPlan.tableScans = [bound] ∧ bound.source = .provider ⟨Sample.orders.tableId, none⟩ := by
  have hname : normalizeFilePath "/tmp/orders" = Sample.orders.path.table := by decide +kernel
  have hcopy : planCopyFromFileStatement Sample.mutationEnv Sample.orders "/tmp/orders" = .ok (insertPlan ⟨[]⟩
      Sample.orders (.tableScan ⟨.bare (normalizeFilePath "/tmp/orders"), .default ⟨7, ⟨"__temporary", "__file",
        normalizeFilePath "/tmp/orders"⟩⟩, none, [], none,
        ⟨[(none, ⟨"id", .int64, false⟩), (none, ⟨"amount", .int64, true⟩)]⟩⟩)) := by
    simp only [planCopyFromFileStatement, temporaryFile_normalizeFilePath]
    rfl
  have hkeeps : KeepsCopies Sample.optimizeScan := by
    intro countSchema target scan q _ hoptimize
    exact ⟨_, (Except.ok.inj hoptimize).symm, rfl, rfl⟩
  refine ⟨_, _, _, _, _, _, hcopy, rfl, rfl, rfl, rfl, rfl, ?_⟩
  obtain ⟨inst, hinst, hreads⟩ := @copy_reads_file _ Sample.mutationEnv Sample.twoWorkers Sample.env Sample.orders
    "/tmp/orders" Sample.optimizeScan _ _ _ id (List.cons_ne_nil _ _) hkeeps hcopy rfl rfl
  obtain rfl := List.head_eq_of_cons_eq (Except.ok.inj hinst)
  obtain ⟨-, bound, hbound, hsource⟩ := hreads Sample.localEnv 1 _ rfl
  obtain rfl := List.head_eq_of_cons_eq hbound
  rw [hsource, if_neg]
  exact not_or.mpr ⟨one_ne_zero, not_not.mpr hname⟩

end BrewDB

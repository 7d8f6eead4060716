import BrewDB.Planner.Exchange
import BrewDB.Storage.TableEngine

/-!
# The distributed plan builder

Reference: `brewdb-planner/src/distributed/fragment.rs`.

`DistributedPlanBuilder::build` cuts a logical plan below every `Aggregate` and on both sides of every
`Join`: the cut-off input becomes a fragment of its own, an exchange connects it to the fragment of
the operator, and a remote source takes its place. Every other rewritten operator stays in the
fragment it is found in.

DataFusion's checking constructors, the storage engines behind the scans and the iteration order of
hash sets are parameters (`PlannerEnv`). The builder's mutable fields are an explicit state.
-/

namespace BrewDB

/-- Planner failures, each with its reason. -/
inductive PlannerError where
  | invalidPlan (reason : String)
  | unsupportedPlan (reason : String)
  | plan (reason : String)
  | schema (reason : String)
  | internal (reason : String)
  | execution (reason : String)
  | external (reason : String)
  | notImplemented (reason : String)
deriving DecidableEq, Repr

/-- The role of a fragment. -/
inductive PlanFragmentKind where
  | source
  | intermediate
  | root
deriving DecidableEq, Repr

/-- One fragment of a distributed plan. -/
structure PlanFragment where
  fragmentId : PlanFragmentId
  kind : PlanFragmentKind
  root : Option LogicalPlan
  localPlan : Option LogicalPlan

/-- The scan splits planned for one fragment. -/
structure FragmentScanSplits where
  fragmentId : PlanFragmentId
  tableScanSplits : TableScanSplitGroup

/-- Fragments, scan splits and exchanges of a planned query. The query context, catalog entries and
command tag are passed through by the builder and left out. -/
structure DistributedFragmentPlan where
  fragments : List PlanFragment
  fragmentScanSplits : List FragmentScanSplits
  exchanges : List ExchangeNode

/-! ## DataFusion's node constructors

Each checks its parts and may fail; those without a given schema compute one. The node that results
holds the given parts. -/

/-- The constructors the rewriter rebuilds nodes with. -/
structure PlanConstructors where
  projectionTryNewWithSchema : List Expr → DFSchema → DFSchema → Except PlannerError Unit
  filterTryNew : Expr → DFSchema → Except PlannerError Unit
  subqueryAliasTryNew : DFSchema → TableReference → Except PlannerError DFSchema
  windowTryNewWithSchema : List Expr → DFSchema → DFSchema → Except PlannerError Unit
  unionTryNewWithLooseTypes : List DFSchema → Except PlannerError DFSchema
  distinctOnTryNew : List Expr → List Expr → Option (List SortExpr) → DFSchema →
    Except PlannerError DFSchema
  aggregateTryNewWithSchema : DFSchema → List Expr → List Expr → DFSchema →
    Except PlannerError DFSchema
  joinTryNew : DFSchema → DFSchema → Join → Except PlannerError DFSchema

namespace PlanConstructors

/-- The constructors on well-formed parts: field counts are checked, an alias requalifies its input,
a union takes the first input's columns, a join concatenates or keeps one side. -/
def standard : PlanConstructors where
  projectionTryNewWithSchema exprs _ schema :=
    if exprs.length = schema.columns.length then .ok ()
    else .error (.plan "Projection has mismatch between number of expressions and number of fields")
  filterTryNew _ _ := .ok ()
  subqueryAliasTryNew input aliasName :=
    .ok ⟨input.qualifiedFields.map fun f => (some aliasName, f.2)⟩
  windowTryNewWithSchema exprs input schema :=
    if input.columns.length + exprs.length = schema.columns.length then .ok ()
    else .error (.plan "Window has mismatch between number of expressions and number of fields")
  unionTryNewWithLooseTypes
    | first :: second :: rest =>
        if (second :: rest).all fun s => s.columns.length = first.columns.length then
          .ok ⟨first.qualifiedFields.map fun f => (none, f.2)⟩
        else .error (.plan "UNION queries have different number of columns")
    | _ => .error (.plan "UNION requires at least two inputs")
  distinctOnTryNew onExpr selectExpr _ input :=
    if onExpr.isEmpty then .error (.plan "No `ON` expressions provided")
    else .ok ⟨input.qualifiedFields.take selectExpr.length⟩
  aggregateTryNewWithSchema _ groupExpr aggrExpr schema :=
    if groupExpr.isEmpty && aggrExpr.isEmpty then
      .error (.plan "Aggregate requires at least one grouping or aggregate expression")
    else .ok schema
  joinTryNew left right join :=
    match join.joinType with
    | .leftSemi | .leftAnti => .ok left
    | .rightSemi | .rightAnti => .ok right
    | _ => .ok ⟨left.qualifiedFields ++ right.qualifiedFields⟩

end PlanConstructors

/-- Rebuild a one-input node over a new input of the given schema. -/
def UnaryNode.rebuild (df : PlanConstructors) (input : DFSchema) :
    UnaryNode → Except PlannerError UnaryNode
  | .projection expr schema => do
      df.projectionTryNewWithSchema expr input schema
      return .projection expr schema
  | .filter predicate => do
      df.filterTryNew predicate input
      return .filter predicate
  | .subqueryAlias aliasName _ => do
      return .subqueryAlias aliasName (← df.subqueryAliasTryNew input aliasName)
  | .sort expr fetch => return .sort expr fetch
  | .limit skip fetch => return .limit skip fetch
  | .repartition scheme => return .repartition scheme
  | .window windowExpr schema => do
      df.windowTryNewWithSchema windowExpr input schema
      return .window windowExpr schema
  | .distinctAll => return .distinctAll
  | .distinctOn onExpr selectExpr sortExpr _ => do
      return .distinctOn onExpr selectExpr sortExpr
        (← df.distinctOnTryNew onExpr selectExpr sortExpr input)

/-- `rebuild_aggregate`. -/
def rebuildAggregate (df : PlanConstructors) (aggregate : Aggregate) (input : LogicalPlan) :
    Except PlannerError LogicalPlan := do
  let schema ← df.aggregateTryNewWithSchema input.schema aggregate.groupExpr aggregate.aggrExpr
    aggregate.schema
  return .aggregate { aggregate with schema := schema } input

/-- `rebuild_join`. -/
def rebuildJoin (df : PlanConstructors) (join : Join) (left right : LogicalPlan) :
    Except PlannerError LogicalPlan := do
  let schema ← df.joinTryNew left.schema right.schema join
  return .join { join with schema := schema } left right

/-! ## Exchanges of the cut operators -/

/-- The columns of a list of key expressions: the members of each expression's column set, set by
set. -/
def partitionKeys (order : SetOrder) (exprs : List Expr) : List Column :=
  exprs.zipIdx.flatMap fun e => order.iter e.2 e.1.columnRefs

/-- `exchange_for_aggregate`. -/
def exchangeForAggregate (order : SetOrder) (groupExpr : List Expr) : ExchangeNode :=
  if groupExpr.isEmpty then .gather 0 0
  else .repartition 0 0 (.hash (partitionKeys order groupExpr))

/-- `exchange_for_join_side`. -/
def exchangeForJoinSide (order : SetOrder) (join : Join) (left : Bool) : ExchangeNode :=
  if join.onKeys.isEmpty then .replicate 0 0
  else .repartition 0 0 (.hash
    (partitionKeys order (join.onKeys.map fun key => if left then key.1 else key.2)))

/-! ## Scan splits -/

mutual
/-- `collect_table_scan_splits_into`: the splits of every scan, under ids in traversal order. -/
def collectTableScanSplitsInto (engines : TableCatalogEntry → TableEngine) :
    LogicalPlan → TableScanSplitGroup × TableSourceId →
      Except PlannerError (TableScanSplitGroup × TableSourceId)
  | .tableScan scan, (splits, next) =>
      match scan.source with
      | .default table =>
          match (engines table).planScan scan with
          | .error err => .error (.invalidPlan err.toString)
          | .ok planned =>
              .ok (splits.extendTableSource next (planned.intoOnlyTableSourceSplits.getD []),
                next + 1)
      | _ =>
          .ok (splits.extendTableSource next [TableScanSplit.new scan.tableName.toString 0],
            next + 1)
  | .unary _ input, st => collectTableScanSplitsInto engines input st
  | .union inputs _, st => collectInputsTableScanSplitsInto engines inputs st
  | .aggregate _ input, st => collectTableScanSplitsInto engines input st
  | .join _ left right, st => do
      collectTableScanSplitsInto engines right (← collectTableScanSplitsInto engines left st)
  | .remoteSource _ _, st => .ok st
  | .other _ inputs, st => collectInputsTableScanSplitsInto engines inputs st

/-- The loop over a node's inputs. -/
def collectInputsTableScanSplitsInto (engines : TableCatalogEntry → TableEngine) :
    List LogicalPlan → TableScanSplitGroup × TableSourceId →
      Except PlannerError (TableScanSplitGroup × TableSourceId)
  | [], st => .ok st
  | p :: ps, st => do
      collectInputsTableScanSplitsInto engines ps (← collectTableScanSplitsInto engines p st)
end

/-- `collect_table_scan_splits`. -/
def collectTableScanSplits (engines : TableCatalogEntry → TableEngine) (plan : LogicalPlan) :
    Except PlannerError TableScanSplitGroup :=
  (collectTableScanSplitsInto engines plan (.default, 0)).map Prod.fst

/-! ## The builder -/

/-- What the builder is run with: DataFusion's constructors, the engine of each table, and for each
fragment boundary (named by its source fragment) the iteration order of its key sets. -/
structure PlannerEnv where
  df : PlanConstructors
  engines : TableCatalogEntry → TableEngine
  order : PlanFragmentId → SetOrder

/-- Standard constructors, and sets listed in the order their members were found. -/
def PlannerEnv.standard (engines : TableCatalogEntry → TableEngine) : PlannerEnv :=
  ⟨.standard, engines, fun _ => .listed⟩

/-- The builder's mutable fields. -/
structure BuilderState where
  nextFragmentId : PlanFragmentId
  fragments : List PlanFragment
  fragmentScanSplits : List FragmentScanSplits
  exchanges : List ExchangeNode

/-- Builder steps. -/
abbrev BuilderM := StateT BuilderState (Except PlannerError)

/-- `fragment_kind_for_plan`. -/
def fragmentKindForPlan (plan : LogicalPlan) : PlanFragmentKind :=
  if plan.containsRemoteSource then .intermediate else .source

/-- `output_layout_for_plan`. -/
def outputLayoutForPlan (plan : LogicalPlan) : List Column := plan.schema.columns

/-- `next_fragment_id`: hand out the next id. -/
def takeFragmentId : BuilderM PlanFragmentId := fun st =>
  .ok (st.nextFragmentId, { st with nextFragmentId := st.nextFragmentId + 1 })

/-- `push_fragment_scan_splits`: a fragment whose scans have no splits is not recorded. -/
def pushFragmentScanSplits (env : PlannerEnv) (fragmentId : PlanFragmentId)
    (localPlan : LogicalPlan) : BuilderM Unit := do
  let tableScanSplits ← collectTableScanSplits env.engines localPlan
  if !tableScanSplits.isEmpty then
    modify fun st => { st with
      fragmentScanSplits := st.fragmentScanSplits ++ [⟨fragmentId, tableScanSplits⟩] }

/-- `push_fragment`: the kind is computed from the plan before rewriting. -/
def pushFragment (env : PlannerEnv) (fragmentId : PlanFragmentId)
    (originalPlan localPlan : LogicalPlan) : BuilderM Unit := do
  pushFragmentScanSplits env fragmentId localPlan
  modify fun st => { st with
    fragments := st.fragments ++
      [⟨fragmentId, fragmentKindForPlan originalPlan, none, some localPlan⟩] }

/-- The exchange that `push_exchange` records. -/
def connectExchange (source target : PlanFragmentId) (sourcePlan : LogicalPlan)
    (exchange : ExchangeNode) : ExchangeNode :=
  ⟨source, target, exchange.scope, exchange.exchangeType,
    exchange.partitioningScheme.withOutputLayout (outputLayoutForPlan sourcePlan)⟩

/-- `push_exchange`. -/
def pushExchange (source target : PlanFragmentId) (sourcePlan : LogicalPlan)
    (exchange : ExchangeNode) : BuilderM Unit :=
  modify fun st => { st with
    exchanges := st.exchanges ++ [connectExchange source target sourcePlan exchange] }

/-- `split_input_fragment`: `rewrite` rewrites `sourcePlan` inside the new fragment. -/
def splitInputFragment (env : PlannerEnv) (sourcePlan : LogicalPlan)
    (rewrite : PlanFragmentId → BuilderM LogicalPlan) (target : PlanFragmentId)
    (exchange : SetOrder → ExchangeNode) : BuilderM LogicalPlan := do
  let source ← takeFragmentId
  let rewritten ← rewrite source
  pushFragment env source sourcePlan rewritten
  pushExchange source target sourcePlan (exchange (env.order source))
  return RemoteSourceNode.plan source sourcePlan.schema

mutual
/-- `rewrite_plan`. -/
def rewritePlan (env : PlannerEnv) : LogicalPlan → PlanFragmentId → BuilderM LogicalPlan
  | .aggregate aggregate input, current => do
      let child ← splitInputFragment env input (rewritePlan env input) current
        fun order => exchangeForAggregate order aggregate.groupExpr
      rebuildAggregate env.df aggregate child
  | .join join left right, current => do
      let leftRemote ← splitInputFragment env left (rewritePlan env left) current
        fun order => exchangeForJoinSide order join true
      let rightRemote ← splitInputFragment env right (rewritePlan env right) current
        fun order => exchangeForJoinSide order join false
      rebuildJoin env.df join leftRemote rightRemote
  | .unary node input, current => do
      let input ← rewritePlan env input current
      return .unary (← node.rebuild env.df input.schema) input
  | .union inputs _, current => do
      let inputs ← rewriteInputs env inputs current
      return .union inputs (← env.df.unionTryNewWithLooseTypes (inputs.map LogicalPlan.schema))
  | .tableScan scan, _ => return .tableScan scan
  | .remoteSource ids schema, _ => return .remoteSource ids schema
  | .other node inputs, _ => return .other node inputs

/-- The inputs of a `Union`, left to right. -/
def rewriteInputs (env : PlannerEnv) :
    List LogicalPlan → PlanFragmentId → BuilderM (List LogicalPlan)
  | [], _ => return []
  | p :: ps, current => do
      let q ← rewritePlan env p current
      return q :: (← rewriteInputs env ps current)
end

/-- `DistributedPlanBuilder::new`: the root fragment is registered before its plan is known. -/
def BuilderState.new (rootFragmentId : PlanFragmentId) : BuilderState where
  nextFragmentId := rootFragmentId + 1
  fragments := [⟨rootFragmentId, .root, none, none⟩]
  fragmentScanSplits := []
  exchanges := []

/-- Fill in the plan of the root fragment (`self.fragments[0]`). -/
def setRootPlan (plan : LogicalPlan) : List PlanFragment → List PlanFragment
  | [] => []
  | fragment :: rest => { fragment with root := some plan, localPlan := some plan } :: rest

/-- `DistributedPlanBuilder::build`, for the root fragment id 0. -/
def build (env : PlannerEnv) (root : LogicalPlan) : Except PlannerError DistributedFragmentPlan := do
  let (rewritten, st) ← (rewritePlan env root 0).run (BuilderState.new 0)
  let ((), st) ← (pushFragmentScanSplits env 0 rewritten).run st
  return ⟨setRootPlan rewritten st.fragments, st.fragmentScanSplits, st.exchanges⟩

end BrewDB

import BrewDB.Select.BoundExpr

/-!
# The plan of a SELECT

Reference: `build_query_input` of `brewdb-planner/src/logical/query/select.rs`, `query/aggregate.rs` and
`query/modifier.rs`.

The clauses of a bound `SELECT` are put on top of the plan of its `FROM` clause one by one. DataFusion's
plan builder is a parameter as far as its checks are concerned: it resolves columns, rejects a sort key that
it cannot add below the projection, and checks every node.
-/

namespace BrewDB.Bound

/-! ## Bound clauses -/

/-- A sort key. -/
structure SortKey where
  expr : Expr
  asc : Bool
  nullsFirst : Bool
deriving DecidableEq

/-- `DISTINCT`. -/
inductive QueryDistinct where
  | none
  | all
  | on (exprs : List Expr)

/-- `GROUP BY`. -/
inductive QueryGroupBy where
  | none
  | all
  | expressions (exprs : List Expr)

/-- `LIMIT` and `OFFSET`. -/
structure QueryLimit where
  skip : Option Expr
  fetch : Option Expr

/-- `QueryExpression`. -/
structure QueryExpression where
  distinct : QueryDistinct
  projection : List Expr
  selection : Option Expr
  groupBy : QueryGroupBy
  having : Option Expr
  orderBy : List SortKey
  limit : Option QueryLimit

/-- The nodes over the plan of a `FROM` clause. -/
inductive SelectPlan where
  | source
  | filter (predicate : Expr) (input : SelectPlan)
  | aggregate (groupExpr aggrExpr : List Expr) (input : SelectPlan)
  | projection (exprs : List Expr) (input : SelectPlan)
  | sort (keys : List SortKey) (input : SelectPlan)
  | distinct (input : SelectPlan)
  /-- `DistinctOn` without sort keys of its own. -/
  | distinctOn (onExpr selectExpr : List Expr) (input : SelectPlan)
  | limit (skip fetch : Option Expr) (input : SelectPlan)
deriving DecidableEq

/-! ## DataFusion's plan builder -/

/-- What the plan builder knows and checks. -/
structure PlanBuilder where
  /-- `Expr::schema_name`. -/
  schemaName : Expr → String
  /-- The output columns of the `FROM` clause. -/
  fromColumns : List Column
  /-- The checks of a node that is built. -/
  check : SelectPlan → Except PlannerError Unit

/-- A reference names a column: by name, and by relation if it has one. -/
def namesColumn (reference column : Column) : Bool :=
  reference.name = column.name && (reference.relation.isNone || reference.relation = column.relation)

/-- The only column of that name. -/
def resolveColumn (columns : List Column) (reference : Column) : Option Column :=
  match columns.filter (namesColumn reference) with
  | [column] => some column
  | _ => none

/-- `normalize_col`: columns get their relations. -/
def Expr.normalize (columns : List Column) (expr : Expr) : Expr :=
  expr.mapColumns fun reference => .column ((resolveColumn columns reference).getD reference)

namespace PlanBuilder

variable (builder : PlanBuilder)

/-- The output column of an expression. -/
def exprColumn : Expr → Column
  | .column column => column
  | .aliasExpr _ name => ⟨none, name⟩
  | expr => ⟨none, builder.schemaName expr⟩

/-- A wildcard stands for the columns below it. -/
def expandWildcard (columns : List Column) : Expr → List Expr
  | .wildcard none => columns.map .column
  | .wildcard (some qualifier) =>
      (columns.filter fun c => c.relation.any (·.toString = qualifier)).map .column
  | expr => [expr]

/-- The output columns of a plan. -/
def columns : SelectPlan → List Column
  | .source => builder.fromColumns
  | .filter _ input => columns input
  | .aggregate groupExpr aggrExpr _ => (groupExpr ++ aggrExpr).map builder.exprColumn
  | .projection exprs _ => exprs.map builder.exprColumn
  | .sort _ input => columns input
  | .distinct input => columns input
  | .distinctOn _ selectExpr _ => selectExpr.map builder.exprColumn
  | .limit _ _ input => columns input

/-- A node that passes its checks. -/
def node (plan : SelectPlan) : Except PlannerError SelectPlan := do
  builder.check plan
  return plan

/-- Every column is in scope. -/
def resolves (columns : List Column) (exprs : List Expr) : Bool :=
  exprs.all fun expr => expr.columns.all fun c => (resolveColumn columns c).isSome

/-- The error for a column that is not. -/
def missingField : PlannerError := .schema "No field of that name"

/-- `filter`. -/
def filter (predicate : Expr) (input : SelectPlan) : Except PlannerError SelectPlan :=
  if resolves (builder.columns input) [predicate] then
    builder.node (.filter (predicate.normalize (builder.columns input)) input)
  else .error missingField

/-- `aggregate`. -/
def aggregate (groupExpr aggrExpr : List Expr) (input : SelectPlan) : Except PlannerError SelectPlan :=
  if resolves (builder.columns input) (groupExpr ++ aggrExpr) then
    builder.node (.aggregate (groupExpr.map (·.normalize (builder.columns input)))
      (aggrExpr.map (·.normalize (builder.columns input))) input)
  else .error missingField

/-- `project`. -/
def project (exprs : List Expr) (input : SelectPlan) : Except PlannerError SelectPlan :=
  let expanded := exprs.flatMap (expandWildcard (builder.columns input))
  if resolves (builder.columns input) expanded then
    builder.node (.projection (expanded.map (·.normalize (builder.columns input))) input)
  else .error missingField

/-- `distinct_on`. -/
def distinctOn (onExpr selectExpr : List Expr) (input : SelectPlan) : Except PlannerError SelectPlan :=
  let expanded := selectExpr.flatMap (expandWildcard (builder.columns input))
  if resolves (builder.columns input) (onExpr ++ expanded) then
    builder.node (.distinctOn (onExpr.map (·.normalize (builder.columns input))) expanded input)
  else .error missingField

/-- The columns a sort may use: the output of the plan, and what lies below its projection. There is
nothing to add below a `DISTINCT`. -/
def sortColumns (plan : SelectPlan) : List Column :=
  match plan with
  | .projection _ input =>
      builder.columns plan ++
        (builder.columns input).filter fun c => (resolveColumn (builder.columns plan) c).isNone
  | plan => builder.columns plan

/-- `sort`. -/
def sort (keys : List SortKey) (input : SelectPlan) : Except PlannerError SelectPlan :=
  if resolves (builder.sortColumns input) (keys.map SortKey.expr) then builder.node (.sort keys input)
  else .error missingField

variable {builder} {plan plan' input : SelectPlan}

end PlanBuilder

/-! ## Aggregation -/

/-- `needs_aggregate`. -/
def needsAggregate (query : QueryExpression) : Bool :=
  match query.groupBy with
  | .all | .expressions _ => true
  | .none => (query.projection ++ query.having.toList).any Expr.containsAggregate

/-- `aggregate_exprs`. -/
def aggregateExprs (query : QueryExpression) : List Expr :=
  Expr.collectAllAggregates
    (query.projection ++ query.having.toList ++ query.orderBy.map SortKey.expr) []

/-- `group_by_all_exprs`. -/
def groupByAllExprs (query : QueryExpression) : List Expr :=
  query.projection.filter fun expr => !expr.containsAggregate

/-- `unalias_expr`. -/
def unaliasExpr : Expr → Expr
  | .aliasExpr expr _ => expr
  | expr => expr

/-- The projected expression at a position. -/
def projectedAt (projection : List Expr) (position : ℤ) : Option Expr :=
  if 0 < position then projection[position.toNat - 1]? else none

/-- One item of `resolve_group_by_positions`. -/
def resolveGroupByPosition (projection : List Expr) : Expr → Except PlannerError Expr
  | .literal (.int64 position) =>
      match projectedAt projection position with
      | some expr => .ok (unaliasExpr expr)
      | none => .error (.invalidPlan s!"GROUP BY position {position} is out of range")
  | expr => .ok expr

/-- `resolve_group_by_positions`. -/
def resolveGroupByPositions (groupBy projection : List Expr) : Except PlannerError (List Expr) :=
  groupBy.mapM (resolveGroupByPosition projection)

/-- One step of `normalize_expr_name`: the text so far and where its last token starts. -/
def normalizeStep (state : List Char × ℕ) (ch : Char) : List Char × ℕ :=
  if ch = '"' then state
  else if ch = '.' then ((state.1.take state.2), state.2)
  else if ch.isAlphanum || ch = '_' then (state.1 ++ [ch], state.2)
  else (state.1 ++ [ch], state.1.length + 1)

/-- `normalize_expr_name`. -/
def normalizeExprName (name : String) : String :=
  String.ofList (name.toList.foldl normalizeStep ([], 0)).1

/-- The expression is a column. -/
def Expr.isColumn : Expr → Bool
  | .column _ => true
  | _ => false

section Rebase

variable (builder : PlanBuilder) (baseExprs : List Expr)

/-- `matching_base_expr`. -/
def matchingBaseExpr (expr : Expr) : Option Expr :=
  (baseExprs.find? (· = expr)).or
    (baseExprs.find? fun base => !base.isColumn && !expr.isColumn &&
      normalizeExprName (builder.schemaName base) = normalizeExprName (builder.schemaName expr))

/-- `rebase_column_expr`. -/
def rebaseColumnExpr (base : Expr) : Expr := .column (builder.exprColumn base)

mutual
/-- `rebase_expr`: top-down, subqueries and unmatched aggregate calls are left alone. -/
def rebaseExpr (expr : Expr) : Expr :=
  match expr with
  | .subquery head cs args => .subquery head cs args
  | .column c =>
      match matchingBaseExpr builder baseExprs (.column c) with
      | some base => rebaseColumnExpr builder base
      | none => .column c
  | .outerReferenceColumn c =>
      match matchingBaseExpr builder baseExprs (.outerReferenceColumn c) with
      | some base => rebaseColumnExpr builder base
      | none => .outerReferenceColumn c
  | .literal value =>
      match matchingBaseExpr builder baseExprs (.literal value) with
      | some base => rebaseColumnExpr builder base
      | none => .literal value
  | .aliasExpr inner name =>
      match matchingBaseExpr builder baseExprs (.aliasExpr inner name) with
      | some base => rebaseColumnExpr builder base
      | none => .aliasExpr (rebaseExpr inner) name
  | .aggregateFunction head args =>
      match matchingBaseExpr builder baseExprs (.aggregateFunction head args) with
      | some base => rebaseColumnExpr builder base
      | none => .aggregateFunction head args
  | .node head args =>
      match matchingBaseExpr builder baseExprs (.node head args) with
      | some base => rebaseColumnExpr builder base
      | none => .node head (rebaseAll args)
  | .wildcard qualifier =>
      match matchingBaseExpr builder baseExprs (.wildcard qualifier) with
      | some base => rebaseColumnExpr builder base
      | none => .wildcard qualifier

/-- All operands. -/
def rebaseAll (exprs : List Expr) : List Expr :=
  match exprs with
  | [] => []
  | expr :: rest => rebaseExpr expr :: rebaseAll rest
end

end Rebase

/-- `aggregate_order_by_exprs`. -/
def aggregateOrderByExprs (builder : PlanBuilder) (query : QueryExpression) (baseExprs : List Expr) :
    List SortKey :=
  (query.orderBy.filter (·.expr.containsAggregate)).map fun sort =>
    { sort with expr := rebaseExpr builder baseExprs sort.expr }

/-! ## Sort keys -/

/-- `projected_column_expr`. -/
def projectedColumnExpr (builder : PlanBuilder) : Expr → Expr
  | .aliasExpr _ name => .column ⟨none, name⟩
  | .column column => .column column
  | expr => .column ⟨none, builder.schemaName expr⟩

/-- The name of an alias or of a column. -/
def projectedName : Expr → Option String
  | .aliasExpr _ name => some name
  | .column column => some column.name
  | _ => none

/-- `resolve_projected_column`: names are compared without case. -/
def resolveProjectedColumn (builder : PlanBuilder) (name : String) (projection : List Expr) : Option Expr :=
  (projection.find? fun expr => (projectedName expr).any fun projected =>
    projected.toLower = name.toLower).map (projectedColumnExpr builder)

/-- `resolve_position_to_expr`. -/
def resolvePositionToExpr (builder : PlanBuilder) (projection : List Expr) :
    Expr → Except PlannerError Expr
  | .literal (.int64 position) =>
      match projectedAt projection position with
      | some expr => .ok (projectedColumnExpr builder expr)
      | none => .error (.invalidPlan s!"ORDER BY position {position} is out of range")
  | .column ⟨none, name⟩ =>
      .ok ((resolveProjectedColumn builder name projection).getD (.column ⟨none, name⟩))
  | expr => .ok expr

/-- `resolve_sort_positions`. -/
def resolveSortPositions (builder : PlanBuilder) (sortExprs : List SortKey) (projection : List Expr) :
    Except PlannerError (List SortKey) :=
  sortExprs.mapM fun sort => do
    let expr ← resolvePositionToExpr builder projection sort.expr
    return { sort with expr := expr }

/-! ## The plan -/

/-- `projection_is_passthrough_wildcard`. -/
def projectionIsPassthroughWildcard (projection : List Expr) : Bool :=
  projection = [.wildcard none]

/-- The grouping keys of an aggregate query. -/
def groupKeys (query : QueryExpression) : Except PlannerError (List Expr) :=
  match query.groupBy with
  | .expressions expressions => resolveGroupByPositions expressions query.projection
  | .all => .ok (groupByAllExprs query)
  | .none => .ok []

/-- The filter of `HAVING`. -/
def buildHaving (builder : PlanBuilder) (query : QueryExpression) (baseExprs : List Expr)
    (input : SelectPlan) : Except PlannerError SelectPlan :=
  match query.having with
  | some predicate => builder.filter (rebaseExpr builder baseExprs predicate) input
  | none => .ok input

/-- The sort by the keys with aggregate calls. -/
def buildAggregateSort (builder : PlanBuilder) (query : QueryExpression) (baseExprs : List Expr)
    (input : SelectPlan) : Except PlannerError SelectPlan :=
  if (aggregateOrderByExprs builder query baseExprs).isEmpty then .ok input
  else builder.sort (aggregateOrderByExprs builder query baseExprs) input

/-- The aggregate branch of `build_query_input`. -/
def buildAggregate (builder : PlanBuilder) (query : QueryExpression) (input : SelectPlan) :
    Except PlannerError SelectPlan :=
  match query.distinct with
  | .on _ => .error (.unsupportedPlan
      "DISTINCT ON expressions with GROUP BY or aggregation are not supported")
  | _ => do
      let keys ← groupKeys query
      let aggregated ← builder.aggregate keys (aggregateExprs query) input
      -- The base expressions are those of the node, with their columns resolved.
      let baseExprs := (keys ++ aggregateExprs query).map (·.normalize (builder.columns input))
      let filtered ← buildHaving builder query baseExprs aggregated
      let sorted ← buildAggregateSort builder query baseExprs filtered
      builder.project (query.projection.map (rebaseExpr builder baseExprs)) sorted

/-- The branch without aggregation. -/
def buildProjection (builder : PlanBuilder) (query : QueryExpression) (input : SelectPlan) :
    Except PlannerError SelectPlan :=
  match query.having with
  | some _ => .error (.invalidPlan
      "HAVING clause references must appear in the GROUP BY clause or be used in an aggregate function")
  | none =>
      match query.distinct with
      | .on onExpr => builder.distinctOn onExpr query.projection input
      | _ =>
          if projectionIsPassthroughWildcard query.projection then .ok input
          else builder.project query.projection input

/-- The sort keys left for the end: those without aggregate calls. -/
def postProjectionOrderBy (query : QueryExpression) : List SortKey :=
  query.orderBy.filter fun sort => !sort.expr.containsAggregate

/-- The final sort. -/
def buildSort (builder : PlanBuilder) (query : QueryExpression) (input : SelectPlan) :
    Except PlannerError SelectPlan :=
  if (postProjectionOrderBy query).isEmpty then .ok input
  else do
    let orderBy ← resolveSortPositions builder (postProjectionOrderBy query) query.projection
    builder.sort orderBy input

/-- The filter of `WHERE`. -/
def buildSelection (builder : PlanBuilder) (query : QueryExpression) : Except PlannerError SelectPlan :=
  match query.selection with
  | some predicate => builder.filter predicate .source
  | none => .ok .source

/-- The node of a plain `DISTINCT`. -/
def buildDistinct (builder : PlanBuilder) (query : QueryExpression) (input : SelectPlan) :
    Except PlannerError SelectPlan :=
  match query.distinct with
  | .all => builder.node (.distinct input)
  | _ => .ok input

/-- The node of a `LIMIT`. -/
def buildLimit (builder : PlanBuilder) (query : QueryExpression) (input : SelectPlan) :
    Except PlannerError SelectPlan :=
  match query.limit with
  | some limit => builder.node (.limit limit.skip limit.fetch input)
  | none => .ok input

/-- The select list, with what it needs below it. -/
def buildProjected (builder : PlanBuilder) (query : QueryExpression) (input : SelectPlan) :
    Except PlannerError SelectPlan :=
  if needsAggregate query then buildAggregate builder query input
  else buildProjection builder query input

/-- `build_query_input`, over the plan of the `FROM` clause. -/
def buildQueryInput (builder : PlanBuilder) (query : QueryExpression) : Except PlannerError SelectPlan := do
  let selected ← buildSelection builder query
  let projected ← buildProjected builder query selected
  let distinct ← buildDistinct builder query projected
  let sorted ← buildSort builder query distinct
  buildLimit builder query sorted

end BrewDB.Bound

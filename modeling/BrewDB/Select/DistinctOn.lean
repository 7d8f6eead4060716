import BrewDB.Select.Rows

/-!
# DISTINCT ON

`build_query_input` puts the sort of `ORDER BY` above the `DISTINCT ON` node and gives the node no order of
its own: which row of a key survives is decided before the sort.
-/

namespace BrewDB.Bound

open SortOrder PlanBuilder

section Query

variable {V : Type} (builder : PlanBuilder) (M : Meaning V) (query : QueryExpression)

/-- The input rows that pass `WHERE`. -/
def selectedRows (rows : List (Tuple V)) : List (Tuple V) :=
  match query.selection with
  | some predicate => rows.filter fun tuple =>
      M.isTrue (eval M (tuple.get M) (predicate.normalize builder.fromColumns))
  | none => rows

/-- The value of the key of `DISTINCT ON`. -/
def distinctKey (onExpr : List Expr) (tuple : Tuple V) : List V :=
  onExpr.map fun expr => eval M (tuple.get M) (expr.normalize builder.fromColumns)

/-- The row that the select list makes of an input row. -/
def resultRow (tuple : Tuple V) : OutRow V :=
  ⟨tuple, project builder M (query.projection.flatMap (PlanBuilder.expandWildcard builder.fromColumns)) tuple⟩

/-- The keys of `ORDER BY` that the final sort looks at. -/
def finalKeys : List SortKey :=
  match resolveSortPositions builder (postProjectionOrderBy query) query.projection with
  | .ok keys => keys
  | .error _ => []

/-- `out` has the first row of each key, in the order of `ORDER BY`. -/
structure KeepsFirst (onExpr : List Expr) (rows : List (Tuple V)) (out : List (OutRow V)) : Prop where
  /-- An aggregate call has no value on a row to order by. -/
  keys : ∀ key ∈ query.orderBy, key.expr.containsAggregate = false
  shown : ∀ row ∈ out, row = resultRow builder M query row.origin
  represents : Represents (distinctKey builder M onExpr) (selectedRows builder M query rows)
    (out.map OutRow.origin)
  first : ∀ row ∈ out, ∀ tuple ∈ selectedRows builder M query rows,
    distinctKey builder M onExpr tuple = distinctKey builder M onExpr row.origin →
      keysLe M (finalKeys builder query) row (resultRow builder M query tuple)
  ordered : out.Pairwise (keysLe M (finalKeys builder query))

end Query

section Runs

variable {V : Type} [DecidableEq V] {builder : PlanBuilder} {M : Meaning V} {query : QueryExpression}
  {onExpr : List Expr} {plan : SelectPlan} {rows : List (Tuple V)} {out : List (OutRow V)}

end Runs

namespace Sample

/-- `SELECT DISTINCT ON (k) k, v FROM t ORDER BY k, v`. -/
def firstOfEachKey : QueryExpression :=
  { plainQuery with distinct := .on [name "k"], orderBy := [ascending (name "k"), ascending (name "v")] }

/-- Its plan. -/
def firstOfEachKeyPlan : SelectPlan :=
  .sort [ascending (name "k"), ascending (name "v")]
    (.distinctOn [.column ⟨some (.bare "t"), "k"⟩] [name "k", name "v"] .source)

end Sample

end BrewDB.Bound

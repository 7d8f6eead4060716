import BrewDB.Select.DistinctOn
import BrewDB.Select.Rebase

/-!
# ORDER BY

Reference: `build_query_input` of `brewdb-planner/src/logical/query/select.rs`, `aggregate_order_by_exprs` of
`query/aggregate.rs` and `resolve_sort_positions` of `query/modifier.rs`.

Keys with aggregate calls are sorted below the select list, the other keys in a second sort above it and
above `DISTINCT`. The list as written is the lexicographic order of all keys on the rows of the result.
-/

namespace BrewDB.Bound

open SortOrder PlanBuilder

/-! ## The order as written -/

section Written

variable {V : Type} (builder : PlanBuilder) (M : Meaning V) (query : QueryExpression)

/-- A name is an output column, else what it is below the select list. -/
def sortName : Expr → Expr
  | .column ⟨none, name⟩ => (resolveProjectedColumn builder name query.projection).getD (.column ⟨none, name⟩)
  | expr => expr

/-- The output expressions of the aggregate. -/
def outputExprs : List Expr :=
  match groupKeys query with
  | .ok keys => baseExprs builder query keys
  | .error _ => []

/-- The value of a sort key on a row of the result: an ordinal is an output column, aggregate calls are
those of the group. -/
def sortValue (row : OutRow V) : Expr → V
  | .literal (.int64 position) => ((row.shown[position.toNat - 1]?).map Prod.snd).getD M.missing
  | expr =>
      if expr.containsAggregate then
        eval M (row.origin.get M) (rebaseExpr builder (outputExprs builder query) expr)
      else eval M (row.get M) (sortName builder query expr)

/-- The order of one key. -/
def writtenKeyLe (key : SortKey) (a b : OutRow V) : Prop :=
  M.le key.asc key.nullsFirst (sortValue builder M query a key.expr) (sortValue builder M query b key.expr)

/-- The order of the list. -/
def writtenLe : OutRow V → OutRow V → Prop := lex (query.orderBy.map (writtenKeyLe builder M query))

end Written

/-! ## The plan below the final sort -/

/-- Some node of the plan aggregates. -/
def SelectPlan.aggregates : SelectPlan → Bool
  | .source => false
  | .filter _ input => input.aggregates
  | .aggregate _ _ _ => true
  | .projection _ input => input.aggregates
  | .sort _ input => input.aggregates
  | .distinct input => input.aggregates
  | .distinctOn _ _ input => input.aggregates
  | .limit _ _ input => input.aggregates

/-- The plan up to `DISTINCT`. -/
def buildUnsorted (builder : PlanBuilder) (query : QueryExpression) : Except PlannerError SelectPlan := do
  let selected ← buildSelection builder query
  let projected ← buildProjected builder query selected
  buildDistinct builder query projected

section Plan

variable {builder : PlanBuilder} {query : QueryExpression} {plan input : SelectPlan}

end Plan

/-! ## Rows below the final sort -/

section Runs

variable {V : Type} [DecidableEq V] {builder : PlanBuilder} {M : Meaning V} {query : QueryExpression}
  {plan input : SelectPlan} {rows : List (Tuple V)} {out : List (OutRow V)}

omit [DecidableEq V] in
/-- A row that is not projected has one place for its columns. -/
theorem OutRow.get_eq_origin {row : OutRow V} (h : row.origin = row.shown) :
    row.get M = row.origin.get M := by
  funext c
  rw [OutRow.get, h, ite_self]

end Runs

/-! ## When the order is the one written -/

section Statement

variable {V : Type} [DecidableEq V] (builder : PlanBuilder) (M : Meaning V) (query : QueryExpression)
  (rows : List (Tuple V))

/-- The rows of the plan are in the order as written, the rows that a `LIMIT` counts too; sort keys with
aggregate calls have the values of these calls, and make the query an aggregate query. -/
structure OrdersAsWritten (plan : SelectPlan) : Prop where
  aggregates : (∃ key ∈ query.orderBy, key.expr.containsAggregate = true) → plan.aggregates = true
  values : ∀ keys, groupKeys query = .ok keys → ∀ key ∈ query.orderBy, key.expr.containsAggregate = true →
    PreservesMeaning builder query keys key.expr
  ordered : ∀ out, Runs builder M plan rows out → out.Pairwise (writtenLe builder M query)
  beforeLimit : ∀ plan, buildQueryInput builder { query with limit := none } = .ok plan →
    ∀ out, Runs builder M plan rows out → out.Pairwise (writtenLe builder M query)

/-- If a sort key has an aggregate call, the query aggregates without it, and the key is rebased faithfully.
All keys have one and there is no `DISTINCT`, or any two rows that the other keys leave in this order are in
the order of the whole list. -/
structure KeysInOrder : Prop where
  aggregates : (∃ key ∈ query.orderBy, key.expr.containsAggregate = true) → needsAggregate query = true
  values : ∀ keys, groupKeys query = .ok keys → ∀ key ∈ query.orderBy, key.expr.containsAggregate = true →
    Faithful builder (baseExprs builder query keys) key.expr
  order : (∀ key ∈ query.orderBy, key.expr.containsAggregate = true) ∧ query.distinct ≠ .all ∨
    ∀ unsorted, buildUnsorted builder query = .ok unsorted → ∀ mid, Runs builder M unsorted rows mid →
      ∀ a ∈ mid, ∀ b ∈ mid, keysLe M (finalKeys builder query) a b → writtenLe builder M query a b

end Statement

section Proof

variable {V : Type} [DecidableEq V] {builder : PlanBuilder} {M : Meaning V} {query : QueryExpression}
  {plan : SelectPlan} {rows : List (Tuple V)}

end Proof

namespace Sample

/-- `SELECT k, sum(v) FROM t GROUP BY k ORDER BY sum(v)`. -/
def bySum : QueryExpression := { sums with orderBy := [ascending (sum (name "v"))] }

/-- Its plan. -/
def bySumPlan : SelectPlan :=
  .projection [column "t" "k", .column ⟨none, "sum(t.v)"⟩]
    (.sort [ascending (.column ⟨none, "sum(t.v)"⟩)]
      (.aggregate [column "t" "k"] [sum (column "t" "v")] .source))

/-- `SELECT k, sum(v) FROM t GROUP BY k ORDER BY sum(v), k`. -/
def bySumThenKey : QueryExpression :=
  { sums with orderBy := [ascending (sum (name "v")), ascending (name "k")] }

/-- Its plan: `k` alone decides. -/
def bySumThenKeyPlan : SelectPlan := .sort [ascending (name "k")] bySumPlan

/-- A group with its sum. -/
def groupRow (k total : ℤ) : Tuple ℤ := [(⟨some (.bare "t"), "k"⟩, k), (⟨none, "sum(t.v)"⟩, total)]

end Sample

end BrewDB.Bound

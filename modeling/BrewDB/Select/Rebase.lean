import BrewDB.Select.Rows

/-!
# Rebasing onto an aggregate

`rebase_expr` replaces subexpressions by output columns of the `Aggregate`: those equal to a base
expression, and those whose printed name is the same after `normalize_expr_name`.

Two expressions mean the same under every meaning of functions and literals exactly if they are the same
once columns are resolved and aliases dropped: the free meaning, in which every expression means itself,
tells all others apart.
-/

namespace BrewDB.Bound

/-! ## Columns in scope -/

/-- A row with these columns. -/
def Tuple.Over {V : Type} (columns : List Column) (tuple : Tuple V) : Prop := tuple.map Prod.fst = columns

section Get

variable {V : Type} {M : Meaning V} {columns : List Column} {tuple : Tuple V}

theorem Tuple.Over.filter (h : tuple.Over columns) (c : Column) :
    (tuple.filter fun field => namesColumn c field.1).map Prod.fst = columns.filter (namesColumn c) := by
  rw [← h, List.filter_map]
  rfl

end Get

/-! ## The free meaning -/

/-- Every expression means itself. What has no value is told apart by a shape that no value has: an alias
for a column out of scope, a call over an alias for an aggregate call on a single row. -/
def free : Meaning Expr where
  unknown c := .aliasExpr (.column c) ""
  missing := .aggregateFunction ⟨"", false, false, [], none⟩ [.aliasExpr (.wildcard none) ""]
  literal := .literal
  outerReference := .outerReferenceColumn
  wildcard := .wildcard
  node := .node
  subquery := .subquery
  aggregate head rows := .aggregateFunction head (rows.headD [])
  isTrue _ := true
  le _ _ _ _ := True
  totalPreorder _ _ := ⟨fun _ _ => .inl trivial, fun _ _ _ _ _ => trivial⟩
  count _ := 0

/-- The row whose columns mean themselves. -/
def freeRow (columns : List Column) : Tuple Expr := columns.map fun c => (c, .column c)

/-- The expression with its columns resolved and without aliases: its free meaning. -/
def Expr.resolved (columns : List Column) (expr : Expr) : Expr :=
  evalGroup free [(freeRow columns).get free] ((freeRow columns).get free) expr

section Meanings

variable {V : Type} {M : Meaning V} {columns : List Column}

end Meanings

/-! ## What is replaced by what -/

section Faithful

variable (builder : PlanBuilder) (baseExprs : List Expr)

/-- The only base expression whose output column has this name. -/
def outputOf (c : Column) : Option Expr :=
  match baseExprs.filter fun base => namesColumn c (builder.exprColumn base) with
  | [base] => some base
  | _ => none

/-- A column that is left alone stands for the grouping column that it is. -/
def Stands (c : Column) : Prop :=
  match outputOf builder baseExprs c with
  | some base => base.resolved builder.fromColumns = (Expr.column c).resolved builder.fromColumns
  | none => resolveColumn builder.fromColumns c = none

mutual
/-- An expression that is left alone as a whole has no aggregate call, and its columns stand for
themselves. -/
def Plain : Expr → Prop
  | .column c => Stands builder baseExprs c
  | .aliasExpr expr _ => Plain expr
  | .aggregateFunction _ _ => False
  | .subquery _ cs args => AllPlain cs ∧ AllPlain args
  | .node _ args => AllPlain args
  | _ => True

/-- All operands. -/
def AllPlain : List Expr → Prop
  | [] => True
  | e :: es => Plain e ∧ AllPlain es
end

/-- The base expression that takes the place of an expression is that expression, once resolved. -/
def Same (base e : Expr) : Prop :=
  base.resolved builder.fromColumns = e.resolved builder.fromColumns

mutual
/-- Top-down, what is replaced is replaced by itself, and what is left stands for itself. -/
def Faithful : Expr → Prop
  | .subquery _ cs args => AllPlain builder baseExprs cs ∧ AllPlain builder baseExprs args
  | .column c =>
      match matchingBaseExpr builder baseExprs (.column c) with
      | some base => Same builder base (.column c)
      | none => Stands builder baseExprs c
  | .outerReferenceColumn c =>
      match matchingBaseExpr builder baseExprs (.outerReferenceColumn c) with
      | some base => Same builder base (.outerReferenceColumn c)
      | none => True
  | .literal value =>
      match matchingBaseExpr builder baseExprs (.literal value) with
      | some base => Same builder base (.literal value)
      | none => True
  | .aliasExpr inner name =>
      match matchingBaseExpr builder baseExprs (.aliasExpr inner name) with
      | some base => Same builder base (.aliasExpr inner name)
      | none => Faithful inner
  | .aggregateFunction head args =>
      match matchingBaseExpr builder baseExprs (.aggregateFunction head args) with
      | some base => Same builder base (.aggregateFunction head args)
      | none => False
  | .node head args =>
      match matchingBaseExpr builder baseExprs (.node head args) with
      | some base => Same builder base (.node head args)
      | none => AllFaithful args
  | .wildcard qualifier =>
      match matchingBaseExpr builder baseExprs (.wildcard qualifier) with
      | some base => Same builder base (.wildcard qualifier)
      | none => True

/-- All operands. -/
def AllFaithful : List Expr → Prop
  | [] => True
  | e :: es => Faithful e ∧ AllFaithful es
end

/-- The columns of an expression are in scope above the aggregate. -/
def InOutput (e : Expr) : Prop :=
  ∀ c ∈ e.columns, (resolveColumn (baseExprs.map builder.exprColumn) c).isSome = true

variable {builder baseExprs}

section Values

variable {V : Type} {M : Meaning V} {group : List (Tuple V)} {tuple : Tuple V}

variable (htuple : tuple.Over builder.fromColumns) (hgroup : ∀ row ∈ group, row.Over builder.fromColumns)

include htuple hgroup

end Values

/-! ## The free meaning tells a wrong match -/

/-- The output row of the free group. -/
def freeOutput (builder : PlanBuilder) (baseExprs : List Expr) : Tuple Expr :=
  aggregateRow builder free baseExprs [freeRow builder.fromColumns] (freeRow builder.fromColumns)

end Faithful

/-! ## Aggregate queries -/

/-- The output expressions of the aggregate: grouping keys and aggregate calls with their columns resolved. -/
def baseExprs (builder : PlanBuilder) (query : QueryExpression) (keys : List Expr) : List Expr :=
  (keys ++ aggregateExprs query).map (·.normalize builder.fromColumns)

/-- The expressions that are rebased: the select list, `HAVING`, and the sort keys with aggregate calls. -/
def rebasedExprs (query : QueryExpression) : List Expr :=
  query.projection ++ query.having.toList ++
    (query.orderBy.filter (·.expr.containsAggregate)).map SortKey.expr

/-- The rows of one group and one of them. Without grouping keys the group may be empty. -/
structure IsGroup {V : Type} (builder : PlanBuilder) (M : Meaning V) (keys : List Expr)
    (group : List (Tuple V)) (tuple : Tuple V) : Prop where
  rowOver : tuple.Over builder.fromColumns
  groupOver : ∀ row ∈ group, row.Over builder.fromColumns
  sameKeys : ∀ row ∈ group, keys.map (eval M (row.get M)) = keys.map (eval M (tuple.get M))
  mem : tuple ∈ group ∨ group = [] ∧ keys = []

/-- Under every meaning of functions and literals and on every group, the rebased expression has above the
aggregate the value that the expression has on the group. -/
def PreservesMeaning (builder : PlanBuilder) (query : QueryExpression) (keys : List Expr) (e : Expr) : Prop :=
  ∀ (V : Type) (M : Meaning V) (group : List (Tuple V)) (tuple : Tuple V), IsGroup builder M keys group tuple →
    eval M ((aggregateRow builder M (baseExprs builder query keys) group tuple).get M)
        (rebaseExpr builder (baseExprs builder query keys) e) =
      evalGroup M (group.map fun row => row.get M) (tuple.get M) e

namespace Sample

/-- `sum(…)`. -/
def sum (arg : Expr) : Expr := .aggregateFunction ⟨"sum", false, false, [], none⟩ [arg]

/-- `SELECT k, sum(v) FROM t GROUP BY k`. -/
def sums : QueryExpression :=
  { plainQuery with projection := [name "k", sum (name "v")], groupBy := .expressions [name "k"] }

/-- A column of a table. -/
def column (table text : String) : Expr := .column ⟨some (.bare table), text⟩

/-- The plan of `sums`. -/
def sumsPlan : SelectPlan :=
  .projection [column "t" "k", .column ⟨none, "sum(t.v)"⟩]
    (.aggregate [column "t" "k"] [sum (column "t" "v")] .source)

/-- `SELECT t.v + 1 FROM t, u GROUP BY u.v + 1`. -/
def otherTable : QueryExpression :=
  { plainQuery with
    projection := [.node "+" [column "t" "v", .literal (.int64 1)]]
    groupBy := .expressions [.node "+" [column "u" "v", .literal (.int64 1)]] }

/-- The plan of `otherTable`. -/
def otherTablePlan : SelectPlan :=
  .projection [.column ⟨none, "u.v + Int64(1)"⟩]
    (.aggregate [.node "+" [column "u" "v", .literal (.int64 1)]] [] .source)

/-- The columns of `t, u`. -/
def bothTables : List Column := columnsOf "t" ++ columnsOf "u"

end Sample

end BrewDB.Bound

import BrewDB.Common.SortOrder
import BrewDB.Select.QueryPlan

/-!
# The rows of a SELECT

What DataFusion's nodes do to rows. The meaning of functions and comparisons is a parameter. A row keeps the
row it was projected from: a sort above a projection may use what lies below it.

A run of a plan is one of its possible results: a sort may leave ties in any order, groups and the rows of
a `DISTINCT` come in any order, and `DISTINCT ON` without an order of its own keeps any row of a key.
-/

namespace BrewDB.Bound

open SortOrder

/-- The meaning of literals, functions, aggregate calls, subqueries and comparisons. -/
structure Meaning (V : Type) where
  /-- A column that is not in scope. -/
  unknown : Column → V
  /-- An aggregate call on a single row. -/
  missing : V
  literal : Literal → V
  outerReference : Column → V
  wildcard : Option String → V
  node : String → List V → V
  /-- A subquery, by the values its plan refers to and its operands. -/
  subquery : String → List V → List V → V
  /-- An aggregate call, by the values of its operands on each row. -/
  aggregate : AggregateHead → List (List V) → V
  isTrue : V → Bool
  /-- Ascending or not, nulls first or not. -/
  le : Bool → Bool → V → V → Prop
  totalPreorder : ∀ asc nullsFirst, TotalPreorder (le asc nullsFirst)
  /-- The number of rows that a limit stands for. -/
  count : V → ℕ

/-- A row with the names of its columns. -/
abbrev Tuple (V : Type) := List (Column × V)

section Evaluation

variable {V : Type} (M : Meaning V)

/-- The value of a column: of the only field that it names. -/
def Tuple.get (tuple : Tuple V) (c : Column) : V :=
  match tuple.filter fun field => namesColumn c field.1 with
  | [field] => field.2
  | _ => M.unknown c

mutual
/-- The value of an expression on a row. -/
def eval (get : Column → V) : Expr → V
  | .column c => get c
  | .outerReferenceColumn c => M.outerReference c
  | .literal value => M.literal value
  | .aliasExpr expr _ => eval get expr
  | .aggregateFunction _ _ => M.missing
  | .subquery head cs args => M.subquery head (evalAll get cs) (evalAll get args)
  | .node head args => M.node head (evalAll get args)
  | .wildcard qualifier => M.wildcard qualifier

/-- The values of all operands. -/
def evalAll (get : Column → V) : List Expr → List V
  | [] => []
  | e :: es => eval get e :: evalAll get es
end

mutual
/-- The value of an expression on a group of rows: aggregate calls over the rows, everything else on
`get`, which is one of them. -/
def evalGroup (rows : List (Column → V)) (get : Column → V) : Expr → V
  | .column c => get c
  | .outerReferenceColumn c => M.outerReference c
  | .literal value => M.literal value
  | .aliasExpr expr _ => evalGroup rows get expr
  | .aggregateFunction head args => M.aggregate head (rows.map fun row => evalAll M row args)
  | .subquery head cs args => M.subquery head (evalAllGroup rows get cs) (evalAllGroup rows get args)
  | .node head args => M.node head (evalAllGroup rows get args)
  | .wildcard qualifier => M.wildcard qualifier

/-- The values of all operands on a group. -/
def evalAllGroup (rows : List (Column → V)) (get : Column → V) : List Expr → List V
  | [] => []
  | e :: es => evalGroup rows get e :: evalAllGroup rows get es
end

@[simp] theorem evalAll_eq_map (get : Column → V) (es : List Expr) :
    evalAll M get es = es.map (eval M get) := by
  induction es with
  | nil => rfl
  | cons e es ih => rw [evalAll, ih, List.map_cons]

@[simp] theorem evalAllGroup_eq_map (rows : List (Column → V)) (get : Column → V) (es : List Expr) :
    evalAllGroup M rows get es = es.map (evalGroup M rows get) := by
  induction es with
  | nil => rfl
  | cons e es ih => rw [evalAllGroup, ih, List.map_cons]

end Evaluation

/-! ## Runs -/

/-- A row and the row it was projected from. -/
structure OutRow (V : Type) where
  origin : Tuple V
  shown : Tuple V

/-- A row that is not projected. -/
def OutRow.ofTuple {V : Type} (tuple : Tuple V) : OutRow V := ⟨tuple, tuple⟩

section Runs

variable {V : Type} (builder : PlanBuilder) (M : Meaning V)

/-- The value of a column for a sort: of the row, else of the row below the projection. -/
def OutRow.get (row : OutRow V) (c : Column) : V :=
  if row.shown.any fun field => namesColumn c field.1 then row.shown.get M c else row.origin.get M c

/-- The values of some expressions, under their output columns. -/
def project (exprs : List Expr) (tuple : Tuple V) : Tuple V :=
  exprs.map fun expr => (builder.exprColumn expr, eval M (tuple.get M) expr)

/-- The order of one sort key. -/
def keyLe (key : SortKey) (a b : OutRow V) : Prop :=
  M.le key.asc key.nullsFirst (eval M (a.get M) key.expr) (eval M (b.get M) key.expr)

/-- The order of some sort keys. -/
def keysLe (keys : List SortKey) : OutRow V → OutRow V → Prop := lex (keys.map (keyLe M))

/-- The group of a tuple: the rows with its values of the grouping expressions. -/
def groupOf [DecidableEq V] (groupExpr : List Expr) (rows : List (Tuple V)) (tuple : Tuple V) :
    List (Tuple V) :=
  rows.filter fun row =>
    groupExpr.map (eval M (row.get M)) = groupExpr.map (eval M (tuple.get M))

/-- The output row of a group with this member. -/
def aggregateRow (exprs : List Expr) (group : List (Tuple V)) (tuple : Tuple V) : Tuple V :=
  exprs.map fun expr =>
    (builder.exprColumn expr, evalGroup M (group.map fun row => row.get M) (tuple.get M) expr)

/-- `out` is a possible result of a plan over the rows of the `FROM` clause. -/
def Runs [DecidableEq V] : SelectPlan → List (Tuple V) → List (OutRow V) → Prop
  | .source, rows, out => out = rows.map .ofTuple
  | .filter predicate input, rows, out =>
      ∃ mid, Runs input rows mid ∧ out = mid.filter fun row => M.isTrue (eval M (row.shown.get M) predicate)
  | .aggregate groupExpr aggrExpr input, rows, out =>
      ∃ mid, Runs input rows mid ∧
        let tuples := mid.map OutRow.shown
        if groupExpr = [] then
          -- A query without grouping keys has one group, also over no rows.
          out = [.ofTuple (aggregateRow builder M aggrExpr tuples (tuples.headD []))]
        else
          ∃ members, Represents (fun tuple : Tuple V => groupExpr.map (eval M (tuple.get M))) tuples members ∧
            out = members.map fun tuple =>
              .ofTuple (aggregateRow builder M (groupExpr ++ aggrExpr) (groupOf M groupExpr tuples tuple) tuple)
  | .projection exprs input, rows, out =>
      ∃ mid, Runs input rows mid ∧ out = mid.map fun row => ⟨row.shown, project builder M exprs row.shown⟩
  | .sort keys input, rows, out => ∃ mid, Runs input rows mid ∧ IsSorting (keysLe M keys) mid out
  | .distinct input, rows, out => ∃ mid, Runs input rows mid ∧ Represents OutRow.shown mid out
  | .distinctOn onExpr selectExpr input, rows, out =>
      ∃ mid kept, Runs input rows mid ∧
        Represents (fun row : OutRow V => onExpr.map (eval M (row.shown.get M))) mid kept ∧
        out = kept.map fun row => ⟨row.shown, project builder M selectExpr row.shown⟩
  | .limit skip fetch input, rows, out =>
      ∃ mid, Runs input rows mid ∧
        out = ((mid.drop ((skip.map fun e => M.count (eval M M.unknown e)).getD 0)).take
          ((fetch.map fun e => M.count (eval M M.unknown e)).getD mid.length))

end Runs

namespace Sample

mutual
/-- `schema_name` of columns, literals, aliases, operators and calls. -/
def schemaName : Expr → String
  | .column ⟨some relation, name⟩ => relation.toString ++ "." ++ name
  | .column ⟨none, name⟩ => name
  | .outerReferenceColumn c => c.name
  | .literal (.int64 value) => s!"Int64({value})"
  | .literal (.utf8 value) => "Utf8(\"" ++ value ++ "\")"
  | .literal (.boolean value) => s!"Boolean({value})"
  | .literal (.float64 text) => "Float64(" ++ text ++ ")"
  | .literal .null => "NULL"
  | .aliasExpr _ name => name
  | .aggregateFunction head args => head.name ++ "(" ++ ",".intercalate (schemaNames args) ++ ")"
  | .subquery head _ _ => head
  | .node op [left, right] => schemaName left ++ " " ++ op ++ " " ++ schemaName right
  | .node name args => name ++ "(" ++ ",".intercalate (schemaNames args) ++ ")"
  | .wildcard _ => "*"

/-- The names of all operands. -/
def schemaNames : List Expr → List String
  | [] => []
  | e :: es => schemaName e :: schemaNames es
end

/-- A builder that checks nothing but columns. -/
def builder (columns : List Column) : PlanBuilder := ⟨schemaName, columns, fun _ => .ok ()⟩

/-- Integers, with addition, comparison, sums and counts. -/
def integers : Meaning ℤ where
  unknown _ := 0
  missing := 0
  literal
    | .int64 value => value
    | .boolean value => if value then 1 else 0
    | _ => 0
  outerReference _ := 0
  wildcard _ := 1
  node
    | "+", [a, b] => a + b
    | ">", [a, b] => if b < a then 1 else 0
    | _, _ => 0
  subquery _ _ _ := 0
  aggregate head rows := if head.name = "sum" then (rows.map fun args => args.headD 0).sum else rows.length
  isTrue value := value ≠ 0
  le asc _ a b := if asc then a ≤ b else b ≤ a
  totalPreorder asc _ := by
    cases asc
    · exact ⟨fun a b => le_total b a, fun _ _ _ hab hbc => hbc.trans hab⟩
    · exact ⟨le_total, fun _ _ _ => le_trans⟩
  count value := value.toNat

/-- The columns `k` and `v` of a table. -/
def columnsOf (table : String) : List Column := [⟨some (.bare table), "k"⟩, ⟨some (.bare table), "v"⟩]

/-- An unqualified column. -/
def name (text : String) : Expr := .column ⟨none, text⟩

/-- An ascending sort key. -/
def ascending (expr : Expr) : SortKey := ⟨expr, true, false⟩

/-- `SELECT k, v FROM t`. -/
def plainQuery : QueryExpression where
  distinct := .none
  projection := [name "k", name "v"]
  selection := none
  groupBy := .none
  having := none
  orderBy := []
  limit := none

/-- A row of `t`. -/
def row (k v : ℤ) : Tuple ℤ := (columnsOf "t").zip [k, v]

end Sample

end BrewDB.Bound

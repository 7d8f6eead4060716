import BrewDB.Common.TextList
import BrewDB.Select.BoundExpr
import BrewDB.Select.Interval

/-!
# Binding expressions

Reference: `bind_expr_with_subqueries` and what it calls in `brewdb-planner/src/logical/expr/`, and
`bind_expr_for_query` of `logical/query/expression.rs` with the scopes of `query/scope.rs`.

The function registry with DataFusion's expression planners and the planning of subqueries are parameters.
Reasons of errors leave out the printed syntax.
-/

namespace BrewDB.Bound

variable {Q : Type}

/-! ## Parameters -/

/-- The function registry and DataFusion's expression planners. -/
structure FunctionRegistry where
  scalar : String → Bool
  aggregate : String → Bool
  /-- `plan_aggregate`: the call that is planned. -/
  planAggregate : AggregateHead → List Expr → Except PlannerError (AggregateHead × List Expr)
  /-- `plan_extract`: the function that is called, and its arguments. -/
  planExtract : List Expr → Except PlannerError (String × List Expr)
  /-- `plan_substring`. -/
  planSubstring : List Expr → Except PlannerError (String × List Expr)
  /-- The parser of interval literals. -/
  parseInterval : String → Except PlannerError Unit

/-- The plan of a subquery: its references to outer columns and how many columns it returns. -/
structure PlannedSubquery where
  plan : String
  outerColumns : List Expr
  columnCount : ℕ

/-- What binding needs besides the syntax. -/
structure ExprBinder (Q : Type) where
  registry : FunctionRegistry
  planSubquery : Q → Except PlannerError PlannedSubquery

/-! ## Leaves -/

/-- `col` of the printed identifiers: bracketed identifiers are not parsed, all others lose their quotes. -/
def identColumn (idents : List Ident) : Column :=
  let printed := ".".intercalate (idents.map Ident.toString)
  if idents.any fun ident => ident.quoteStyle = some '[' then ⟨none, printed⟩
  else match idents.map Ident.tableReferencePart with
    | [name] => ⟨none, name⟩
    | [table, name] => ⟨some (.bare table), name⟩
    | [schema, table, name] => ⟨some (.qualified schema table), name⟩
    | [catalog, schema, table, name] => ⟨some (.full catalog schema table), name⟩
    | _ => ⟨none, printed⟩

/-- The digits of an unsigned integer, as the tokenizer and `Display` write it. -/
def integerText (text : String) : Option ℕ :=
  let digits := text.toList.filter (· ≠ 'L')
  if digits.isEmpty then none else Text.parseDigits digits 0

/-- `bind_value`. A number that does not fit `i64` is read as `f64`. -/
def bindValue (text : String) : Except PlannerError Expr :=
  match integerText text with
  | some n => if n < 2 ^ 63 then .ok (.literal (.int64 n)) else .ok (.literal (.float64 text))
  | none =>
      if text.toList.head?.any fun c => c.isDigit || c = '.' then .ok (.literal (.float64 text))
      else if text = "NULL" then .ok (.literal .null)
      else if text = "true" then .ok (.literal (.boolean true))
      else if text = "false" then .ok (.literal (.boolean false))
      else if text.toList.any fun c => c = '\'' || c = '"' then .ok (.literal (.utf8 text))
      else .error (.unsupportedPlan "unsupported literal")

/-- A value by its text. -/
def astValue (text : String) : AstValue :=
  match text.toList with
  | '\'' :: rest => .singleQuotedString (String.ofList rest.dropLast)
  | '"' :: rest => .doubleQuotedString (String.ofList rest.dropLast)
  | c :: rest =>
      if c.isDigit || c = '.' then .number (String.ofList ((c :: rest).filter (· ≠ 'L'))) ('L' ∈ rest)
      else .other text
  | [] => .other text

/-- The argument of `INTERVAL`. -/
def intervalArgument : AstExpr Q → IntervalArgument
  | .value text => .value (astValue text)
  | .compound (.unaryOp op) [expr] => .unaryOp op (intervalArgument expr)
  | _ => .other "expression"

/-- `bind_binary_operator`. -/
def binaryOperators : List String :=
  ["+", "-", "*", "/", "%", "||", ">", "<", ">=", "<=", "=", "<>", "AND", "OR"]

/-- The node of an operator, over its bound operands. -/
def bindCompound (registry : FunctionRegistry) :
    ExprKind → List Expr → Except PlannerError Expr
  | .nested, [expr] => .ok expr
  | .unaryOp "+", [expr] => .ok expr
  | .unaryOp op, [expr] =>
      if op = "NOT" || op = "-" then .ok (.node op [expr])
      else .error (.unsupportedPlan "unsupported unary operator")
  | .binaryOp op, [left, right] =>
      if op ∈ binaryOperators then .ok (.node op [left, right])
      else .error (.unsupportedPlan "unsupported binary operator")
  | .extract field, [expr] => do
      let (name, args) ← registry.planExtract [.literal (.utf8 field), expr]
      return .node name args
  | .substring true _, args => do
      let (name, args) ← registry.planSubstring args
      return .node name args
  | .substring false true, expr :: args => do
      let (name, args) ← registry.planSubstring (expr :: .literal (.int64 1) :: args)
      return .node name args
  | .substring false false, _ => .error (.invalidPlan "substring without FROM or FOR is not valid")
  | .like negated caseInsensitive escapeChar, args =>
      .ok (.node s!"LIKE {negated} {caseInsensitive} {escapeChar}" args)
  | .isNull negated, args => .ok (.node s!"IS NULL {negated}" args)
  | .between negated, args => .ok (.node s!"BETWEEN {negated}" args)
  | .inList negated, args => .ok (.node s!"IN LIST {negated}" args)
  | .case hasOperand conditions hasElse, args =>
      .ok (.node s!"CASE {hasOperand} {conditions} {hasElse}" args)
  | _, _ => .error (.unsupportedPlan "unsupported expression")

/-- `validate_single_column_subquery`. -/
def singleColumn (subquery : PlannedSubquery) : Except PlannerError Unit :=
  if subquery.columnCount = 1 then .ok ()
  else .error (.plan s!"subquery must return exactly one column, got {subquery.columnCount}")

/-- `bind_function`, over the bound expressions of the call. -/
def bindCall (registry : FunctionRegistry) (head : FunctionHead) (args filter orderBy : List Expr)
    (directions : List OrderByOptions) (hasWithinGroup : Bool) : Except PlannerError Expr :=
  if head.overClause.isSome || head.parameters.isSome then
    .error (.unsupportedPlan "unsupported function shape")
  else if registry.scalar head.name.toString then
    if !filter.isEmpty || head.nullTreatment.isSome || !orderBy.isEmpty || hasWithinGroup then
      .error (.unsupportedPlan "unsupported scalar function shape")
    else .ok (.node head.name.toString args)
  else if registry.aggregate head.name.toString then do
    let (aggregate, operands) ← registry.planAggregate
      ⟨head.name.toString, head.distinct, !filter.isEmpty, directions, head.nullTreatment⟩
      (args ++ filter ++ orderBy)
    return .aggregateFunction aggregate operands
  else .error (.unsupportedPlan "function not found in DataFusion function registry")

/-! ## Expressions -/

section

variable (binder : ExprBinder Q)

mutual
/-- `bind_expr_with_subqueries`. -/
def bindExpr : AstExpr Q → Except PlannerError Expr
  | .identifier idents => .ok (.column (identColumn idents))
  | .value text => bindValue text
  | .interval value => do
      let text ← intervalLiteral (intervalArgument value) false
      binder.registry.parseInterval text
      return .node ("INTERVAL " ++ text) []
  | .compound kind args => do
      let args ← bindExprs args
      bindCompound binder.registry kind args
  | .inSubquery expr subquery negated => do
      let planned ← binder.planSubquery subquery
      singleColumn planned
      let expr ← bindExpr expr
      return .subquery s!"IN {negated} {planned.plan}" planned.outerColumns [expr]
  | .existsSubquery subquery negated => do
      let planned ← binder.planSubquery subquery
      return .subquery s!"EXISTS {negated} {planned.plan}" planned.outerColumns []
  | .subquery subquery => do
      let planned ← binder.planSubquery subquery
      singleColumn planned
      return .subquery planned.plan planned.outerColumns []
  | .function head args filter orderBy withinGroup => do
      let args ← bindArgs args
      let orderBy' ← bindOrderBy orderBy
      let filter ← bindFilter filter
      bindCall binder.registry head args filter orderBy' (orderBy.map Prod.snd) !withinGroup.isEmpty
  | .wildcard qualifier => .ok (.wildcard (qualifier.map ObjectName.toString))
  | .unsupported _ => .error (.unsupportedPlan "unsupported expression")

/-- Operands, one by one. -/
def bindExprs : List (AstExpr Q) → Except PlannerError (List Expr)
  | [] => .ok []
  | expr :: exprs => do
      let expr ← bindExpr expr
      let exprs ← bindExprs exprs
      return expr :: exprs

/-- The arguments of a call; their names are dropped. -/
def bindArgs : List (Option Ident × AstExpr Q) → Except PlannerError (List Expr)
  | [] => .ok []
  | (_, expr) :: args => do
      let expr ← bindExpr expr
      let args ← bindArgs args
      return expr :: args

/-- The sort keys of a call. -/
def bindOrderBy : List (AstExpr Q × OrderByOptions) → Except PlannerError (List Expr)
  | [] => .ok []
  | (expr, _) :: keys => do
      let expr ← bindExpr expr
      let keys ← bindOrderBy keys
      return expr :: keys

/-- The filter of a call. -/
def bindFilter : Option (AstExpr Q) → Except PlannerError (List Expr)
  | none => .ok []
  | some expr => do
      let expr ← bindExpr expr
      return [expr]
end

end

/-! ## Scopes -/

/-- `QueryBindScope`. -/
structure QueryBindScope where
  localFields : List VisibleField
  outerFields : List VisibleField

/-- `matches`: names and qualifiers are compared without case. -/
def fieldMatches (field : VisibleField) (column : Column) : Bool :=
  decide (AsciiCase.Same field.name column.name) &&
    match column.relation with
    | none => true
    | some relation => field.qualifier.any fun qualifier =>
        decide (AsciiCase.Same qualifier relation.table) || decide (AsciiCase.Same qualifier relation.toString)

/-- The only field that matches. -/
def onlyField (fields : List VisibleField) (column : Column) : Option VisibleField :=
  match fields.filter (fieldMatches · column) with
  | [field] => some field
  | _ => none

namespace QueryBindScope

variable (scope : QueryBindScope)

/-- `canonical_column_relation`. -/
def canonicalRelation (column : Column) (field : VisibleField) : Option TableReference :=
  column.relation.map fun relation => (field.qualifier.map TableReference.bare).getD relation

/-- One column of `rewrite_columns_to_visible_fields`. -/
def visibleColumn (column : Column) : Expr :=
  match onlyField scope.localFields column with
  | some field => .column ⟨canonicalRelation column field, field.name⟩
  | none => .column column

/-- One column of `rewrite_outer_references`. -/
def outerColumn (column : Column) : Expr :=
  if scope.localFields.any (fieldMatches · column) then .column column
  else match onlyField scope.outerFields column with
    | some _ => .outerReferenceColumn column
    | none => .column column

/-- `bind_expr_for_query`. -/
def bindExprForQuery (binder : ExprBinder Q) (expr : AstExpr Q) : Except PlannerError Expr := do
  let expr ← bindExpr binder expr
  return (expr.mapColumns scope.visibleColumn).mapColumns scope.outerColumn

end QueryBindScope

end BrewDB.Bound

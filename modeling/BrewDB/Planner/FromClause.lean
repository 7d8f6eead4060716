import BrewDB.Common.AsciiCase
import BrewDB.Common.ExceptState
import BrewDB.Planner.Ast

/-!
# The two readings of a `FROM` clause

Reference: `visible_fields_for_select` of `brewdb-planner/src/logical/query/scope.rs`,
`build_from_input` of `query/input.rs`, `build_table_factor` and what it calls of `relation.rs`, and the
lookups of `context.rs`.

The binder lists the columns a `FROM` clause makes visible; the planner builds the plan of the clause.
Both walk the same syntax on their own. Reasons of errors leave out the printed syntax.
-/

namespace BrewDB

/-! ## Lookups -/

/-- A table of the statement with its columns. -/
structure QueryTable where
  entry : TableCatalogEntry
  fields : List Field
deriving DecidableEq, Repr

/-- The plan of a CTE as far as its uses see it: the name that declared it and its fields. -/
structure CtePlan where
  name : Ident
  fields : List Field
  nodup : (fields.map Field.name).Nodup

/-- What names are looked up in: the tables of the statement and the CTEs in scope. -/
structure QueryPlannerContext where
  tables : List QueryTable
  ctes : List CtePlan

/-- The identifiers of a name, each as some text. -/
def identTexts (text : Ident → String) (parts : List ObjectNamePart) : Except PlannerError (List String) :=
  parts.mapM fun part =>
    match part.asIdent with
    | some ident => .ok (text ident)
    | none => .error (.unsupportedPlan "unsupported table name part")

/-- `object_name_parts`. -/
def objectNameParts (name : ObjectName) : Except PlannerError (List String) :=
  identTexts Ident.value name.parts

/-- `cte_name_from_object_name`: only a name of one part can be a CTE. -/
def cteNameFromObjectName (name : ObjectName) : Except PlannerError (Option String) :=
  match name.parts with
  | [part] =>
      match part.asIdent with
      | some ident => .ok (some ident.tableReferencePart)
      | none => .error (.unsupportedPlan "unsupported table name part")
  | _ => .ok none

/-- A table whose path ends with these parts. -/
def TablePath.endsWith (path : TablePath) : List String → Bool
  | [table] => path.table = table
  | [database, table] => path.database = database && path.table = table
  | [catalog, database, table] =>
      path.catalog = catalog && path.database = database && path.table = table
  | _ => false

namespace QueryPlannerContext

/-- `QueryPlannerContext::resolve_table`: the only table of the statement whose path ends with the
name. -/
def resolveTable (ctx : QueryPlannerContext) (name : ObjectName) : Except PlannerError QueryTable := do
  let parts ← objectNameParts name
  match ctx.tables.filter fun table => table.entry.path.endsWith parts with
  | [] => .error (.invalidPlan ("table `" ++ name.toString ++ "` is not available in query scope"))
  | [table] => .ok table
  | _ => .error (.invalidPlan ("table `" ++ name.toString ++ "` is ambiguous in query scope"))

/-- `QueryPlannerContext::cte`. -/
def cte (ctx : QueryPlannerContext) (name : ObjectName) : Except PlannerError (Option CtePlan) := do
  let cteName ← cteNameFromObjectName name
  return cteName.bind fun cteName => ctx.ctes.find? fun cte => cte.name.tableReferencePart = cteName

/-- `QueryPlannerContext::table_reference_for_scan`. -/
def tableReferenceForScan (name : ObjectName) (tableAlias : Option TableAlias) :
    Except PlannerError TableReference := do
  match tableAlias with
  | some tableAlias => return .bare tableAlias.name.tableReferencePart
  | none =>
      match ← identTexts Ident.tableReferencePart name.parts with
      | [table] => return .bare table
      | [schema, table] => return .qualified schema table
      | [catalog, schema, table] => return .full catalog schema table
      | _ => .error (.invalidPlan ("invalid table name `" ++ name.toString ++ "`"))

end QueryPlannerContext

/-! ## The visible fields -/

/-- A column as the binder sees it. -/
structure VisibleField where
  qualifier : Option String
  name : String
deriving DecidableEq, Repr

/-- The fields of a table under one qualifier. -/
def VisibleField.under (qualifier : String) (fields : List Field) : List VisibleField :=
  fields.map fun field => ⟨some qualifier, field.name⟩

variable {Q : Type}

mutual
/-- `collect_visible_fields_for_table_factor`. -/
def visibleFieldsForTableFactor (ctx : QueryPlannerContext) :
    TableFactor Q → Except PlannerError (List VisibleField)
  | .table name tableAlias _ => do
      let qualifier := (tableAlias.map (·.name.value)).getD name.toString
      match ← ctx.cte name with
      | some cte => return VisibleField.under qualifier cte.fields
      | none =>
          let table ← ctx.resolveTable name
          return VisibleField.under qualifier table.fields
  | .nestedJoin relation joins _ => do
      let fields ← visibleFieldsForTableFactor ctx relation
      return fields ++ (← visibleFieldsForJoins ctx joins)
  | .derived _ _ (some tableAlias) _ =>
      .ok (tableAlias.columns.map fun column => ⟨some tableAlias.name.value, column.name.value⟩)
  | .derived _ _ none _ => .ok []
  | .other _ => .ok []

/-- The joined tables, one by one. -/
def visibleFieldsForJoins (ctx : QueryPlannerContext) :
    List (AstJoin Q) → Except PlannerError (List VisibleField)
  | [] => .ok []
  | .mk relation _ _ _ :: joins => do
      let fields ← visibleFieldsForTableFactor ctx relation
      return fields ++ (← visibleFieldsForJoins ctx joins)
end

/-- `collect_visible_fields_for_table_with_joins`. -/
def visibleFieldsForTableWithJoins (ctx : QueryPlannerContext) (table : TableWithJoins Q) :
    Except PlannerError (List VisibleField) := do
  let fields ← visibleFieldsForTableFactor ctx table.relation
  return fields ++ (← visibleFieldsForJoins ctx table.joins)

/-- `visible_fields_for_select`. -/
def visibleFieldsForSelect (ctx : QueryPlannerContext) (select : Select Q) :
    Except PlannerError (List VisibleField) := do
  let fields ← select.fromTables.mapM (visibleFieldsForTableWithJoins ctx)
  return fields.flatten

/-! ## The plan -/

/-- What the planning of a `FROM` clause calls: the planner for derived tables, the binder of join
conditions, and DataFusion's checks and names. -/
structure FromEnv (Q : Type) where
  /-- The output of a nested query, planned with the CTEs in scope and no outer query. -/
  planQuery : Q → Except PlannerError DFSchema
  bindOn : AstExpr Q → DFSchema → DFSchema → Except PlannerError Unit
  bindUsing : List String → DFSchema → DFSchema → Except PlannerError Unit
  /-- `TableReference::parse_str`. -/
  parseReference : String → TableReference
  /-- `unique_field_aliases`: fields are renamed only if a name occurs twice. -/
  uniqueFields : List Field → List Field
  uniqueFields_of_nodup : ∀ fields, (fields.map Field.name).Nodup → uniqueFields fields = fields
  length_uniqueFields : ∀ fields, (uniqueFields fields).length = fields.length
  /-- `DFSchema::check_names`. -/
  checkNames : DFSchema → Except PlannerError Unit

namespace FromEnv

variable (env : FromEnv Q) (ctx : QueryPlannerContext)

/-- A schema whose names pass the check. -/
def checked (schema : DFSchema) : Except PlannerError DFSchema := do
  env.checkNames schema
  return schema

/-- The fields with nulls allowed. -/
def nullable (fields : List (Option TableReference × Field)) : List (Option TableReference × Field) :=
  fields.map fun f => (f.1, { f.2 with nullable := true })

/-- `build_join_schema`. -/
def joinSchema (joinType : JoinType) (left right : DFSchema) : Except PlannerError DFSchema :=
  match joinType with
  | .inner => env.checked ⟨left.qualifiedFields ++ right.qualifiedFields⟩
  | .left => env.checked ⟨left.qualifiedFields ++ nullable right.qualifiedFields⟩
  | .right => env.checked ⟨nullable left.qualifiedFields ++ right.qualifiedFields⟩
  | .full => env.checked ⟨nullable left.qualifiedFields ++ nullable right.qualifiedFields⟩
  | .leftSemi => env.checked left
  | .leftAnti => env.checked left
  | .rightSemi => env.checked right
  | .rightAnti => env.checked right

/-- `bind_join_operator`. -/
def bindJoinOperator : JoinKind → Except PlannerError JoinType
  | .join => .ok .inner
  | .inner => .ok .inner
  | .left => .ok .left
  | .leftOuter => .ok .left
  | .right => .ok .right
  | .rightOuter => .ok .right
  | .fullOuter => .ok .full
  | .semi => .ok .leftSemi
  | .leftSemi => .ok .leftSemi
  | .rightSemi => .ok .rightSemi
  | .anti => .ok .leftAnti
  | .leftAnti => .ok .leftAnti
  | .rightAnti => .ok .rightAnti
  | .crossJoin => .error (.internal "cross join handled before join binding")
  | .other _ => .error (.unsupportedPlan "unsupported join operator")

/-- `join_using_key`. -/
def joinUsingKey (name : ObjectName) : Except PlannerError String :=
  match name.parts with
  | [] => .error (.invalidPlan "empty USING column name")
  | [part] =>
      match part.asIdent with
      | some ident => .ok ident.tableReferencePart
      | none => .error (.unsupportedPlan "expected identifier in USING clause")
  | _ => .error (.unsupportedPlan "invalid identifier in USING clause")

/-- `build_join_with_constraint`. -/
def buildJoinWithConstraint (left right : DFSchema) (joinType : JoinType) :
    AstJoinConstraint Q → Except PlannerError DFSchema
  | .onExpr expr => do
      env.bindOn expr left right
      env.joinSchema joinType left right
  | .usingColumns columns => do
      let keys ← columns.mapM joinUsingKey
      env.bindUsing keys left right
      env.joinSchema joinType left right
  | .natural =>
      let keys := (right.asArrow.map Field.name).filter (· ∈ left.asArrow.map Field.name)
      if keys.isEmpty then env.joinSchema .inner left right
      else do
        env.bindUsing keys left right
        env.joinSchema joinType left right
  | .absent => env.joinSchema joinType left right

/-- `build_join`, with the right side built. -/
def buildJoin (left right : DFSchema) (kind : JoinKind) (constraint : AstJoinConstraint Q) :
    Except PlannerError DFSchema :=
  if kind = .crossJoin then env.joinSchema .inner left right
  else do
    let joinType ← bindJoinOperator kind
    env.buildJoinWithConstraint left right joinType constraint

/-- `apply_column_aliases`: the fields under the names of the list, if there is one. -/
def applyColumnAliases (input : DFSchema) (tableAlias : TableAlias) : Except PlannerError DFSchema :=
  if tableAlias.columns = [] then .ok input
  else if tableAlias.columns.any (·.dataType.isSome) then
    .error (.unsupportedPlan "typed derived table column alias is not supported yet")
  else if tableAlias.columns.length ≠ input.qualifiedFields.length then
    .error (.invalidPlan ("derived table alias `" ++ tableAlias.name.toString ++ "` defines " ++
      s!"{tableAlias.columns.length} columns but subquery returns {input.qualifiedFields.length} columns"))
  else if (tableAlias.columns.map (·.name.value)).Nodup then
    .ok ⟨input.qualifiedFields.zipWith (fun f column => (none, { f.2 with name := column.name.value }))
      tableAlias.columns⟩
  else .error (.plan "Projections require unique expression names")

/-- `apply_table_alias`. -/
def applyTableAlias (input : DFSchema) (tableAlias : TableAlias) : Except PlannerError DFSchema := do
  let input ← applyColumnAliases input tableAlias
  return ⟨(env.uniqueFields input.asArrow).map fun f => (some (env.parseReference tableAlias.name.value), f)⟩

/-- The schema of a CTE's plan. -/
def cteSchema (cte : CtePlan) : DFSchema :=
  ⟨cte.fields.map fun f => (some (env.parseReference cte.name.value), f)⟩

mutual
/-- `build_table_factor`. -/
def buildTableFactor : TableFactor Q → Except PlannerError DFSchema
  | .table _ _ (some _) => .error (.unsupportedPlan "unsupported table factor")
  | .table name tableAlias none => do
      match ← ctx.cte name with
      | some cte =>
          match tableAlias with
          | some tableAlias => env.applyTableAlias (env.cteSchema cte) tableAlias
          | none => return env.cteSchema cte
      | none =>
          let table ← ctx.resolveTable name
          let scanName ← QueryPlannerContext.tableReferenceForScan name tableAlias
          env.checked ⟨table.fields.map fun f => (some scanName, f)⟩
  | .derived lateral subquery tableAlias sample => do
      if lateral || sample.isSome then .error (.unsupportedPlan "unsupported table factor")
      else
        let input ← env.planQuery subquery
        match tableAlias with
        | some tableAlias => env.applyTableAlias input tableAlias
        | none => return input
  | .nestedJoin relation joins tableAlias => do
      if tableAlias.isSome then .error (.unsupportedPlan "unsupported nested join alias")
      else
        let input ← buildTableFactor relation
        buildJoins input joins
  | .other _ => .error (.unsupportedPlan "unsupported table factor")

/-- The loop of `build_table_with_joins`. -/
def buildJoins : DFSchema → List (AstJoin Q) → Except PlannerError DFSchema
  | left, [] => .ok left
  | left, .mk relation _ kind constraint :: joins => do
      let right ← buildTableFactor relation
      let joined ← env.buildJoin left right kind constraint
      buildJoins joined joins
end

/-- `build_table_with_joins`. -/
def buildTableWithJoins (table : TableWithJoins Q) : Except PlannerError DFSchema := do
  let input ← env.buildTableFactor ctx table.relation
  env.buildJoins ctx input table.joins

/-- The cross joins of `build_from_input`. -/
def crossJoinAll : DFSchema → List DFSchema → Except PlannerError DFSchema
  | input, [] => .ok input
  | input, next :: inputs => do
      let joined ← env.joinSchema .inner input next
      crossJoinAll joined inputs

/-- `build_from_input`. -/
def buildFromInput (select : Select Q) : Except PlannerError DFSchema := do
  let inputs ← select.fromTables.mapM (env.buildTableWithJoins ctx)
  match inputs with
  | [] => return ⟨[]⟩
  | input :: inputs => env.crossJoinAll input inputs

end FromEnv

end BrewDB

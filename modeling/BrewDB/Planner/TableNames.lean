import BrewDB.Planner.FromClause

/-!
# Binding table names

Reference: `resolve_query_tables` and the functions `collect_*` of
`brewdb-planner/src/logical/planner.rs`, `bind_query_statement` and `plan_query` of `query.rs`,
`plan_with_clause` of `query/cte.rs`, `bind_expr_for_query` of `query/expression.rs`, and the lookups of
`context.rs`.

A statement is walked twice. `collectQueryTableNames` gathers the names that are not CTEs and looks them
up in the catalog; `planQuery` then plans the query and looks every name up again, among the CTEs in
scope and the tables gathered before. Both walks are given by what they meet in each query, in order;
planning is modelled as far as the tables it binds. Reasons of errors leave out the printed syntax.
-/

namespace BrewDB

/-! ## What the walks meet -/

/-- What a walk meets in a query. -/
inductive NameItem (Q : Type) where
  | table (name : ObjectName)
  /-- A query in the place of a table or of a query body. -/
  | nested (query : Q)
  /-- A subquery of an expression. -/
  | inExpr (query : Q)
  | reject (error : PlannerError)

/-- The functions of the registry, each with the name it is registered under. -/
structure FunctionRegistry where
  /-- `QueryPlannerContext::scalar_function`. -/
  scalar : String → Option String
  /-- `QueryPlannerContext::aggregate_function`. -/
  aggregate : String → Option String

variable {Q : Type}

/-! ### The first walk -/

mutual
/-- `collect_expr_table_names`: the subqueries it visits. -/
def AstExpr.collected : AstExpr Q → List Q
  | .identifier _ => []
  | .value _ => []
  | .interval value => value.collected
  | .compound _ args => collectedArgs args
  | .inSubquery expr subquery _ => expr.collected ++ [subquery]
  | .existsSubquery subquery _ => [subquery]
  | .subquery subquery => [subquery]
  | .function _ args filter _ _ => collectedNamedArgs args ++ collectedFilter filter
  | .wildcard _ => []
  | .unsupported _ => []

def collectedArgs : List (AstExpr Q) → List Q
  | [] => []
  | arg :: args => arg.collected ++ collectedArgs args

def collectedNamedArgs : List (Option Ident × AstExpr Q) → List Q
  | [] => []
  | (_, arg) :: args => arg.collected ++ collectedNamedArgs args

def collectedFilter : Option (AstExpr Q) → List Q
  | none => []
  | some filter => filter.collected
end

mutual
/-- `collect_table_factor_names`. -/
def TableFactor.collected : TableFactor Q → List (NameItem Q)
  | .table name _ _ => [.table name]
  | .derived lateral subquery _ sample =>
      if lateral || sample.isSome then [.reject (.unsupportedPlan "unsupported table factor")]
      else [.nested subquery]
  | .nestedJoin relation joins tableAlias =>
      if tableAlias.isSome then [.reject (.unsupportedPlan "unsupported nested join alias")]
      else relation.collected ++ collectedJoins joins
  | .other _ => [.reject (.unsupportedPlan "unsupported table factor")]

def collectedJoins : List (AstJoin Q) → List (NameItem Q)
  | [] => []
  | .mk relation _ _ _ :: joins => relation.collected ++ collectedJoins joins
end

/-- `collect_select_item_table_names`. -/
def SelectItem.collected : SelectItem Q → List Q
  | .unnamedExpr expr => expr.collected
  | .exprWithAlias expr _ => expr.collected
  | .exprWithAliases expr _ => expr.collected
  | .qualifiedWildcard _ _ => []
  | .wildcard _ => []

/-- The expressions of a `GROUP BY`. -/
def GroupByExpr.exprs : GroupByExpr Q → List (AstExpr Q)
  | .all _ => []
  | .expressions exprs _ => exprs

/-- `collect_set_expr_table_names` on a `SELECT`. -/
def Select.collected (select : Select Q) : List (NameItem Q) :=
  select.fromTables.flatMap (fun table => table.relation.collected ++ collectedJoins table.joins) ++
    (select.projection.flatMap SelectItem.collected ++ collectedFilter select.selection ++
      collectedArgs select.groupBy.exprs ++ collectedFilter select.having).map .inExpr

/-- `collect_set_expr_table_names`. -/
def SetExpr.collected : SetExpr Q → List (NameItem Q)
  | .select s => s.collected
  | .query q => [.nested q]
  | .setOperation left _ _ right => left.collected ++ right.collected
  | .values _ _ => []
  | .other _ => [.reject (.unsupportedPlan "unsupported query body")]

/-! ### The second walk -/

/-- `interval_literal`: a literal under signs. -/
def AstExpr.isIntervalLiteral : AstExpr Q → Bool
  | .value _ => true
  | .compound (.unaryOp op) [arg] => (op = "-" || op = "+") && arg.isIntervalLiteral
  | _ => false

variable (registry : FunctionRegistry)

mutual
/-- `bind_expr_with_subqueries`: the subqueries it plans. -/
def AstExpr.planned : AstExpr Q → List (NameItem Q)
  | .identifier _ => []
  | .value _ => []
  | .interval value =>
      if value.isIntervalLiteral then [] else [.reject (.unsupportedPlan "unsupported interval argument")]
  | .compound _ args => plannedArgs args
  | .inSubquery expr subquery _ => .inExpr subquery :: expr.planned
  | .existsSubquery subquery _ => [.inExpr subquery]
  | .subquery subquery => [.inExpr subquery]
  | .function head args filter orderBy withinGroup =>
      if head.overClause.isSome || head.parameters.isSome then
        [.reject (.unsupportedPlan "unsupported function shape")]
      else if !orderBy.isEmpty && !withinGroup.isEmpty then
        [.reject (.unsupportedPlan "duplicated function ORDER BY clause")]
      else
        plannedNamedArgs args ++ plannedSortKeys orderBy ++
          if (registry.scalar head.name.toString).isSome then
            if filter.isSome || head.nullTreatment.isSome || !orderBy.isEmpty || !withinGroup.isEmpty then
              [.reject (.unsupportedPlan "unsupported scalar function shape")]
            else []
          else if (registry.aggregate head.name.toString).isSome then plannedFilter filter
          else [.reject (.unsupportedPlan "function not found in DataFusion function registry")]
  | .wildcard _ => []
  | .unsupported _ => [.reject (.unsupportedPlan "unsupported expression")]

def plannedArgs : List (AstExpr Q) → List (NameItem Q)
  | [] => []
  | arg :: args => arg.planned ++ plannedArgs args

def plannedNamedArgs : List (Option Ident × AstExpr Q) → List (NameItem Q)
  | [] => []
  | (_, arg) :: args => arg.planned ++ plannedNamedArgs args

def plannedSortKeys : List (AstExpr Q × OrderByOptions) → List (NameItem Q)
  | [] => []
  | (key, _) :: keys => key.planned ++ plannedSortKeys keys

def plannedFilter : Option (AstExpr Q) → List (NameItem Q)
  | none => []
  | some filter => filter.planned
end

mutual
/-- `collect_visible_fields_for_table_factor`: the names it looks up. -/
def TableFactor.lookedUp : TableFactor Q → List (NameItem Q)
  | .table name _ _ => [.table name]
  | .derived _ _ _ _ => []
  | .nestedJoin relation joins _ => relation.lookedUp ++ lookedUpJoins joins
  | .other _ => []

def lookedUpJoins : List (AstJoin Q) → List (NameItem Q)
  | [] => []
  | .mk relation _ _ _ :: joins => relation.lookedUp ++ lookedUpJoins joins
end

/-- `build_join` after its right side: the condition is bound unless the join is a cross join. -/
def plannedJoinCondition (kind : JoinKind) (constraint : AstJoinConstraint Q) : List (NameItem Q) :=
  if kind = .crossJoin then []
  else
    match FromEnv.bindJoinOperator kind with
    | .error error => [.reject error]
    | .ok _ =>
        match constraint with
        | .onExpr expr => expr.planned registry
        | _ => []

mutual
/-- `build_table_factor`. -/
def TableFactor.planned : TableFactor Q → List (NameItem Q)
  | .table _ _ (some _) => [.reject (.unsupportedPlan "unsupported table factor")]
  | .table name _ none => [.table name]
  | .derived lateral subquery _ sample =>
      if lateral || sample.isSome then [.reject (.unsupportedPlan "unsupported table factor")]
      else [.nested subquery]
  | .nestedJoin relation joins tableAlias =>
      if tableAlias.isSome then [.reject (.unsupportedPlan "unsupported nested join alias")]
      else relation.planned ++ plannedJoins joins
  | .other _ => [.reject (.unsupportedPlan "unsupported table factor")]

def plannedJoins : List (AstJoin Q) → List (NameItem Q)
  | [] => []
  | .mk relation _ kind constraint :: joins =>
      relation.planned ++ plannedJoinCondition registry kind constraint ++ plannedJoins joins
end

/-- `bind_select_item`. -/
def SelectItem.planned : SelectItem Q → List (NameItem Q)
  | .unnamedExpr expr => expr.planned registry
  | .exprWithAlias expr _ => expr.planned registry
  | .exprWithAliases expr aliases =>
      if aliases.isEmpty then [.reject (.invalidPlan "projection aliases must not be empty")]
      else expr.planned registry
  | .qualifiedWildcard _ _ => []
  | .wildcard _ => []

/-- `bind_distinct`. -/
def plannedDistinct : Option (Distinct Q) → List (NameItem Q)
  | some (.distinctOn exprs) => plannedArgs registry exprs
  | _ => []

/-- `bind_order_by`. -/
def plannedOrderBy : Option (OrderBy Q) → List (NameItem Q)
  | none => []
  | some orderBy =>
      if orderBy.interpolate.isSome then [.reject (.unsupportedPlan "unsupported order by shape")]
      else
        match orderBy.kind with
        | .all _ => []
        | .expressions exprs =>
            exprs.flatMap fun key =>
              if key.withFill.isSome then [.reject (.unsupportedPlan "unsupported order by expression")]
              else key.expr.planned registry

/-- `bind_limit`. -/
def plannedLimit : Option (LimitClause Q) → List (NameItem Q)
  | none => []
  | some (.limitOffset limit offset limitBy) =>
      if limitBy.isEmpty then plannedFilter registry offset ++ plannedFilter registry limit
      else [.reject (.unsupportedPlan "limit by is not supported yet")]
  | some (.offsetCommaLimit offset limit) => offset.planned registry ++ limit.planned registry

/-- The clauses of a `SELECT` that `bind_select` rejects. -/
def Select.hasUnsupportedShape (select : Select Q) : Bool :=
  select.prewhere.isSome || !select.lateralViews.isEmpty || !select.connectBy.isEmpty ||
    !select.clusterBy.isEmpty || !select.distributeBy.isEmpty || !select.sortBy.isEmpty ||
    !select.namedWindow.isEmpty || select.qualify.isSome

/-- `plan_select_query`: `bind_select`, then `build_from_input`. -/
def Select.planned (select : Select Q) (orderBy : Option (OrderBy Q)) (limit : Option (LimitClause Q)) :
    List (NameItem Q) :=
  if select.hasUnsupportedShape then [.reject (.unsupportedPlan "unsupported select shape")]
  else
    select.fromTables.flatMap (fun table => table.relation.lookedUp ++ lookedUpJoins table.joins) ++
      select.projection.flatMap (SelectItem.planned registry) ++
      plannedArgs registry select.groupBy.exprs ++ plannedFilter registry select.having ++
      plannedDistinct registry select.distinct ++ plannedOrderBy registry orderBy ++
      plannedLimit registry limit ++ plannedFilter registry select.selection ++
      select.fromTables.flatMap
        (fun table => table.relation.planned registry ++ plannedJoins registry table.joins)

/-- An item of an expression of `VALUES`, where subqueries are not planned. -/
def NameItem.inValues : NameItem Q → NameItem Q
  | .inExpr _ => .reject (.unsupportedPlan "unsupported subquery")
  | item => item

/-- `plan_set_expr`. -/
def SetExpr.planned : SetExpr Q → List (NameItem Q)
  | .select s => s.planned registry none none
  | .query q => [.nested q]
  | .setOperation left _ _ right => left.planned ++ right.planned
  | .values rows valueKeyword =>
      if valueKeyword then [.reject (.unsupportedPlan "`VALUE` keyword not supported. Did you mean `VALUES`?")]
      else (rows.flatMap (plannedArgs registry)).map .inValues
  | .other _ => [.reject (.unsupportedPlan "unsupported query body")]

/-- `plan_query` after the `WITH` clause. -/
def QueryOver.planned (query : QueryOver Q) : List (NameItem Q) :=
  match query.body with
  | .select select => select.planned registry query.orderBy query.limitClause
  | body => body.planned registry ++ plannedOrderBy registry query.orderBy ++
      plannedLimit registry query.limitClause

/-! ## The catalog -/

/-- The catalogs of the service: tables by their paths. -/
structure TableCatalog where
  tables : List QueryTable
  nodup_path : (tables.map (·.entry.path)).Nodup
  nodup_tableId : (tables.map (·.entry.tableId)).Nodup

/-- `LogicalPlanningSession`. -/
structure PlanningSession where
  catalogName : String
  databaseName : String
deriving DecidableEq, Repr

/-- `name_parts`. -/
def nameParts (name : ObjectName) : Except PlannerError (List String) :=
  name.parts.mapM fun
    | .identifier ident => .ok ident.value
    | .function _ => .error (.unsupportedPlan "dynamic object names are not supported")

/-- `qualify_table_name`. -/
def qualifyTableName (session : PlanningSession) (name : ObjectName) : Except PlannerError TablePath := do
  match ← nameParts name with
  | [table] => return ⟨session.catalogName, session.databaseName, table⟩
  | [database, table] => return ⟨session.catalogName, database, table⟩
  | [catalog, database, table] => return ⟨catalog, database, table⟩
  | _ => .error (.invalidPlan ("invalid table name `" ++ name.toString ++ "`"))

/-- `Catalog::get_table`. -/
def TableCatalog.getTable (catalog : TableCatalog) (path : TablePath) : Except PlannerError QueryTable :=
  match catalog.tables.find? (·.entry.path = path) with
  | some table => .ok table
  | none => .error (.invalidPlan
      ("table `" ++ path.catalog ++ "." ++ path.database ++ "." ++ path.table ++ "` not found"))

/-- `resolve_table`. -/
def TableCatalog.resolveTable (catalog : TableCatalog) (session : PlanningSession) (name : ObjectName) :
    Except PlannerError QueryTable := do
  catalog.getTable (← qualifyTableName session name)

/-! ## The first pass -/

/-- The names gathered so far and the CTE names in scope. -/
structure CollectedNames where
  names : List ObjectName
  ctesInScope : Finset String

/-- `collect_query_table_names` after the `WITH` clause. -/
def collectItems (collectQuery : Q → CollectedNames → Except PlannerError CollectedNames) :
    List (NameItem Q) → CollectedNames → Except PlannerError CollectedNames
  | [], state => .ok state
  | .table name :: items, state => do
      match ← cteNameFromObjectName name with
      | some cteName =>
          if cteName ∈ state.ctesInScope then collectItems collectQuery items state
          else collectItems collectQuery items { state with names := state.names ++ [name] }
      | none => collectItems collectQuery items { state with names := state.names ++ [name] }
  | .nested query :: items, state => do collectItems collectQuery items (← collectQuery query state)
  | .inExpr query :: items, state => do collectItems collectQuery items (← collectQuery query state)
  | .reject error :: _, _ => .error error

/-- The name a CTE is declared under. -/
def Cte.cteName (cte : Cte Q) : String := cte.tableAlias.name.tableReferencePart

/-- The loop of `collect_query_table_names` over the `WITH` clause. -/
def collectWith (collectQuery : Q → CollectedNames → Except PlannerError CollectedNames) :
    List (Cte Q) → CollectedNames → Except PlannerError CollectedNames
  | [], state => .ok state
  | cte :: ctes, state => do
      let state ← collectQuery cte.query state
      collectWith collectQuery ctes
        { state with ctesInScope := insert cte.cteName state.ctesInScope }

/-- The tables of a `WITH` clause. Recursive ones are rejected. -/
def QueryOver.cteTables (query : QueryOver Q) : Except PlannerError (List (Cte Q)) :=
  match query.withClause with
  | none => .ok []
  | some withClause =>
      if withClause.recursive then .error (.unsupportedPlan "recursive CTEs are not supported yet")
      else .ok withClause.cteTables

/-- `collect_query_table_names`. -/
def collectQueryTableNames : (n : ℕ) → Query n → CollectedNames → Except PlannerError CollectedNames
  | 0, query, _ => nomatch query
  | n + 1, query, state => do
      let ctes ← QueryOver.cteTables query
      let state ← collectWith (collectQueryTableNames n) ctes state
      let state ← collectItems (collectQueryTableNames n) query.body.collected state
      return { state with ctesInScope := (ctes.map Cte.cteName).foldl Finset.erase state.ctesInScope }

/-- The loop of `resolve_query_tables`: each table once. -/
def dedupeTables : List QueryTable → List Uuid → List QueryTable
  | [], _ => []
  | table :: tables, seen =>
      if table.entry.tableId ∈ seen then dedupeTables tables seen
      else table :: dedupeTables tables (table.entry.tableId :: seen)

/-- `resolve_query_tables`. -/
def resolveQueryTables (catalog : TableCatalog) (session : PlanningSession) {n : ℕ} (query : Query n) :
    Except PlannerError (List QueryTable) := do
  let state ← collectQueryTableNames n query ⟨[], ∅⟩
  let tables ← state.names.mapM (catalog.resolveTable session)
  return dedupeTables tables []

/-! ## The second pass -/

/-- What a table name is bound to. A CTE is its query with the tables that query reads. -/
inductive BoundTable where
  | base (table : QueryTable)
  | cte (name : String) (query : Σ n, Query n) (tables : List BoundTable)

/-- The CTEs in scope. -/
abbrev CteScope := List (String × BoundTable)

/-- A name, looked up among the CTEs first. -/
def bindTableName (resolveBase : ObjectName → Except PlannerError QueryTable) (ctes : CteScope)
    (name : ObjectName) : Except PlannerError BoundTable := do
  let cteName ← cteNameFromObjectName name
  match cteName.bind fun cteName => ctes.find? (·.1 = cteName) with
  | some (_, cte) => return cte
  | none => return .base (← resolveBase name)

section Planning

variable (tables : List QueryTable)

/-- The lookups of `plan_query` after the `WITH` clause. Subqueries of expressions start with no CTEs. -/
def planItems (planQuery : Q → CteScope → Except PlannerError (List BoundTable × CteScope)) :
    List (NameItem Q) → CteScope → Except PlannerError (List BoundTable × CteScope)
  | [], ctes => .ok ([], ctes)
  | .table name :: items, ctes => do
      let table ← bindTableName (QueryPlannerContext.resolveTable ⟨tables, []⟩) ctes name
      let (bound, ctes) ← planItems planQuery items ctes
      return (table :: bound, ctes)
  | .nested query :: items, ctes => do
      let (nested, ctes) ← planQuery query ctes
      let (bound, ctes) ← planItems planQuery items ctes
      return (nested ++ bound, ctes)
  | .inExpr query :: items, ctes => do
      let (nested, _) ← planQuery query []
      let (bound, ctes) ← planItems planQuery items ctes
      return (nested ++ bound, ctes)
  | .reject error :: _, _ => .error error

/-- `plan_with_clause`. -/
def planWithClause {n : ℕ}
    (planQuery : Query n → CteScope → Except PlannerError (List BoundTable × CteScope)) :
    List (Cte (Query n)) → CteScope → Except PlannerError (List BoundTable × CteScope)
  | [], ctes => .ok ([], ctes)
  | cte :: rest, ctes => do
      if cte.fromName.isSome then .error (.unsupportedPlan "unsupported CTE shape")
      else if ctes.any (·.1 = cte.cteName) then
        .error (.invalidPlan ("WITH query name `" ++ cte.cteName ++ "` specified more than once"))
      else
        let (reads, ctes) ← planQuery cte.query ctes
        let bound := .cte cte.cteName ⟨n, cte.query⟩ reads
        let (bounds, ctes) ← planWithClause planQuery rest ((cte.cteName, bound) :: ctes)
        return (bound :: bounds, ctes)

/-- `plan_query`: the tables of the `WITH` clause and those of the query itself. -/
def planQuery : (n : ℕ) → Query n → CteScope → Except PlannerError (List BoundTable × CteScope)
  | 0, query, _ => nomatch query
  | n + 1, query, ctes => do
      let cteTables ← QueryOver.cteTables query
      let (withTables, ctes) ← planWithClause (planQuery n) cteTables ctes
      let (bound, ctes) ← planItems tables (planQuery n) (QueryOver.planned registry query) ctes
      return (withTables ++ bound, ctes.filter fun cte => cte.1 ∉ cteTables.map Cte.cteName)

end Planning

/-- `bind_query_statement`. -/
def bindQueryStatement (catalog : TableCatalog) (session : PlanningSession) {n : ℕ} (query : Query n) :
    Except PlannerError (List BoundTable) := do
  let tables ← resolveQueryTables catalog session query
  let (bound, _) ← planQuery registry tables n query []
  return bound


/-! ## The second walk covers the first -/

namespace NameItem

/-- None of the items rejects the query. -/
def Clean (items : List (NameItem Q)) : Prop := ∀ error, .reject error ∉ items

/-- The second walk rejects the query or meets everything the first one meets. -/
def Covers (planned collected : List (NameItem Q)) : Prop := Clean planned → collected ⊆ planned

theorem clean_append {items rest : List (NameItem Q)} :
    Clean (items ++ rest) ↔ Clean items ∧ Clean rest := by
  simp only [Clean, List.mem_append, not_or, forall_and]

theorem not_clean_reject {error : PlannerError} : ¬ Clean [(.reject error : NameItem Q)] :=
  fun h => h error List.mem_cons_self

theorem covers_reject {error : PlannerError} {collected : List (NameItem Q)} :
    Covers [.reject error] collected :=
  fun hclean => absurd hclean not_clean_reject

theorem covers_refl (items : List (NameItem Q)) : Covers items items := fun _ => List.Subset.refl items

theorem covers_nil (planned : List (NameItem Q)) : Covers planned [] := fun _ => List.nil_subset planned

theorem Covers.append {planned planned' collected collected' : List (NameItem Q)}
    (h : Covers planned collected) (h' : Covers planned' collected') :
    Covers (planned ++ planned') (collected ++ collected') := by
  intro hclean
  rw [clean_append] at hclean
  exact List.append_subset.mpr ⟨List.subset_append_of_subset_left _ (h hclean.1),
    List.subset_append_of_subset_right _ (h' hclean.2)⟩

/-- More may be planned. -/
theorem Covers.mono {planned more collected : List (NameItem Q)} (h : Covers planned collected)
    (hmore : planned ⊆ more) : Covers more collected := by
  intro hclean item hitem
  exact hmore (h (fun error herror => hclean error (hmore herror)) hitem)

theorem Covers.union {planned collected collected' : List (NameItem Q)} (h : Covers planned collected)
    (h' : Covers planned collected') : Covers planned (collected ++ collected') :=
  fun hclean => List.append_subset.mpr ⟨h hclean, h' hclean⟩

theorem Covers.flatMap {α : Type} {planned collected : α → List (NameItem Q)}
    (h : ∀ a, Covers (planned a) (collected a)) (l : List α) :
    Covers (l.flatMap planned) (l.flatMap collected) := by
  induction l with
  | nil => exact covers_nil _
  | cons a l ih =>
      rw [List.flatMap_cons, List.flatMap_cons]
      exact (h a).append ih

end NameItem

open NameItem

/-- There are no subqueries in a literal. -/
theorem AstExpr.collected_of_isIntervalLiteral (value : AstExpr Q) (h : value.isIntervalLiteral) :
    value.collected = [] := by
  fun_induction AstExpr.isIntervalLiteral value with
  | case1 => rfl
  | case2 op arg ih =>
      rw [Bool.and_eq_true] at h
      rw [AstExpr.collected, collectedArgs, collectedArgs, ih h.2]
      rfl
  | case3 => exact absurd h Bool.false_ne_true

mutual
theorem AstExpr.covers : (expr : AstExpr Q) → Covers (expr.planned registry) (expr.collected.map .inExpr)
  | .identifier _ => covers_nil _
  | .value _ => covers_nil _
  | .interval value => by
      rw [AstExpr.planned, AstExpr.collected]
      by_cases hlit : value.isIntervalLiteral
      · rw [value.collected_of_isIntervalLiteral hlit]
        exact covers_nil _
      · rw [if_neg hlit]
        exact covers_reject
  | .compound _ args => covers_args args
  | .inSubquery expr subquery _ => by
      rw [AstExpr.planned, AstExpr.collected, List.map_append]
      intro hclean
      have hexpr := AstExpr.covers expr fun error h => hclean error (List.mem_cons_of_mem _ h)
      exact List.append_subset.mpr ⟨List.subset_cons_of_subset _ hexpr,
        List.cons_subset.mpr ⟨List.mem_cons_self, List.nil_subset _⟩⟩
  | .existsSubquery _ _ => covers_refl _
  | .subquery _ => covers_refl _
  | .function head args filter orderBy withinGroup => by
      rw [AstExpr.planned, AstExpr.collected, List.map_append]
      split_ifs with _ _ _ hshape
      · exact covers_reject
      · exact covers_reject
      · exact fun hclean => absurd (clean_append.mp hclean).2 not_clean_reject
      · -- a scalar function has no filter
        have hfilter : filter = none := by
          cases filter with
          | none => rfl
          | some _ => exact absurd rfl hshape
        rw [hfilter]
        exact ((covers_namedArgs args).mono (List.subset_append_left _ _)).append (covers_nil [])
      · exact ((covers_namedArgs args).mono (List.subset_append_left _ _)).append (covers_filter filter)
      · exact fun hclean => absurd (clean_append.mp hclean).2 not_clean_reject
  | .wildcard _ => covers_nil _
  | .unsupported _ => covers_nil _

theorem covers_args : (args : List (AstExpr Q)) →
    Covers (plannedArgs registry args) ((collectedArgs args).map .inExpr)
  | [] => covers_nil _
  | arg :: args => by
      rw [plannedArgs, collectedArgs, List.map_append]
      exact (AstExpr.covers arg).append (covers_args args)

theorem covers_namedArgs : (args : List (Option Ident × AstExpr Q)) →
    Covers (plannedNamedArgs registry args) ((collectedNamedArgs args).map .inExpr)
  | [] => covers_nil _
  | (_, arg) :: args => by
      rw [plannedNamedArgs, collectedNamedArgs, List.map_append]
      exact (AstExpr.covers arg).append (covers_namedArgs args)

theorem covers_filter : (filter : Option (AstExpr Q)) →
    Covers (plannedFilter registry filter) ((collectedFilter filter).map .inExpr)
  | none => covers_nil _
  | some filter => AstExpr.covers filter
end

mutual
theorem TableFactor.covers : (factor : TableFactor Q) → Covers (factor.planned registry) factor.collected
  | .table _ _ (some _) => covers_reject
  | .table _ _ none => covers_refl _
  | .derived _ _ _ _ => covers_refl _
  | .nestedJoin relation joins tableAlias => by
      rw [TableFactor.planned, TableFactor.collected]
      split_ifs with halias
      · exact covers_refl _
      · exact (TableFactor.covers relation).append (covers_joins joins)
  | .other _ => covers_refl _

theorem covers_joins : (joins : List (AstJoin Q)) → Covers (plannedJoins registry joins) (collectedJoins joins)
  | [] => covers_nil _
  | .mk relation _ kind constraint :: joins => by
      rw [plannedJoins, collectedJoins]
      exact ((TableFactor.covers relation).mono (List.subset_append_left _ _)).append (covers_joins joins)
end

theorem SelectItem.covers (item : SelectItem Q) :
    Covers (item.planned registry) (item.collected.map .inExpr) := by
  cases item with
  | unnamedExpr expr => exact expr.covers registry
  | exprWithAlias expr _ => exact expr.covers registry
  | exprWithAliases expr aliases =>
      rw [SelectItem.planned, SelectItem.collected]
      split_ifs
      · exact covers_reject
      · exact expr.covers registry
  | qualifiedWildcard _ _ => exact covers_nil _
  | wildcard _ => exact covers_nil _

theorem Select.covers (select : Select Q) (orderBy : Option (OrderBy Q)) (limit : Option (LimitClause Q)) :
    Covers (select.planned registry orderBy limit) select.collected := by
  rw [Select.planned, Select.collected]
  split_ifs
  · exact covers_reject
  have hfrom := Covers.flatMap (fun table : TableWithJoins Q =>
    (table.relation.covers registry).append (covers_joins registry table.joins)) select.fromTables
  have hprojection := Covers.flatMap (fun item : SelectItem Q => item.covers registry) select.projection
  simp only [List.map_append, List.map_flatMap]
  refine .union (hfrom.mono ?_) (.union (.union (.union (hprojection.mono ?_)
    ((covers_filter registry select.selection).mono ?_))
    ((covers_args registry select.groupBy.exprs).mono ?_))
    ((covers_filter registry select.having).mono ?_))
  all_goals
    intro item hitem
    simp only [List.mem_append]
    tauto

theorem SetExpr.covers (body : SetExpr Q) : Covers (body.planned registry) body.collected := by
  induction body with
  | select s => exact s.covers registry none none
  | query q => exact covers_refl _
  | setOperation left _ _ right ihLeft ihRight =>
      rw [SetExpr.planned, SetExpr.collected]
      exact ihLeft.append ihRight
  | values rows _ => exact covers_nil _
  | other _ => exact covers_refl _

/-- The names and subqueries that the first pass meets are all met again when the query is planned,
unless its shape is rejected then. -/
theorem QueryOver.covers (query : QueryOver Q) : Covers (query.planned registry) query.body.collected := by
  rw [QueryOver.planned]
  split
  next select hbody =>
    rw [hbody]
    exact select.covers registry _ _
  next body hbody =>
    rw [List.append_assoc]
    exact (query.body.covers registry).mono (List.subset_append_left _ _)

end BrewDB

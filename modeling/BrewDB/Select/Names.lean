import BrewDB.Select.BindExpr
import BrewDB.Select.Rows

/-!
# Names in GROUP BY and HAVING

Reference: `bind_select` of `brewdb-planner/src/logical/query/select.rs`, `query/alias.rs` and
`resolve_group_by_positions` of `query/modifier.rs`.

Aliases of the select list are substituted into the bound expressions. `GROUP BY` leaves out the aliases
that are also input columns and reads the integer literals that result as positions; `HAVING` uses all
aliases.
-/

namespace BrewDB.Bound

variable {Q : Type}

/-! ## Aliases -/

/-- `extract_aliases`; of several entries for a name the last counts. -/
def extractAliases (projection : List Expr) : List (String × Expr) :=
  projection.filterMap fun expr =>
    match expr with
    | .aliasExpr inner name => some (name.toLower, inner)
    | _ => none

/-- The expression of an alias. -/
def lookupAlias (aliases : List (String × Expr)) (name : String) : Option Expr :=
  (aliases.reverse.find? (·.1 = name)).map Prod.snd

/-- `aliases_without_local_field_conflicts`. -/
def aliasesWithoutLocalFieldConflicts (aliases : List (String × Expr)) (scope : QueryBindScope) :
    List (String × Expr) :=
  aliases.filter fun entry => !scope.localFields.any fun field => field.name.toLower = entry.1

/-- One column of `resolve_aliases_to_exprs`. -/
def aliasColumn (aliases : List (String × Expr)) (column : Column) : Expr :=
  if column.relation.isNone then (lookupAlias aliases column.name.toLower).getD (.column column)
  else .column column

/-- `resolve_aliases_to_exprs`. -/
def resolveAliasesToExprs (expr : Expr) (aliases : List (String × Expr)) : Expr :=
  expr.mapColumns (aliasColumn aliases)

/-- What the names of a `SELECT` are looked up in. -/
structure SelectNames (Q : Type) where
  binder : ExprBinder Q
  scope : QueryBindScope
  projection : List Expr

namespace SelectNames

section Source

variable (names : SelectNames Q)

/-- `bind_expr_for_query` in the scope of the `SELECT`. -/
def bind (expr : AstExpr Q) : Except PlannerError Expr := names.scope.bindExprForQuery names.binder expr

/-- The aliases of the select list. -/
def aliases : List (String × Expr) := extractAliases names.projection

/-- The aliases that `GROUP BY` uses. -/
def groupByAliases : List (String × Expr) :=
  aliasesWithoutLocalFieldConflicts names.aliases names.scope

/-- A `GROUP BY` item, as `bind_select` binds it. -/
def bindGroupByItem (item : AstExpr Q) : Except PlannerError Expr := do
  let expr ← names.bind item
  return resolveAliasesToExprs expr names.groupByAliases

/-- The grouping key of an item. -/
def groupByItem (item : AstExpr Q) : Except PlannerError Expr := do
  let expr ← names.bindGroupByItem item
  resolveGroupByPosition names.projection expr

/-- The predicate of `HAVING`. -/
def havingExpr (predicate : AstExpr Q) : Except PlannerError Expr := do
  let expr ← names.bind predicate
  return resolveAliasesToExprs expr names.aliases

/-- The bound `GROUP BY` of a `SELECT`. -/
def bindGroupBy : GroupByExpr Q → Except PlannerError QueryGroupBy
  | .all _ => .ok .all
  | .expressions [] _ => .ok .none
  | .expressions items _ => do
      let exprs ← items.mapM names.bindGroupByItem
      return .expressions exprs

end Source

/-- The grouping keys of a `SELECT` are those of its items. -/
theorem groupKeys_bindGroupBy {names : SelectNames Q} {query : QueryExpression} {items : List (AstExpr Q)}
    {modifiers : List String} (hitems : items ≠ []) (hprojection : query.projection = names.projection)
    (h : names.bindGroupBy (.expressions items modifiers) = .ok query.groupBy) :
    ExceptRun.SameOk (groupKeys query) (items.mapM names.groupByItem) := by
  cases items with
  | nil => exact absurd rfl hitems
  | cons item items =>
      simp only [bindGroupBy, ExceptRun.bind_eq_ok, ExceptRun.pure_eq_ok] at h
      obtain ⟨exprs, hexprs, hgroupBy⟩ := h
      intro keys
      rw [groupKeys, ← hgroupBy]
      clear hgroupBy
      simp only [resolveGroupByPositions, hprojection]
      rw [ExceptRun.mapM_eq_ok] at hexprs ⊢
      rw [ExceptRun.mapM_eq_ok]
      generalize item :: items = all at hexprs
      induction hexprs generalizing keys with
      | nil => simp
      | @cons item expr _ _ hbind _ ih =>
          have hitem : names.groupByItem item = resolveGroupByPosition names.projection expr := by
            rw [groupByItem, hbind]
            rfl
          simp only [List.forall₂_cons_left_iff, hitem, ih]

/-! ## What SQL says -/

/-- The integer literal that an expression is written as. -/
def integerLiteral : AstExpr Q → Option ℕ
  | .value text => integerText text
  | .compound .nested [expr] => integerLiteral expr
  | _ => none

section Meaning

variable (names : SelectNames Q)

/-- An input column has this name. -/
def IsInput (name : String) : Prop := ∃ field ∈ names.scope.localFields, AsciiCase.Same field.name name

instance (name : String) : Decidable (names.IsInput name) :=
  inferInstanceAs (Decidable (∃ field ∈ names.scope.localFields, AsciiCase.Same field.name name))

/-- A name denotes the input column, and an alias only if there is no such column. -/
def nameMeaning (column : Column) : Expr :=
  if column.relation.isNone ∧ ¬ names.IsInput column.name then
    (lookupAlias names.aliases column.name.toLower).getD (.column column)
  else .column column

/-- A `GROUP BY` item is a position if it is written as an integer literal, an expression otherwise. -/
def groupByMeaning (item : AstExpr Q) : Except PlannerError Expr :=
  match integerLiteral item with
  | some n =>
      match if n < 2 ^ 63 then projectedAt names.projection n else none with
      | some expr => .ok (unaliasExpr expr)
      | none => .error (.invalidPlan s!"GROUP BY position {(n : ℤ)} is out of range")
  | none => do
      let expr ← names.bind item
      return expr.mapColumns names.nameMeaning

/-- The predicate of `HAVING`. -/
def havingMeaning (predicate : AstExpr Q) : Except PlannerError Expr := do
  let expr ← names.bind predicate
  return expr.mapColumns names.nameMeaning

/-- Names in `GROUP BY` and `HAVING` mean what SQL says. -/
structure NamesMeanSql (groupBy : List (AstExpr Q)) (having : Option (AstExpr Q)) : Prop where
  groupBy : ∀ item ∈ groupBy, names.groupByItem item = names.groupByMeaning item
  having : ∀ predicate ∈ having, names.havingExpr predicate = names.havingMeaning predicate

/-- The expression is a signed integer literal, or an alias of one. -/
def StandsForInteger (expr : Expr) (position : ℤ) : Prop :=
  expr = .literal (.int64 position) ∨ ∃ c, expr = .column c ∧ c.relation = none ∧ ¬ names.IsInput c.name ∧
    lookupAlias names.aliases c.name.toLower = some (.literal (.int64 position))

/-- No integer literal is out of range for `i64`; no other `GROUP BY` item stands for an integer, unless that
is what is projected at its position; and no input column in `HAVING` has an alias for something else. -/
structure NamesApart (groupBy : List (AstExpr Q)) (having : Option (AstExpr Q)) : Prop where
  literals : ∀ item ∈ groupBy, ∀ n, integerLiteral item = some n → n < 2 ^ 63
  others : ∀ item ∈ groupBy, integerLiteral item = none → ∀ expr, names.bind item = .ok expr →
    ∀ position, names.StandsForInteger expr position →
      (projectedAt names.projection position).map unaliasExpr = some (.literal (.int64 position))
  having : ∀ predicate ∈ having, ∀ expr, names.bind predicate = .ok expr → ∀ c ∈ expr.columns,
    c.relation = none → names.IsInput c.name → ∀ other, lookupAlias names.aliases c.name.toLower = some other →
      other = .column c

/-- The select list with the `i`-th alias renamed. -/
def rename (i : ℕ) (name : String) : SelectNames Q :=
  { names with
    projection := names.projection.modify i fun expr =>
      match expr with
      | .aliasExpr inner _ => .aliasExpr inner name
      | expr => expr }

/-- Neither the old nor the new name of the `i`-th alias is used for anything but an input column. -/
def Unreferred (groupBy : List (AstExpr Q)) (having : Option (AstExpr Q)) (i : ℕ) (name : String) : Prop :=
  ∀ clause ∈ groupBy ++ having.toList, ∀ expr, names.bind clause = .ok expr → ∀ c ∈ expr.columns,
    c.relation = none → ¬ names.IsInput c.name →
      ¬ AsciiCase.Same name c.name ∧ ∀ inner old, names.projection[i]? = some (.aliasExpr inner old) →
        ¬ AsciiCase.Same old c.name

end Meaning

/-! ## Lookups -/

section Lookups

variable {names : SelectNames Q}

end Lookups

/-! ## Items and predicates -/

section Items

variable {names : SelectNames Q}

end Items

/-! ## Renaming an alias -/

section Rename

variable {names : SelectNames Q} {i : ℕ} {new : String}

variable {groupBy : List (AstExpr Q)} {having : Option (AstExpr Q)}

end Rename

end SelectNames

namespace Sample

/-- A registry of a few functions. -/
def registry : FunctionRegistry where
  scalar _ := false
  aggregate name := name = "sum"
  planAggregate head args := .ok (head, args)
  planExtract args := .ok ("date_part", args)
  planSubstring args := .ok ("substr", args)
  parseInterval _ := .ok ()

/-- What the names in a `SELECT … FROM t` are looked up in. -/
def namesOver (projection : List Expr) : SelectNames Unit where
  binder := ⟨registry, fun _ => .error (.unsupportedPlan "unsupported expression")⟩
  scope := ⟨[⟨some "t", "k"⟩, ⟨some "t", "v"⟩], []⟩
  projection := projection

/-- The names of `SELECT k AS label, v FROM t`. -/
def keyNames (label : String) : SelectNames Unit := namesOver [.aliasExpr (name "k") label, name "v"]

/-- A name in the query. -/
def written (text : String) : AstExpr Unit := .identifier [⟨text, none⟩]

/-- `k > 1`. -/
def positive : AstExpr Unit := .compound (.binaryOp ">") [written "k", .value "1"]

end Sample

namespace SelectNames

end SelectNames

end BrewDB.Bound

import BrewDB.Planner.FromClause

/-!
# Bound expressions

DataFusion's expressions as the planning of a `SELECT` tells them apart: columns, literals, aliases,
aggregate calls and subqueries. Every other expression is a `node` over its operands. The clauses of an
aggregate call and the plan of a subquery are part of its head, their expressions are operands.
-/

namespace BrewDB.Bound

/-- The literals of the binder. -/
inductive Literal where
  | null
  | boolean (value : Bool)
  | int64 (value : ℤ)
  | float64 (text : String)
  | utf8 (value : String)
deriving DecidableEq, Repr

/-- An aggregate call without its expressions: the operands are the arguments, the filter if there is one,
and one for each sort key. -/
structure AggregateHead where
  name : String
  distinct : Bool
  hasFilter : Bool
  orderBy : List OrderByOptions
  nullTreatment : Option NullTreatment
deriving DecidableEq, Repr

/-- Bound expressions. -/
inductive Expr where
  | column (column : Column)
  | outerReferenceColumn (column : Column)
  | literal (value : Literal)
  | aliasExpr (expr : Expr) (name : String)
  | aggregateFunction (head : AggregateHead) (args : List Expr)
  /-- `ScalarSubquery`, `Exists` or `InSubquery` with the columns its plan refers to; the last has an
  operand. -/
  | subquery (head : String) (outerColumns : List Expr) (args : List Expr)
  | node (head : String) (args : List Expr)
  | wildcard (qualifier : Option String)
deriving Repr

namespace Expr

mutual
/-- Induction over expressions, with the hypothesis for every operand. -/
@[elab_as_elim, induction_eliminator]
theorem induct {motive : Expr → Prop} (column : ∀ c, motive (.column c))
    (outerReferenceColumn : ∀ c, motive (.outerReferenceColumn c))
    (literal : ∀ value, motive (.literal value))
    (aliasExpr : ∀ expr name, motive expr → motive (.aliasExpr expr name))
    (aggregateFunction : ∀ head args, (∀ e ∈ args, motive e) → motive (.aggregateFunction head args))
    (subquery : ∀ head cs args, (∀ e ∈ cs, motive e) → (∀ e ∈ args, motive e) →
      motive (.subquery head cs args))
    (node : ∀ head args, (∀ e ∈ args, motive e) → motive (.node head args))
    (wildcard : ∀ qualifier, motive (.wildcard qualifier)) : (e : Expr) → motive e
  | .column c => column c
  | .outerReferenceColumn c => outerReferenceColumn c
  | .literal value => literal value
  | .aliasExpr expr name =>
      aliasExpr expr name
        (induct column outerReferenceColumn literal aliasExpr aggregateFunction subquery node wildcard expr)
  | .aggregateFunction head args =>
      aggregateFunction head args
        (inductAll column outerReferenceColumn literal aliasExpr aggregateFunction subquery node wildcard args)
  | .subquery head cs args =>
      subquery head cs args
        (inductAll column outerReferenceColumn literal aliasExpr aggregateFunction subquery node wildcard cs)
        (inductAll column outerReferenceColumn literal aliasExpr aggregateFunction subquery node wildcard args)
  | .node head args =>
      node head args
        (inductAll column outerReferenceColumn literal aliasExpr aggregateFunction subquery node wildcard args)
  | .wildcard qualifier => wildcard qualifier

/-- The operands, one by one. -/
theorem inductAll {motive : Expr → Prop} (column : ∀ c, motive (.column c))
    (outerReferenceColumn : ∀ c, motive (.outerReferenceColumn c))
    (literal : ∀ value, motive (.literal value))
    (aliasExpr : ∀ expr name, motive expr → motive (.aliasExpr expr name))
    (aggregateFunction : ∀ head args, (∀ e ∈ args, motive e) → motive (.aggregateFunction head args))
    (subquery : ∀ head cs args, (∀ e ∈ cs, motive e) → (∀ e ∈ args, motive e) →
      motive (.subquery head cs args))
    (node : ∀ head args, (∀ e ∈ args, motive e) → motive (.node head args))
    (wildcard : ∀ qualifier, motive (.wildcard qualifier)) : (es : List Expr) → ∀ e ∈ es, motive e
  | [] => List.forall_mem_nil _
  | e :: es =>
      List.forall_mem_cons.mpr
        ⟨induct column outerReferenceColumn literal aliasExpr aggregateFunction subquery node wildcard e,
          inductAll column outerReferenceColumn literal aliasExpr aggregateFunction subquery node wildcard es⟩
end

/-! ## Equality -/

mutual
/-- `PartialEq`. -/
def beq : Expr → Expr → Bool
  | .column a, .column b => a = b
  | .outerReferenceColumn a, .outerReferenceColumn b => a = b
  | .literal a, .literal b => a = b
  | .aliasExpr a name, .aliasExpr b name' => name = name' && beq a b
  | .aggregateFunction head args, .aggregateFunction head' args' => head = head' && beqAll args args'
  | .subquery head cs args, .subquery head' cs' args' => head = head' && beqAll cs cs' && beqAll args args'
  | .node head args, .node head' args' => head = head' && beqAll args args'
  | .wildcard a, .wildcard b => a = b
  | _, _ => false

/-- Operands are equal one by one. -/
def beqAll : List Expr → List Expr → Bool
  | [], [] => true
  | a :: as, b :: bs => beq a b && beqAll as bs
  | _, _ => false
end

theorem beqAll_iff {as bs : List Expr} (h : ∀ a ∈ as, ∀ b, a.beq b = true ↔ a = b) :
    beqAll as bs = true ↔ as = bs := by
  induction as generalizing bs with
  | nil => cases bs <;> simp [beqAll]
  | cons a as ih =>
      cases bs with
      | nil => simp [beqAll]
      | cons b bs =>
          rw [beqAll, Bool.and_eq_true, h a List.mem_cons_self b,
            ih fun a' ha' => h a' (List.mem_cons_of_mem _ ha'), List.cons.injEq]

theorem beq_iff (a b : Expr) : a.beq b = true ↔ a = b := by
  induction a generalizing b with
  | column c => cases b <;> simp [beq]
  | outerReferenceColumn c => cases b <;> simp [beq]
  | literal value => cases b <;> simp [beq]
  | aliasExpr expr name ih => cases b <;> simp [beq, ih, and_comm]
  | aggregateFunction head args ih => cases b <;> simp [beq, beqAll_iff ih]
  | subquery head cs args ihcs ih => cases b <;> simp [beq, beqAll_iff ihcs, beqAll_iff ih, and_assoc]
  | node head args ih => cases b <;> simp [beq, beqAll_iff ih]
  | wildcard qualifier => cases b <;> simp [beq]

instance : DecidableEq Expr := fun a b => decidable_of_iff (a.beq b = true) (beq_iff a b)

/-! ## Rewriting columns -/

mutual
/-- `transform_up` of a rewrite that looks at columns only: the columns of the expression, not those of what
takes their place. -/
def mapColumns (f : Column → Expr) : Expr → Expr
  | .column c => f c
  | .outerReferenceColumn c => .outerReferenceColumn c
  | .literal value => .literal value
  | .aliasExpr expr name => .aliasExpr (mapColumns f expr) name
  | .aggregateFunction head args => .aggregateFunction head (mapAllColumns f args)
  | .subquery head cs args => .subquery head cs (mapAllColumns f args)
  | .node head args => .node head (mapAllColumns f args)
  | .wildcard qualifier => .wildcard qualifier

/-- All operands. -/
def mapAllColumns (f : Column → Expr) : List Expr → List Expr
  | [] => []
  | e :: es => mapColumns f e :: mapAllColumns f es
end

mutual
/-- The columns of an expression, left to right with repetitions. -/
def columns : Expr → List Column
  | .column c => [c]
  | .outerReferenceColumn _ => []
  | .literal _ => []
  | .aliasExpr expr _ => columns expr
  | .aggregateFunction _ args => allColumns args
  | .subquery _ _ args => allColumns args
  | .node _ args => allColumns args
  | .wildcard _ => []

/-- The columns of all operands. -/
def allColumns : List Expr → List Column
  | [] => []
  | e :: es => columns e ++ allColumns es
end

@[simp] theorem mapAllColumns_eq_map (f : Column → Expr) (es : List Expr) :
    mapAllColumns f es = es.map (mapColumns f) := by
  induction es with
  | nil => rfl
  | cons e es ih => rw [mapAllColumns, ih, List.map_cons]

@[simp] theorem allColumns_eq_flatMap (es : List Expr) : allColumns es = es.flatMap columns := by
  induction es with
  | nil => rfl
  | cons e es ih => rw [allColumns, ih, List.flatMap_cons]

/-! ## Aggregate calls -/

mutual
/-- `expr_contains_aggregate`: outside of subqueries. -/
def containsAggregate : Expr → Bool
  | .aliasExpr expr _ => containsAggregate expr
  | .aggregateFunction _ _ => true
  | .node _ args => anyContainsAggregate args
  | _ => false

/-- Some operand contains an aggregate call. -/
def anyContainsAggregate : List Expr → Bool
  | [] => false
  | e :: es => containsAggregate e || anyContainsAggregate es
end

mutual
/-- `collect_aggregate_exprs`: the aggregate calls not collected yet. A call that is collected already is
entered, as any other expression. -/
def collectAggregates : Expr → List Expr → List Expr
  | .aliasExpr expr _, aggregates => collectAggregates expr aggregates
  | .aggregateFunction head args, aggregates =>
      if .aggregateFunction head args ∈ aggregates then collectAllAggregates args aggregates
      else aggregates ++ [.aggregateFunction head args]
  | .node _ args, aggregates => collectAllAggregates args aggregates
  | _, aggregates => aggregates

/-- The aggregate calls of all operands. -/
def collectAllAggregates : List Expr → List Expr → List Expr
  | [], aggregates => aggregates
  | e :: es, aggregates => collectAllAggregates es (collectAggregates e aggregates)
end

end Expr

end BrewDB.Bound

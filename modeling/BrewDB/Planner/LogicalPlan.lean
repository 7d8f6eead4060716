import BrewDB.Planner.Schema
import BrewDB.Storage.Scan

/-!
# Logical plans

DataFusion's logical plan tree as BrewDB's fragment planner sees it. The operators that the planner
rewrites node by node and that have one input share the constructor `unary`; `Aggregate` and `Join`,
where it cuts the plan, and `Union` stand on their own. `other` collects the node kinds that the
planner copies unchanged (DML, values, explain, command extensions, …) together with their inputs.
Subqueries inside expressions are not inputs of a node and do not appear.
-/

namespace BrewDB

/-- Random identifiers of tables, workers and fragment instances. -/
abbrev Uuid := ℕ

/-- The id of a plan fragment (`u32` newtype). -/
abbrev PlanFragmentId := ℕ

/-- The canonical `catalog.database.table` path of a table. -/
structure TablePath where
  catalog : String
  database : String
  table : String
deriving DecidableEq, Repr

/-- The catalog's record of a table, as far as planning identifies tables by it. -/
structure TableCatalogEntry where
  tableId : Uuid
  path : TablePath
deriving DecidableEq, Repr

/-- A provider bound on a worker: the table it reads and the split it is restricted to. -/
structure TableProvider where
  tableId : Uuid
  split : Option TableScanSplit
deriving DecidableEq, Repr

/-- The source of a table scan: BrewDB's logical source, a provider that is already bound, or the stream
of the pages that arrive on some exchanges. -/
inductive TableSource where
  | default (table : TableCatalogEntry)
  | provider (provider : TableProvider)
  | exchangeStream (schema : List Field) (exchangeIds : List ℕ)
deriving DecidableEq, Repr

/-- A scan of one table. -/
structure TableScan where
  tableName : TableReference
  source : TableSource
  projection : Option (List ℕ)
  filters : List Expr
  fetch : Option ℕ
  projectedSchema : DFSchema

/-- A full scan of a table through BrewDB's logical source. -/
def TableScan.ofTable (table : TableCatalogEntry) (fields : List Field) : TableScan where
  tableName := .bare table.path.table
  source := .default table
  projection := none
  filters := []
  fetch := none
  projectedSchema := ⟨fields.map fun f => (some (.bare table.path.table), f)⟩

/-- One sort key. -/
structure SortExpr where
  expr : Expr
  asc : Bool
  nullsFirst : Bool

/-- DataFusion's partitioning schemes for an explicit `Repartition`. -/
inductive Partitioning where
  | roundRobinBatch (n : ℕ)
  | hash (exprs : List Expr) (n : ℕ)
  | distributeBy (exprs : List Expr)

/-- The rewritten operators with one input. -/
inductive UnaryNode where
  | projection (expr : List Expr) (schema : DFSchema)
  | filter (predicate : Expr)
  | subqueryAlias (aliasName : TableReference) (schema : DFSchema)
  | sort (expr : List SortExpr) (fetch : Option ℕ)
  | limit (skip fetch : Option Expr)
  | repartition (scheme : Partitioning)
  | window (windowExpr : List Expr) (schema : DFSchema)
  | distinctAll
  | distinctOn (onExpr selectExpr : List Expr) (sortExpr : Option (List SortExpr))
      (schema : DFSchema)

/-- Grouping and aggregate expressions of an `Aggregate`. -/
structure Aggregate where
  groupExpr : List Expr
  aggrExpr : List Expr
  schema : DFSchema

/-- Join types. -/
inductive JoinType where
  | inner
  | left
  | right
  | full
  | leftSemi
  | rightSemi
  | leftAnti
  | rightAnti
deriving DecidableEq, Repr

/-- `ON` or `USING`. -/
inductive JoinConstraint where
  | onClause
  | usingClause
deriving DecidableEq, Repr

/-- Whether null join keys equal each other. -/
inductive NullEquality where
  | nullEqualsNothing
  | nullEqualsNull
deriving DecidableEq, Repr

/-- The equality pairs, residual filter and flags of a `Join`. -/
structure Join where
  onKeys : List (Expr × Expr)
  filter : Option Expr
  joinType : JoinType
  joinConstraint : JoinConstraint
  schema : DFSchema
  nullEquality : NullEquality
  nullAware : Bool

/-- Node kinds the fragment planner copies unchanged. -/
inductive OtherNode where
  | dml (tableName : TableReference) (target : TableSource) (schema : DFSchema)
  | emptyRelation (produceOneRow : Bool) (schema : DFSchema)
  | values (rows : List (List Expr)) (schema : DFSchema)
  | node (name : String) (schema : DFSchema)

/-- Logical plans. -/
inductive LogicalPlan where
  | tableScan (scan : TableScan)
  | unary (node : UnaryNode) (input : LogicalPlan)
  | union (inputs : List LogicalPlan) (schema : DFSchema)
  | aggregate (aggregate : Aggregate) (input : LogicalPlan)
  | join (join : Join) (left right : LogicalPlan)
  | remoteSource (sourceFragmentIds : List PlanFragmentId) (schema : DFSchema)
  | other (node : OtherNode) (inputs : List LogicalPlan)

namespace OtherNode

/-- The output schema. -/
def schema : OtherNode → DFSchema
  | dml _ _ schema => schema
  | emptyRelation _ schema => schema
  | values _ schema => schema
  | node _ schema => schema

end OtherNode

namespace UnaryNode

/-- The output schema, given the input's. -/
def schema : UnaryNode → DFSchema → DFSchema
  | projection _ schema, _ => schema
  | filter _, input => input
  | subqueryAlias _ schema, _ => schema
  | sort _ _, input => input
  | limit _ _, input => input
  | repartition _, input => input
  | window _ schema, _ => schema
  | distinctAll, input => input
  | distinctOn _ _ _ schema, _ => schema

end UnaryNode

namespace LogicalPlan

/-- The output schema of a plan. -/
def schema : LogicalPlan → DFSchema
  | tableScan scan => scan.projectedSchema
  | unary node input => node.schema input.schema
  | union _ schema => schema
  | aggregate agg _ => agg.schema
  | join j _ _ => j.schema
  | remoteSource _ schema => schema
  | other node _ => node.schema

mutual
/-- Induction over plans, with the hypothesis for every input of a `Union` or copied node. -/
@[elab_as_elim, induction_eliminator]
theorem induct {motive : LogicalPlan → Prop}
    (tableScan : ∀ scan, motive (.tableScan scan))
    (unary : ∀ node input, motive input → motive (.unary node input))
    (union : ∀ inputs schema, (∀ p ∈ inputs, motive p) → motive (.union inputs schema))
    (aggregate : ∀ agg input, motive input → motive (.aggregate agg input))
    (join : ∀ j left right, motive left → motive right → motive (.join j left right))
    (remoteSource : ∀ ids schema, motive (.remoteSource ids schema))
    (other : ∀ node inputs, (∀ p ∈ inputs, motive p) → motive (.other node inputs)) :
    (p : LogicalPlan) → motive p
  | .tableScan scan => tableScan scan
  | .unary node input =>
      unary node input (induct tableScan unary union aggregate join remoteSource other input)
  | .union inputs schema =>
      union inputs schema
        (inductAll tableScan unary union aggregate join remoteSource other inputs)
  | .aggregate agg input =>
      aggregate agg input (induct tableScan unary union aggregate join remoteSource other input)
  | .join j left right =>
      join j left right (induct tableScan unary union aggregate join remoteSource other left)
        (induct tableScan unary union aggregate join remoteSource other right)
  | .remoteSource ids schema => remoteSource ids schema
  | .other node inputs =>
      other node inputs (inductAll tableScan unary union aggregate join remoteSource other inputs)

/-- The inputs of a node, one by one. -/
theorem inductAll {motive : LogicalPlan → Prop}
    (tableScan : ∀ scan, motive (.tableScan scan))
    (unary : ∀ node input, motive input → motive (.unary node input))
    (union : ∀ inputs schema, (∀ p ∈ inputs, motive p) → motive (.union inputs schema))
    (aggregate : ∀ agg input, motive input → motive (.aggregate agg input))
    (join : ∀ j left right, motive left → motive right → motive (.join j left right))
    (remoteSource : ∀ ids schema, motive (.remoteSource ids schema))
    (other : ∀ node inputs, (∀ p ∈ inputs, motive p) → motive (.other node inputs)) :
    (ps : List LogicalPlan) → ∀ p ∈ ps, motive p
  | [] => List.forall_mem_nil _
  | p :: ps =>
      List.forall_mem_cons.mpr
        ⟨induct tableScan unary union aggregate join remoteSource other p,
          inductAll tableScan unary union aggregate join remoteSource other ps⟩
end

/-! ## Traversals -/

mutual
/-- `contains_remote_source`. -/
def containsRemoteSource : LogicalPlan → Bool
  | tableScan _ => false
  | unary _ input => containsRemoteSource input
  | union inputs _ => anyContainsRemoteSource inputs
  | aggregate _ input => containsRemoteSource input
  | join _ left right => containsRemoteSource left || containsRemoteSource right
  | remoteSource _ _ => true
  | other _ inputs => anyContainsRemoteSource inputs

/-- Some input contains a remote source. -/
def anyContainsRemoteSource : List LogicalPlan → Bool
  | [] => false
  | p :: ps => containsRemoteSource p || anyContainsRemoteSource ps
end

mutual
/-- The table scans of a plan, in traversal order. -/
def tableScans : LogicalPlan → List TableScan
  | tableScan scan => [scan]
  | unary _ input => tableScans input
  | union inputs _ => allTableScans inputs
  | aggregate _ input => tableScans input
  | join _ left right => tableScans left ++ tableScans right
  | remoteSource _ _ => []
  | other _ inputs => allTableScans inputs

/-- The table scans of all inputs. -/
def allTableScans : List LogicalPlan → List TableScan
  | [] => []
  | p :: ps => tableScans p ++ allTableScans ps
end

mutual
/-- The remote sources of a plan with their schemas, in traversal order. -/
def remoteSources : LogicalPlan → List (List PlanFragmentId × DFSchema)
  | tableScan _ => []
  | unary _ input => remoteSources input
  | union inputs _ => allRemoteSources inputs
  | aggregate _ input => remoteSources input
  | join _ left right => remoteSources left ++ remoteSources right
  | remoteSource ids schema => [(ids, schema)]
  | other _ inputs => allRemoteSources inputs

/-- The remote sources of all inputs. -/
def allRemoteSources : List LogicalPlan → List (List PlanFragmentId × DFSchema)
  | [] => []
  | p :: ps => remoteSources p ++ allRemoteSources ps
end

theorem anyContainsRemoteSource_eq_false {ps : List LogicalPlan} :
    anyContainsRemoteSource ps = false ↔ ∀ p ∈ ps, p.containsRemoteSource = false := by
  induction ps with
  | nil => simp [anyContainsRemoteSource]
  | cons p ps ih => simp [anyContainsRemoteSource, ih]

theorem allRemoteSources_eq_flatMap (ps : List LogicalPlan) :
    allRemoteSources ps = ps.flatMap remoteSources := by
  induction ps with
  | nil => rfl
  | cons p ps ih => rw [allRemoteSources, ih, List.flatMap_cons]

/-- A plan without remote sources lists none. -/
theorem remoteSources_eq_nil_iff (p : LogicalPlan) :
    p.remoteSources = [] ↔ p.containsRemoteSource = false := by
  induction p with
  | tableScan scan => simp [remoteSources, containsRemoteSource]
  | unary node input ih => simpa [remoteSources, containsRemoteSource] using ih
  | union inputs schema ih =>
      rw [remoteSources, containsRemoteSource, allRemoteSources_eq_flatMap,
        anyContainsRemoteSource_eq_false, List.flatMap_eq_nil_iff]
      exact forall₂_congr ih
  | aggregate agg input ih => simpa [remoteSources, containsRemoteSource] using ih
  | join j left right ihl ihr => simp [remoteSources, containsRemoteSource, ihl, ihr]
  | remoteSource ids schema => simp [remoteSources, containsRemoteSource]
  | other node inputs ih =>
      rw [remoteSources, containsRemoteSource, allRemoteSources_eq_flatMap,
        anyContainsRemoteSource_eq_false, List.flatMap_eq_nil_iff]
      exact forall₂_congr ih

end LogicalPlan

end BrewDB

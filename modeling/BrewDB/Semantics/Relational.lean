import BrewDB.Common.Bag
import BrewDB.Runtime.Routing

/-!
# The meaning of plans

What a plan may return, operator by operator with their usual relational meaning. Results are lists
of rows. Filters, projections and aliases keep the order of their input, a sort fixes it, a limit
depends on it, and all other operators return their rows in any order; so a plan may return several
lists. Expression evaluation, aggregate functions, the order of rows under sort keys, window functions
and `DISTINCT ON` are DataFusion's and are left open.
-/

namespace BrewDB

/-- The parts of the operators' meaning that are left open. -/
structure Operators where
  eval : Evaluator
  aggregateValue : DFSchema → Expr → Multiset Row → Value
  sortLe : DFSchema → List SortExpr → Row → Row → Bool
  sortLe_trans : ∀ schema exprs a b c,
    sortLe schema exprs a b → sortLe schema exprs b c → sortLe schema exprs a c
  sortLe_total : ∀ schema exprs a b, sortLe schema exprs a b || sortLe schema exprs b a
  limitValue : Expr → ℕ
  window : DFSchema → List Expr → Multiset Row → Multiset Row → Prop
  window_total : ∀ schema exprs rows, ∃ out, window schema exprs rows out
  distinctOn : DFSchema → List Expr → List Expr → Option (List SortExpr) →
    Multiset Row → Multiset Row → Prop
  distinctOn_total : ∀ schema onExpr selectExpr sortExpr rows,
    ∃ out, distinctOn schema onExpr selectExpr sortExpr rows out

/-- A predicate keeps the rows on which it is true. -/
def Operators.isTrue (ops : Operators) (schema : DFSchema) (predicate : Expr) (row : Row) : Bool :=
  ops.eval schema predicate row = .boolean true

/-! ## Operators with one input -/

/-- What an operator may make of its input rows. -/
def UnaryNode.Produces (ops : Operators) (input : DFSchema) (rows out : List Row) :
    UnaryNode → Prop
  | .projection expr _ => out = rows.map fun row => expr.map fun e => ops.eval input e row
  | .filter predicate => out = rows.filter (ops.isTrue input predicate)
  | .subqueryAlias _ _ => out = rows
  | .sort expr fetch => ∃ sorted : List Row, sorted.Perm rows ∧
      sorted.Pairwise (fun a b => ops.sortLe input expr a b = true) ∧
      out = fetch.elim sorted sorted.take
  | .limit skip fetch =>
      let rest := rows.drop (skip.elim 0 ops.limitValue)
      out = fetch.elim rest fun e => rest.take (ops.limitValue e)
  | .repartition _ => out.Perm rows
  | .window windowExpr _ => ops.window input windowExpr rows out
  | .distinctAll => (out : Multiset Row) = (rows : Multiset Row).dedup
  | .distinctOn onExpr selectExpr sortExpr _ =>
      ops.distinctOn input onExpr selectExpr sortExpr rows out

/-- The operator acts on every row separately. -/
def UnaryNode.isRowwise : UnaryNode → Bool
  | .projection _ _ => true
  | .filter _ => true
  | .subqueryAlias _ _ => true
  | .sort _ none => true
  | .repartition _ => true
  | _ => false

/-- What a row-wise operator does to one row. -/
def UnaryNode.rowMap (ops : Operators) (input : DFSchema) : UnaryNode → Row → Option Row
  | .projection expr _, row => some (expr.map fun e => ops.eval input e row)
  | .filter predicate, row => if ops.isTrue input predicate row then some row else none
  | _, row => some row

/-! ## Aggregates and joins -/

/-- The rows of an aggregate: one for each group, or a single one without `GROUP BY`. -/
def Aggregate.rows (ops : Operators) (input : DFSchema) (agg : Aggregate) (rows : Multiset Row) :
    Multiset Row :=
  if agg.groupExpr = [] then {agg.aggrExpr.map fun e => ops.aggregateValue input e rows}
  else
    Bag.groups (fun row => agg.groupExpr.map fun e => ops.eval input e row)
      (fun key group => key ++ agg.aggrExpr.map fun e => ops.aggregateValue input e group) rows

instance (nulls : NullEquality) (v w : Value) : Decidable (nulls.equalKeys v w) :=
  match nulls with
  | .nullEqualsNothing => inferInstanceAs (Decidable (v = w ∧ v ≠ .null))
  | .nullEqualsNull => inferInstanceAs (Decidable (v = w))

/-- The `ON` equalities and the residual filter hold on a pair of rows. -/
def Join.isMatch (ops : Operators) (left right : DFSchema) (j : Join) (row₁ row₂ : Row) : Bool :=
  decide (∀ key ∈ j.onKeys,
    j.nullEquality.equalKeys (ops.eval left key.1 row₁) (ops.eval right key.2 row₂)) &&
  j.filter.all fun e =>
    ops.isTrue ⟨left.qualifiedFields ++ right.qualifiedFields⟩ e (row₁ ++ row₂)

/-- A row of nulls. -/
def DFSchema.nulls (schema : DFSchema) : Row := List.replicate schema.qualifiedFields.length .null

/-- `NOT IN`: nothing on the right, or no null key and no match. -/
def Join.notIn (ops : Operators) (left right : DFSchema) (j : Join) (s t : Multiset Row) :
    Multiset Row :=
  s.filter fun row₁ => t = 0 ∨
    (∀ key ∈ j.onKeys, ops.eval left key.1 row₁ ≠ .null) ∧
    ∀ row₂ ∈ t, (∀ key ∈ j.onKeys, ops.eval right key.2 row₂ ≠ .null) ∧
      j.isMatch ops left right row₁ row₂ = false

/-- The rows of a join. -/
def Join.rows (ops : Operators) (left right : DFSchema) (j : Join) (s t : Multiset Row) :
    Multiset Row :=
  let isMatch := j.isMatch ops left right
  let inner := Bag.pairs isMatch (· ++ ·) s t
  let leftOnly := Bag.unmatched isMatch s t
  let rightOnly := Bag.unmatched (Function.swap isMatch) t s
  match j.joinType with
  | .inner => inner
  | .left => inner + leftOnly.map (· ++ right.nulls)
  | .right => inner + rightOnly.map (left.nulls ++ ·)
  | .full => inner + leftOnly.map (· ++ right.nulls) + rightOnly.map (left.nulls ++ ·)
  | .leftSemi => Bag.matched isMatch s t
  | .rightSemi => Bag.matched (Function.swap isMatch) t s
  | .leftAnti => if j.nullAware then j.notIn ops left right s t else leftOnly
  | .rightAnti => rightOnly

/-! ## Plans -/

/-- What a scan may return of the rows it reads: all of them, or as many as it may fetch. -/
def TableScan.Returns (scan : TableScan) (read : Multiset Row) (rows : List Row) : Prop :=
  match scan.fetch with
  | none => (rows : Multiset Row) = read
  | some n => (rows : Multiset Row) ≤ read ∧ rows.length = min n (Multiset.card read)

section Evaluates

variable (ops : Operators) (tables : TableScan → Multiset Row)
  (remote : List PlanFragmentId → Multiset Row)

mutual
/-- `Evaluates ops tables remote p rows`: the plan may return these rows, if scans read `tables` and
remote sources receive `remote`. Copied nodes other than scans have no meaning here. -/
def Evaluates : LogicalPlan → List Row → Prop
  | .tableScan scan, rows => scan.Returns (tables scan) rows
  | .unary node input, rows => ∃ inputRows, Evaluates input inputRows ∧
      node.Produces ops input.schema inputRows rows
  | .union inputs _, rows => ∃ inputRows, EvaluatesAll inputs inputRows ∧ rows.Perm inputRows
  | .aggregate agg input, rows => ∃ inputRows : List Row, Evaluates input inputRows ∧
      (rows : Multiset Row) = agg.rows ops input.schema inputRows
  | .join j left right, rows => ∃ leftRows rightRows : List Row, Evaluates left leftRows ∧
      Evaluates right rightRows ∧
      (rows : Multiset Row) = j.rows ops left.schema right.schema leftRows rightRows
  | .remoteSource ids _, rows => (rows : Multiset Row) = remote ids
  | .other _ _, _ => False

/-- The rows of several plans, one after the other. -/
def EvaluatesAll : List LogicalPlan → List Row → Prop
  | [], rows => rows = []
  | p :: ps, rows => ∃ first rest, Evaluates p first ∧ EvaluatesAll ps rest ∧ rows = first ++ rest
end

variable {ops tables remote}

theorem evaluatesAll_singleton {p : LogicalPlan} {rows : List Row} :
    EvaluatesAll ops tables remote [p] rows ↔ Evaluates ops tables remote p rows := by
  constructor
  · rintro ⟨first, rest, hfirst, hrest, rfl⟩
    obtain rfl : rest = [] := hrest
    rwa [List.append_nil]
  · intro h
    exact ⟨rows, [], h, rfl, (List.append_nil rows).symm⟩

end Evaluates

/-! ## Every plan returns something -/

/-- Every bag is the bag of a list. -/
private theorem exists_list (rows : Multiset Row) : ∃ list : List Row, (list : Multiset Row) = rows :=
  ⟨rows.toList, rows.coe_toList⟩

/-- Every operator makes something of its input. -/
theorem UnaryNode.exists_produces (ops : Operators) (input : DFSchema) (node : UnaryNode)
    (rows : List Row) : ∃ out, node.Produces ops input rows out := by
  cases node with
  | projection expr schema => exact ⟨_, rfl⟩
  | filter predicate => exact ⟨_, rfl⟩
  | subqueryAlias aliasName schema => exact ⟨_, rfl⟩
  | sort expr fetch =>
      refine ⟨_, rows.mergeSort (ops.sortLe input expr), List.mergeSort_perm _ _, ?_, rfl⟩
      exact List.pairwise_mergeSort (ops.sortLe_trans input expr) (ops.sortLe_total input expr) rows
  | limit skip fetch => exact ⟨_, rfl⟩
  | repartition scheme => exact ⟨rows, List.Perm.refl rows⟩
  | window windowExpr schema =>
      obtain ⟨out, hout⟩ := ops.window_total input windowExpr rows
      exact ⟨out.toList, by simpa [Produces] using hout⟩
  | distinctAll => exact exists_list _
  | distinctOn onExpr selectExpr sortExpr schema =>
      obtain ⟨out, hout⟩ := ops.distinctOn_total input onExpr selectExpr sortExpr rows
      exact ⟨out.toList, by simpa [Produces] using hout⟩

/-- Every scan returns something. -/
theorem TableScan.exists_returns (scan : TableScan) (read : Multiset Row) :
    ∃ rows, scan.Returns read rows := by
  unfold Returns
  cases scan.fetch with
  | none => exact exists_list read
  | some n =>
      refine ⟨read.toList.take n, ?_, by simp⟩
      calc ((read.toList.take n : List Row) : Multiset Row) ≤ (read.toList : Multiset Row) :=
            (List.take_sublist n _).subperm
        _ = read := read.coe_toList

namespace LogicalPlan

mutual
/-- The plan is built from the operators that have a meaning here. -/
def InScope : LogicalPlan → Prop
  | tableScan _ => True
  | unary _ input => InScope input
  | union inputs _ => AllInScope inputs
  | aggregate _ input => InScope input
  | join _ left right => InScope left ∧ InScope right
  | remoteSource _ _ => True
  | other _ _ => False

/-- All plans are. -/
def AllInScope : List LogicalPlan → Prop
  | [] => True
  | p :: ps => InScope p ∧ AllInScope ps
end

theorem allInScope_iff {ps : List LogicalPlan} : AllInScope ps ↔ ∀ p ∈ ps, InScope p := by
  induction ps with
  | nil => simp [AllInScope]
  | cons p ps ih => rw [AllInScope, ih, List.forall_mem_cons]

end LogicalPlan

/-- Every plan returns something. -/
theorem exists_evaluates (ops : Operators) (tables : TableScan → Multiset Row)
    (remote : List PlanFragmentId → Multiset Row) {p : LogicalPlan} (hp : p.InScope) :
    ∃ rows, Evaluates ops tables remote p rows := by
  induction p with
  | tableScan scan =>
      simp only [Evaluates]
      exact scan.exists_returns (tables scan)
  | unary node input ih =>
      rw [LogicalPlan.InScope] at hp
      obtain ⟨inputRows, hinput⟩ := ih hp
      obtain ⟨out, hout⟩ := node.exists_produces ops input.schema inputRows
      simp only [Evaluates]
      exact ⟨out, inputRows, hinput, hout⟩
  | union inputs schema ih =>
      rw [LogicalPlan.InScope, LogicalPlan.allInScope_iff] at hp
      have hall : ∃ rows, EvaluatesAll ops tables remote inputs rows := by
        induction inputs with
        | nil => exact ⟨[], rfl⟩
        | cons p ps ihps =>
            rw [List.forall_mem_cons] at hp ih
            obtain ⟨first, hfirst⟩ := ih.1 hp.1
            obtain ⟨rest, hrest⟩ := ihps ih.2 hp.2
            exact ⟨first ++ rest, first, rest, hfirst, hrest, rfl⟩
      obtain ⟨rows, hrows⟩ := hall
      simp only [Evaluates]
      exact ⟨rows, rows, hrows, List.Perm.refl rows⟩
  | aggregate agg input ih =>
      rw [LogicalPlan.InScope] at hp
      obtain ⟨inputRows, hinput⟩ := ih hp
      obtain ⟨out, hout⟩ := exists_list (agg.rows ops input.schema inputRows)
      simp only [Evaluates]
      exact ⟨out, inputRows, hinput, hout⟩
  | join j left right ihl ihr =>
      rw [LogicalPlan.InScope] at hp
      obtain ⟨leftRows, hleft⟩ := ihl hp.1
      obtain ⟨rightRows, hright⟩ := ihr hp.2
      obtain ⟨out, hout⟩ := exists_list (j.rows ops left.schema right.schema leftRows rightRows)
      simp only [Evaluates]
      exact ⟨out, leftRows, rightRows, hleft, hright, hout⟩
  | remoteSource ids schema =>
      simp only [Evaluates]
      exact exists_list (remote ids)
  | other node inputs _ =>
      rw [LogicalPlan.InScope] at hp
      exact hp.elim

/-! ## Part by part -/

open Finset (range)

/-- A row-wise operator maps the bag of its input. -/
theorem UnaryNode.Produces.bag {ops : Operators} {input : DFSchema} {node : UnaryNode}
    {rows out : List Row} (h : node.Produces ops input rows out) (hnode : node.isRowwise = true) :
    (out : Multiset Row) = (rows : Multiset Row).filterMap (node.rowMap ops input) := by
  cases node with
  | projection expr schema =>
      obtain rfl : out = rows.map fun row => expr.map fun e => ops.eval input e row := h
      show _ = Multiset.filterMap (fun row => some (expr.map fun e => ops.eval input e row)) _
      rw [Multiset.filterMap_coe, List.filterMap_eq_map']
  | filter predicate =>
      obtain rfl : out = rows.filter (ops.isTrue input predicate) := h
      rw [← List.filterMap_eq_filter, Multiset.filterMap_coe]
      rfl
  | subqueryAlias aliasName schema =>
      obtain rfl : out = rows := h
      exact (Multiset.filterMap_some _).symm
  | sort expr fetch =>
      cases fetch with
      | some n => cases hnode
      | none =>
          obtain ⟨sorted, hperm, -, rfl⟩ := h
          exact (Multiset.coe_eq_coe.mpr hperm).trans (Multiset.filterMap_some _).symm
  | repartition scheme =>
      have hperm : out.Perm rows := h
      exact (Multiset.coe_eq_coe.mpr hperm).trans (Multiset.filterMap_some _).symm
  | limit skip fetch => cases hnode
  | window windowExpr schema => cases hnode
  | distinctAll => cases hnode
  | distinctOn onExpr selectExpr sortExpr schema => cases hnode

theorem filterMap_sum (f : Row → Option Row) (n : ℕ) (s : ℕ → Multiset Row) :
    (∑ j ∈ range n, s j).filterMap f = ∑ j ∈ range n, (s j).filterMap f := by
  induction n with
  | zero => rfl
  | succ n ih => rw [Finset.sum_range_succ, Finset.sum_range_succ, Multiset.filterMap_add, ih]

/-- A row-wise operator can be applied part by part. -/
theorem UnaryNode.produces_of_parts {ops : Operators} {input : DFSchema} {node : UnaryNode}
    (hnode : node.isRowwise = true) {n : ℕ} {rows out : ℕ → List Row}
    (h : ∀ j < n, node.Produces ops input (rows j) (out j)) {whole : List Row}
    (hwhole : (whole : Multiset Row) = ∑ j ∈ range n, (rows j : Multiset Row)) :
    ∃ result, node.Produces ops input whole result ∧
      (result : Multiset Row) = ∑ j ∈ range n, (out j : Multiset Row) := by
  obtain ⟨result, hresult⟩ := node.exists_produces ops input whole
  refine ⟨result, hresult, ?_⟩
  rw [hresult.bag hnode, hwhole, filterMap_sum]
  exact Finset.sum_congr rfl fun j hj => ((h j (Finset.mem_range.mp hj)).bag hnode).symm

/-- A grouped aggregate can be computed part by part if no group is in two parts. -/
theorem Aggregate.rows_sum {ops : Operators} {input : DFSchema} {agg : Aggregate}
    (hgroup : agg.groupExpr ≠ []) {n : ℕ} {s : ℕ → Multiset Row}
    (h : ∀ i < n, ∀ j < n, i ≠ j → ∀ a ∈ s i, ∀ b ∈ s j,
      ∃ e ∈ agg.groupExpr, ops.eval input e a ≠ ops.eval input e b) :
    agg.rows ops input (∑ j ∈ range n, s j) = ∑ j ∈ range n, agg.rows ops input (s j) := by
  simp only [Aggregate.rows, if_neg hgroup]
  refine Bag.groups_sum _ _ n s fun i hi j hj hne a ha b hb hkey => ?_
  obtain ⟨e, he, hdiffer⟩ := h i hi j hj hne a ha b hb
  exact hdiffer (List.map_inj_left.mp hkey e he)

/-- A join can be computed part by part if no match crosses from one part to another. -/
theorem Join.rows_sum {ops : Operators} {left right : DFSchema} {j : Join}
    (hnull : j.joinType = .leftAnti → j.nullAware = false) {n : ℕ} {s t : ℕ → Multiset Row}
    (h : ∀ i < n, ∀ k < n, i ≠ k → ∀ a ∈ s i, ∀ b ∈ t k, j.isMatch ops left right a b = false) :
    j.rows ops left right (∑ i ∈ range n, s i) (∑ i ∈ range n, t i) =
      ∑ i ∈ range n, j.rows ops left right (s i) (t i) := by
  refine Bag.sum_of_add (m := j.isMatch ops left right) ?_ (fun {s t s' t'} hapart => ?_) n s t h
  · unfold Join.rows
    cases htype : j.joinType <;> simp [Bag.pairs, Bag.unmatched, Bag.matched, hnull, htype]
  · unfold Join.rows
    have hpairs := Bag.pairs_add (· ++ ·) hapart
    have hleft := Bag.unmatched_add hapart
    have hright := Bag.unmatched_add hapart.flip
    cases htype : j.joinType with
    | inner => exact hpairs
    | left =>
        simp only [hpairs, hleft, Multiset.map_add]
        abel
    | right =>
        simp only [hpairs, hright, Multiset.map_add]
        abel
    | full =>
        simp only [hpairs, hleft, hright, Multiset.map_add]
        abel
    | leftSemi => exact Bag.matched_add hapart
    | rightSemi => exact Bag.matched_add hapart.flip
    | leftAnti =>
        simp only [hnull htype, Bool.false_eq_true, if_false]
        exact hleft
    | rightAnti => exact hright

end BrewDB

import BrewDB.Common.Kleene
import BrewDB.Select.Rows

/-!
# Join conditions

Reference: `extract_join_condition`, `collect_join_predicates` and `combine_conjuncts` of
`brewdb-planner/src/logical/relation.rs`.

The conjuncts of an `ON` expression are equalities of two columns, which become keys of the join, or
anything else, which is conjoined again to the filter of the join. A pair of rows joins if the condition is
true; false and unknown are the same.
-/

namespace BrewDB.Bound

open Kleene

/-! ## Splitting -/

/-- `JoinCondition`. -/
structure JoinCondition where
  leftKeys : List Column
  rightKeys : List Column
  filter : Option Expr

/-- The three accumulators of `collect_join_predicates`. -/
structure JoinPredicates where
  leftKeys : List Column
  rightKeys : List Column
  filters : List Expr

/-- `extract_column`. -/
def extractColumn : Expr → Option Column
  | .column c => some c
  | _ => none

/-- An equality, as keys if both sides are columns. -/
def collectEquality (left right : Expr) (predicates : JoinPredicates) : JoinPredicates :=
  match extractColumn left, extractColumn right with
  | some l, some r =>
      { predicates with leftKeys := predicates.leftKeys ++ [l], rightKeys := predicates.rightKeys ++ [r] }
  | _, _ => { predicates with filters := predicates.filters ++ [.node "=" [left, right]] }

/-- `collect_join_predicates`. -/
def collectJoinPredicates : Expr → JoinPredicates → JoinPredicates
  | .node op [left, right], predicates =>
      if op = "AND" then collectJoinPredicates right (collectJoinPredicates left predicates)
      else if op = "=" then collectEquality left right predicates
      else { predicates with filters := predicates.filters ++ [.node op [left, right]] }
  | other, predicates => { predicates with filters := predicates.filters ++ [other] }

/-- A conjunction. -/
def conjoin (left right : Expr) : Expr := .node "AND" [left, right]

/-- `combine_conjuncts`. -/
def combineConjuncts : List Expr → Option Expr
  | [] => none
  | filter :: filters => some (filters.foldl conjoin filter)

/-- `extract_join_condition`. -/
def extractJoinCondition (condition : Expr) : JoinCondition :=
  let predicates := collectJoinPredicates condition ⟨[], [], []⟩
  ⟨predicates.leftKeys, predicates.rightKeys, combineConjuncts predicates.filters⟩

/-! ## Conjuncts -/

/-- The conjuncts of an expression, left to right. -/
def conjuncts : Expr → List Expr
  | .node op [left, right] =>
      if op = "AND" then conjuncts left ++ conjuncts right else [.node op [left, right]]
  | expr => [expr]

/-- The equality of two keys. -/
def keyEquality (left right : Column) : Expr := .node "=" [.column left, .column right]

namespace JoinCondition

variable (condition : JoinCondition)

/-- The equalities of the keys. -/
def equalities : List Expr := List.zipWith keyEquality condition.leftKeys condition.rightKeys

/-- The conjuncts of the filter. -/
def filterConjuncts : List Expr := (condition.filter.map conjuncts).getD []

end JoinCondition

/-- What is no operator with two sides is its own conjunct. -/
theorem conjuncts_of_forall_ne {e : Expr} (h : ∀ op left right, e = .node op [left, right] → False) :
    conjuncts e = [e] := by
  unfold conjuncts
  split
  next op left right => exact absurd rfl (h op left right)
  next => rfl

/-- No conjunct is a conjunction. -/
theorem conjuncts_of_mem {condition e : Expr} (h : e ∈ conjuncts condition) : conjuncts e = [e] := by
  induction condition using conjuncts.induct with
  | case1 left right ihl ihr =>
      rw [conjuncts, if_pos rfl, List.mem_append] at h
      exact h.elim ihl ihr
  | case2 op left right hop =>
      rw [conjuncts, if_neg hop, List.mem_singleton] at h
      rw [h, conjuncts, if_neg hop]
  | case3 expr hexpr =>
      have hconjuncts := conjuncts_of_forall_ne hexpr
      rw [hconjuncts, List.mem_singleton] at h
      rw [h, hconjuncts]

/-- The conjuncts are collected one by one. -/
theorem collectJoinPredicates_eq_foldl (condition : Expr) (predicates : JoinPredicates) :
    collectJoinPredicates condition predicates =
      (conjuncts condition).foldl (fun predicates e => collectJoinPredicates e predicates) predicates := by
  induction condition using conjuncts.induct generalizing predicates with
  | case1 left right ihl ihr =>
      rw [collectJoinPredicates, if_pos rfl, conjuncts, if_pos rfl, List.foldl_append, ← ihl, ← ihr]
  | case2 op left right hop => rw [conjuncts, if_neg hop, List.foldl_cons, List.foldl_nil]
  | case3 expr hexpr =>
      have hconjuncts := conjuncts_of_forall_ne hexpr
      rw [hconjuncts, List.foldl_cons, List.foldl_nil]

/-- What is collected so far. -/
structure Collected (done : List Expr) (predicates : JoinPredicates) : Prop where
  sameLength : predicates.leftKeys.length = predicates.rightKeys.length
  perm : done.Perm (List.zipWith keyEquality predicates.leftKeys predicates.rightKeys ++ predicates.filters)
  filters : ∀ e ∈ predicates.filters, conjuncts e = [e]

theorem Collected.filter {done : List Expr} {predicates : JoinPredicates} (h : Collected done predicates)
    {e : Expr} (he : conjuncts e = [e]) :
    Collected (done ++ [e]) { predicates with filters := predicates.filters ++ [e] } where
  sameLength := h.sameLength
  perm := by
    rw [← List.append_assoc]
    exact h.perm.append_right [e]
  filters := by
    intro e' he'
    rcases List.mem_append.mp he' with he' | he'
    · exact h.filters e' he'
    · rw [List.mem_singleton.mp he', he]

theorem Collected.keys {done : List Expr} {predicates : JoinPredicates} (h : Collected done predicates)
    (left right : Column) :
    Collected (done ++ [keyEquality left right])
      { predicates with
        leftKeys := predicates.leftKeys ++ [left]
        rightKeys := predicates.rightKeys ++ [right] } where
  sameLength := by simp [h.sameLength]
  perm := by
    rw [List.zipWith_append h.sameLength, List.append_assoc]
    refine (h.perm.append_right _).trans ?_
    rw [List.append_assoc]
    exact List.Perm.append_left _ List.perm_append_comm
  filters := h.filters

theorem extractColumn_eq_some {e : Expr} {c : Column} (h : extractColumn e = some c) : e = .column c := by
  unfold extractColumn at h
  split at h
  next => rw [Option.some.inj h]
  next => cases h

theorem conjuncts_ne_nil (e : Expr) : conjuncts e ≠ [] := by
  induction e using conjuncts.induct with
  | case1 left right ihl _ =>
      rw [conjuncts, if_pos rfl]
      exact fun hnil => ihl (List.append_eq_nil_iff.mp hnil).1
  | case2 op left right hop =>
      rw [conjuncts, if_neg hop]
      exact List.cons_ne_nil _ _
  | case3 expr hexpr =>
      rw [conjuncts_of_forall_ne hexpr]
      exact List.cons_ne_nil _ _

/-- One conjunct is collected once. -/
theorem Collected.step {done : List Expr} {predicates : JoinPredicates} (h : Collected done predicates)
    {e : Expr} (he : conjuncts e = [e]) : Collected (done ++ [e]) (collectJoinPredicates e predicates) := by
  unfold collectJoinPredicates
  split
  next _ op left right =>
    split
    next hand =>
      -- A conjunct is no conjunction.
      have hlength := congrArg List.length he
      rw [conjuncts, if_pos hand, List.length_append, List.length_singleton] at hlength
      have hleft := List.length_pos_of_ne_nil (conjuncts_ne_nil left)
      have hright := List.length_pos_of_ne_nil (conjuncts_ne_nil right)
      omega
    next hand =>
      split
      next heq =>
        subst heq
        unfold collectEquality
        split
        next l r hl hr =>
          rw [extractColumn_eq_some hl, extractColumn_eq_some hr]
          exact h.keys l r
        next => exact h.filter he
      next => exact h.filter he
  next => exact h.filter he

/-- All conjuncts are collected once. -/
theorem Collected.foldl {es done : List Expr} {predicates : JoinPredicates} (h : Collected done predicates)
    (hes : ∀ e ∈ es, conjuncts e = [e]) :
    Collected (done ++ es) (es.foldl (fun predicates e => collectJoinPredicates e predicates) predicates) := by
  induction es generalizing done predicates with
  | nil => rwa [List.append_nil]
  | cons e es ih =>
      have hstep := h.step (hes e List.mem_cons_self)
      have := ih hstep fun e' he' => hes e' (List.mem_cons_of_mem _ he')
      rwa [List.append_assoc] at this

theorem collected (condition : Expr) :
    Collected (conjuncts condition) (collectJoinPredicates condition ⟨[], [], []⟩) := by
  have hempty : Collected [] ⟨[], [], []⟩ := ⟨rfl, .nil, List.forall_mem_nil _⟩
  rw [collectJoinPredicates_eq_foldl]
  exact hempty.foldl fun e he => conjuncts_of_mem he

/-- The conjunction of the filters has them as conjuncts. -/
theorem conjuncts_foldl_conjoin {filters : List Expr} (h : ∀ e ∈ filters, conjuncts e = [e]) (filter : Expr) :
    conjuncts (filters.foldl conjoin filter) = conjuncts filter ++ filters := by
  induction filters generalizing filter with
  | nil => rw [List.foldl_nil, List.append_nil]
  | cons e filters ih =>
      rw [List.foldl_cons, ih fun e' he' => h e' (List.mem_cons_of_mem _ he'), conjoin, conjuncts, if_pos rfl,
        h e List.mem_cons_self, List.append_assoc]
      rfl

theorem filterConjuncts_extract (condition : Expr) : (extractJoinCondition condition).filterConjuncts =
    (collectJoinPredicates condition ⟨[], [], []⟩).filters := by
  have hcollected := (collected condition).filters
  rw [JoinCondition.filterConjuncts, extractJoinCondition]
  generalize (collectJoinPredicates condition ⟨[], [], []⟩).filters = filters at hcollected
  cases filters with
  | nil => rfl
  | cons e filters =>
      have hall := conjuncts_foldl_conjoin (fun e' he' => hcollected e' (List.mem_cons_of_mem _ he')) e
      rw [hcollected e List.mem_cons_self] at hall
      exact hall

/-! ## Three truth values -/

/-- What expressions mean under three-valued logic: truth values are values, and two values are equal or not
unless one of them is null. -/
structure SqlLogic (V : Type) where
  base : Meaning V
  truth : V → Truth
  ofTruth : Truth → V
  truth_ofTruth : ∀ t, truth (ofTruth t) = t
  isNull : V → Bool
  same : V → V → Bool

namespace SqlLogic

variable {V : Type} (logic : SqlLogic V)

/-- `=`. -/
def equals (a b : V) : Truth := if logic.isNull a || logic.isNull b then none else some (logic.same a b)

/-- The operators by their truth tables, everything else as it is. -/
def meaning : Meaning V :=
  { logic.base with
    node := fun op args =>
      match op, args with
      | "AND", [a, b] => logic.ofTruth (conj (logic.truth a) (logic.truth b))
      | "OR", [a, b] => logic.ofTruth (disj (logic.truth a) (logic.truth b))
      | "NOT", [a] => logic.ofTruth (neg (logic.truth a))
      | "=", [a, b] => logic.ofTruth (logic.equals a b)
      | op, args => logic.base.node op args }

/-- The truth value of a condition on a pair of rows, given by the values of their columns. -/
def holds (get : Column → V) (condition : Expr) : Truth := logic.truth (eval logic.meaning get condition)

theorem holds_and (get : Column → V) (left right : Expr) :
    logic.holds get (.node "AND" [left, right]) = conj (logic.holds get left) (logic.holds get right) :=
  logic.truth_ofTruth _

theorem holds_keyEquality (get : Column → V) (left right : Column) :
    logic.holds get (keyEquality left right) = logic.equals (get left) (get right) :=
  logic.truth_ofTruth _

/-- A condition is true if its conjuncts are. -/
theorem holds_eq_true_iff (get : Column → V) (condition : Expr) :
    logic.holds get condition = some true ↔ ∀ e ∈ conjuncts condition, logic.holds get e = some true := by
  induction condition using conjuncts.induct with
  | case1 left right ihl ihr =>
      rw [holds_and, conj_eq_true_iff, ihl, ihr, conjuncts, if_pos rfl, List.forall_mem_append]
  | case2 op left right hop => rw [conjuncts, if_neg hop, List.forall_mem_singleton]
  | case3 expr hexpr =>
      have hconjuncts := conjuncts_of_forall_ne hexpr
      rw [hconjuncts, List.forall_mem_singleton]

end SqlLogic

/-- A condition and what it is split into: as many left as right keys, every conjunct once, and the same pairs
of rows for which it is true. -/
structure SplitOf (condition : Expr) (split : JoinCondition) : Prop where
  sameLength : split.leftKeys.length = split.rightKeys.length
  conjuncts : (conjuncts condition).Perm (split.equalities ++ split.filterConjuncts)
  holds : ∀ {V : Type} (logic : SqlLogic V) (get : Column → V),
    logic.holds get condition = some true ↔
      (∀ keys ∈ split.leftKeys.zip split.rightKeys, logic.equals (get keys.1) (get keys.2) = some true) ∧
        ∀ filter ∈ split.filter, logic.holds get filter = some true

/-- The equalities are true if those of the values are. -/
theorem holds_equalities_iff {V : Type} (logic : SqlLogic V) (get : Column → V) (split : JoinCondition) :
    (∀ e ∈ split.equalities, logic.holds get e = some true) ↔
      ∀ keys ∈ split.leftKeys.zip split.rightKeys, logic.equals (get keys.1) (get keys.2) = some true := by
  rw [JoinCondition.equalities, ← List.map_uncurry_zip_eq_zipWith, List.forall_mem_map]
  refine forall₂_congr fun keys _ => ?_
  rw [← logic.holds_keyEquality]
  rfl

/-- Splitting a join condition preserves it. -/
theorem extractJoinCondition_split (condition : Expr) :
    SplitOf condition (extractJoinCondition condition) := by
  have hcollected := collected condition
  have hperm : (conjuncts condition).Perm ((extractJoinCondition condition).equalities ++
      (extractJoinCondition condition).filterConjuncts) := by
    rw [filterConjuncts_extract]
    exact hcollected.perm
  refine ⟨hcollected.sameLength, hperm, fun logic get => ?_⟩
  have hfilter : (∀ filter ∈ (extractJoinCondition condition).filter, logic.holds get filter = some true) ↔
      ∀ e ∈ (extractJoinCondition condition).filterConjuncts, logic.holds get e = some true := by
    rw [JoinCondition.filterConjuncts]
    cases (extractJoinCondition condition).filter with
    | none => simp
    | some filter => simp [logic.holds_eq_true_iff get filter]
  calc logic.holds get condition = some true
      ↔ ∀ e ∈ conjuncts condition, logic.holds get e = some true := logic.holds_eq_true_iff get condition
    _ ↔ ∀ e ∈ (extractJoinCondition condition).equalities ++ (extractJoinCondition condition).filterConjuncts,
          logic.holds get e = some true := forall_congr' fun e => by rw [hperm.mem_iff]
    _ ↔ _ := by rw [List.forall_mem_append, holds_equalities_iff, hfilter]

end BrewDB.Bound

import BrewDB.Runtime.Scheduler

/-!
# Local planning of a fragment

Reference: `brewdb-planner/src/local/mod.rs`.

A worker binds the scans and the DML targets of its fragment with two optimizer rules. The optimizer
applies each rule bottom-up to the whole plan and may go over the plan again. The first pass takes a
scan's table from the scan's source, which it replaces; from then on the table is looked up by the last
part of the scan's name or alias, as a DML target is in every pass.
-/

namespace BrewDB

/-! ## One pass -/

/-- The calls of local planning that may fail: the storage registry, its engines, and DataFusion. -/
structure LocalPlannerEnv where
  optimizerContext : Except PlannerError Unit
  tableEngine : TableCatalogEntry → Except StorageError Unit
  tableProvider : TableCatalogEntry → Except StorageError Unit
  getTableProvider : TableCatalogEntry → Option TableScanSplit → Except StorageError Unit
  /-- `TableScan::try_new` projects the schema of the new source. -/
  tableScanTryNew : TableScan → Except PlannerError DFSchema
  /-- How the optimizer reports the storage failure of a rule. -/
  external : StorageError → PlannerError

mutual
/-- `BottomUp`: rewrite the inputs of a node, then the node. -/
def transformUp (f : LogicalPlan → Except PlannerError LogicalPlan) :
    LogicalPlan → Except PlannerError LogicalPlan
  | .tableScan scan => f (.tableScan scan)
  | .unary node input => do
      let input ← transformUp f input
      f (.unary node input)
  | .union inputs schema => do
      let inputs ← transformAllUp f inputs
      f (.union inputs schema)
  | .aggregate agg input => do
      let input ← transformUp f input
      f (.aggregate agg input)
  | .join j left right => do
      let left ← transformUp f left
      let right ← transformUp f right
      f (.join j left right)
  | .remoteSource ids schema => f (.remoteSource ids schema)
  | .other node inputs => do
      let inputs ← transformAllUp f inputs
      f (.other node inputs)

/-- The inputs of a node, one by one. -/
def transformAllUp (f : LogicalPlan → Except PlannerError LogicalPlan) :
    List LogicalPlan → Except PlannerError (List LogicalPlan)
  | [] => .ok []
  | p :: ps => do
      let p ← transformUp f p
      let ps ← transformAllUp f ps
      return p :: ps
end

/-- The source is BrewDB's logical one. -/
def TableSource.isDefault : TableSource → Bool
  | .default _ => true
  | _ => false

/-- The engine of a scan's table: a logical source brings it along, any other table is opened first. -/
def LocalPlannerEnv.scanEngine (env : LocalPlannerEnv) (scan : TableScan) (table : TableCatalogEntry) :
    Except PlannerError Unit :=
  if scan.source.isDefault then .ok () else (env.tableEngine table).mapError env.external

/-- `LocalTableScanRewriteRule::rewrite` of a scan. -/
def LocalTableScanRewriteRule.rewriteScan (env : LocalPlannerEnv) (rule : LocalTableScanRewriteRule)
    (scan : TableScan) : Except PlannerError TableScan :=
  match rule.table scan with
  | none => .ok scan
  | some table => do
      env.scanEngine scan table
      (env.getTableProvider table (rule.assignedSplit scan)).mapError env.external
      let projectedSchema ← env.tableScanTryNew (rule.rewrite scan)
      return { rule.rewrite scan with projectedSchema := projectedSchema }

/-- `LocalTableScanRewriteRule::rewrite`. -/
def LocalTableScanRewriteRule.rewriteNode (env : LocalPlannerEnv) (rule : LocalTableScanRewriteRule) :
    LogicalPlan → Except PlannerError LogicalPlan
  | .tableScan scan => do
      let scan ← rule.rewriteScan env scan
      return .tableScan scan
  | other => .ok other

/-- `LocalDmlTargetRewriteRule`. -/
structure LocalDmlTargetRewriteRule where
  tables : List TableCatalogEntry

namespace LocalDmlTargetRewriteRule

/-- The first catalog entry with the last part of a target's name. -/
def table (rule : LocalDmlTargetRewriteRule) (tableName : TableReference) : Option TableCatalogEntry :=
  rule.tables.find? (·.path.table = tableName.table)

/-- The source `rewrite` gives a DML node for its target. -/
def rewriteTarget (env : LocalPlannerEnv) (rule : LocalDmlTargetRewriteRule)
    (tableName : TableReference) (target : TableSource) : Except PlannerError TableSource :=
  match rule.table tableName with
  | none => .ok target
  | some table => do
      (env.tableEngine table).mapError env.external
      (env.tableProvider table).mapError env.external
      return .provider ⟨table.tableId, none⟩

/-- `rewrite`. -/
def rewriteNode (env : LocalPlannerEnv) (rule : LocalDmlTargetRewriteRule) :
    LogicalPlan → Except PlannerError LogicalPlan
  | .other (.dml tableName target schema) inputs => do
      let target ← rule.rewriteTarget env tableName target
      return .other (.dml tableName target schema) inputs
  | other => .ok other

end LocalDmlTargetRewriteRule

/-- One pass of the optimizer: each rule over the whole plan. -/
def localPass (env : LocalPlannerEnv) (tables : List TableCatalogEntry)
    (tableScanSplit : Option TableScanSplit) (plan : LogicalPlan) : Except PlannerError LogicalPlan := do
  let plan ← transformUp (LocalTableScanRewriteRule.rewriteNode env ⟨tables, tableScanSplit⟩) plan
  transformUp (LocalDmlTargetRewriteRule.rewriteNode env ⟨tables⟩) plan

/-- `Optimizer::optimize`, going over the plan `passes` times. -/
def localOptimize (env : LocalPlannerEnv) (tables : List TableCatalogEntry)
    (tableScanSplit : Option TableScanSplit) : ℕ → LogicalPlan → Except PlannerError LogicalPlan
  | 0, plan => .ok plan
  | passes + 1, plan => do
      let plan ← localPass env tables tableScanSplit plan
      localOptimize env tables tableScanSplit passes plan

/-- A fragment as the worker runs it. -/
structure LocalFragmentPlan where
  fragmentId : PlanFragmentId
  fragmentKind : PlanFragmentKind
  logicalPlan : LogicalPlan
  tableScanSplit : Option TableScanSplit

/-- `prepare`. -/
def LocalFragmentPlan.prepare (env : LocalPlannerEnv) (passes : ℕ) (fragment : PlanFragment)
    (tableCatalogs : List TableCatalogEntry) (tableScanSplit : Option TableScanSplit) :
    Except PlannerError LocalFragmentPlan :=
  match fragment.localPlan with
  | none => .error (.invalidPlan
      ("fragment PlanFragmentId(" ++ toString fragment.fragmentId ++ ") is missing a local plan"))
  | some plan => do
      env.optimizerContext
      let optimized ← localOptimize env tableCatalogs tableScanSplit passes plan
      return ⟨fragment.fragmentId, fragment.kind, optimized, tableScanSplit⟩

/-! ## What a pass does to scans and targets -/

/-- The target of a DML node under its name. -/
def OtherNode.dmlTarget : OtherNode → List (TableReference × TableSource)
  | .dml tableName target _ => [(tableName, target)]
  | _ => []

namespace LogicalPlan

mutual
/-- The DML targets of a plan, in traversal order. -/
def dmlTargets : LogicalPlan → List (TableReference × TableSource)
  | tableScan _ => []
  | unary _ input => dmlTargets input
  | union inputs _ => allDmlTargets inputs
  | aggregate _ input => dmlTargets input
  | join _ left right => dmlTargets left ++ dmlTargets right
  | remoteSource _ _ => []
  | other node inputs => node.dmlTarget ++ allDmlTargets inputs

/-- The DML targets of all inputs. -/
def allDmlTargets : List LogicalPlan → List (TableReference × TableSource)
  | [] => []
  | p :: ps => dmlTargets p ++ allDmlTargets ps
end

end LogicalPlan

section NodeSteps

variable (R : TableScan → TableScan → Prop)
  (S : TableReference × TableSource → TableReference × TableSource → Prop)

/-- A rewrite of one node: a scan, the target of a DML node, or nothing. -/
inductive NodeStep : LogicalPlan → LogicalPlan → Prop where
  | scan {a b : TableScan} (h : R a b) : NodeStep (.tableScan a) (.tableScan b)
  | dml {tableName : TableReference} {target target' : TableSource} {schema : DFSchema}
      {inputs : List LogicalPlan} (h : S (tableName, target) (tableName, target')) :
      NodeStep (.other (.dml tableName target schema) inputs)
        (.other (.dml tableName target' schema) inputs)
  | keep {p : LogicalPlan} (hscan : ∀ scan, p ≠ .tableScan scan)
      (hdml : ∀ tableName target schema inputs, p ≠ .other (.dml tableName target schema) inputs) :
      NodeStep p p

/-- The scans and the targets of two plans, one by one. -/
def PlanStep (p q : LogicalPlan) : Prop :=
  List.Forall₂ R p.tableScans q.tableScans ∧ List.Forall₂ S p.dmlTargets q.dmlTargets

variable {R S} {f : LogicalPlan → Except PlannerError LogicalPlan}

/-- The inputs of a node are rewritten one by one. -/
theorem transformAllUp_spec (ps : List LogicalPlan)
    (hps : ∀ p ∈ ps, ∀ {q}, transformUp f p = .ok q → PlanStep R S p q) {qs : List LogicalPlan}
    (h : transformAllUp f ps = .ok qs) :
    List.Forall₂ R (LogicalPlan.allTableScans ps) (LogicalPlan.allTableScans qs) ∧
      List.Forall₂ S (LogicalPlan.allDmlTargets ps) (LogicalPlan.allDmlTargets qs) := by
  induction ps generalizing qs with
  | nil =>
      obtain rfl := Except.ok.inj h
      exact ⟨.nil, .nil⟩
  | cons p ps ih =>
      simp only [transformAllUp, ExceptRun.bind_eq_ok, ExceptRun.pure_eq_ok] at h
      obtain ⟨q, hq, qs', hqs', rfl⟩ := h
      obtain ⟨hscans, htargets⟩ := hps p List.mem_cons_self hq
      obtain ⟨hscans', htargets'⟩ := ih (fun p' hp' => hps p' (List.mem_cons_of_mem _ hp')) hqs'
      exact ⟨List.rel_append hscans hscans', List.rel_append htargets htargets'⟩

/-- A rewrite of nodes, bottom-up over a plan. -/
theorem transformUp_spec (hf : ∀ p q, f p = .ok q → NodeStep R S p q) (p : LogicalPlan)
    {q : LogicalPlan} (h : transformUp f p = .ok q) : PlanStep R S p q := by
  induction p generalizing q with
  | tableScan scan =>
      rw [transformUp] at h
      cases hf _ _ h with
      | scan hstep => exact ⟨.cons hstep .nil, .nil⟩
      | keep hscan _ => exact absurd rfl (hscan scan)
  | unary node input ih =>
      rw [transformUp] at h
      obtain ⟨input', hinput, hnode⟩ := ExceptRun.bind_eq_ok.mp h
      have hstep := ih hinput
      cases hf _ _ hnode with
      | keep _ _ => exact hstep
  | union inputs schema ih =>
      rw [transformUp] at h
      obtain ⟨inputs', hinputs, hnode⟩ := ExceptRun.bind_eq_ok.mp h
      cases hf _ _ hnode with
      | keep _ _ => exact transformAllUp_spec inputs (fun p hp => ih p hp) hinputs
  | aggregate agg input ih =>
      rw [transformUp] at h
      obtain ⟨input', hinput, hnode⟩ := ExceptRun.bind_eq_ok.mp h
      have hstep := ih hinput
      cases hf _ _ hnode with
      | keep _ _ => exact hstep
  | join j left right ihl ihr =>
      rw [transformUp] at h
      obtain ⟨left', hleft, h⟩ := ExceptRun.bind_eq_ok.mp h
      obtain ⟨right', hright, hnode⟩ := ExceptRun.bind_eq_ok.mp h
      cases hf _ _ hnode with
      | keep _ _ =>
        exact ⟨List.rel_append (ihl hleft).1 (ihr hright).1, List.rel_append (ihl hleft).2 (ihr hright).2⟩
  | remoteSource ids schema =>
      rw [transformUp] at h
      cases hf _ _ h with
      | keep _ _ => exact ⟨.nil, .nil⟩
  | other node inputs ih =>
      rw [transformUp] at h
      obtain ⟨inputs', hinputs, hnode⟩ := ExceptRun.bind_eq_ok.mp h
      obtain ⟨hscans, htargets⟩ := transformAllUp_spec inputs (fun p hp => ih p hp) hinputs
      generalize htop : LogicalPlan.other node inputs' = top at hnode
      cases hf _ _ hnode with
      | scan _ => cases htop
      | dml hstep =>
          obtain ⟨rfl, rfl⟩ := LogicalPlan.other.inj htop
          exact ⟨hscans, .cons hstep htargets⟩
      | keep _ hdml =>
          subst htop
          cases node with
          | dml tableName target schema => exact absurd rfl (hdml tableName target schema inputs')
          | emptyRelation produceOneRow schema => exact ⟨hscans, htargets⟩
          | values rows schema => exact ⟨hscans, htargets⟩
          | node name schema => exact ⟨hscans, htargets⟩

end NodeSteps

/-- The scan rule leaves every target alone. -/
theorem LocalTableScanRewriteRule.rewriteNode_step {env : LocalPlannerEnv}
    {rule : LocalTableScanRewriteRule} (p q : LogicalPlan) (h : rule.rewriteNode env p = .ok q) :
    NodeStep (fun a b => rule.rewriteScan env a = .ok b) Eq p q := by
  unfold LocalTableScanRewriteRule.rewriteNode at h
  split at h
  next scan =>
    simp only [ExceptRun.bind_eq_ok, ExceptRun.pure_eq_ok] at h
    obtain ⟨bound, hbound, rfl⟩ := h
    exact .scan hbound
  next hscan =>
    obtain rfl := Except.ok.inj h
    by_cases hdml : ∃ tableName target schema inputs, p = .other (.dml tableName target schema) inputs
    · obtain ⟨tableName, target, schema, inputs, rfl⟩ := hdml
      exact .dml rfl
    · exact .keep (fun scan hp => hscan scan hp)
        fun tableName target schema inputs hp => hdml ⟨tableName, target, schema, inputs, hp⟩

/-- The DML rule leaves every scan alone. -/
theorem LocalDmlTargetRewriteRule.rewriteNode_step {env : LocalPlannerEnv}
    {rule : LocalDmlTargetRewriteRule} (p q : LogicalPlan) (h : rule.rewriteNode env p = .ok q) :
    NodeStep Eq (fun a b => a.1 = b.1 ∧ rule.rewriteTarget env a.1 a.2 = .ok b.2) p q := by
  unfold LocalDmlTargetRewriteRule.rewriteNode at h
  split at h
  next tableName target schema inputs =>
    simp only [ExceptRun.bind_eq_ok, ExceptRun.pure_eq_ok] at h
    obtain ⟨bound, hbound, rfl⟩ := h
    exact .dml ⟨rfl, hbound⟩
  next hdml =>
    obtain rfl := Except.ok.inj h
    by_cases hscan : ∃ scan, p = .tableScan scan
    · obtain ⟨scan, rfl⟩ := hscan
      exact .scan rfl
    · exact .keep (fun scan hp => hscan ⟨scan, hp⟩) fun tableName target schema inputs hp =>
        hdml tableName target schema inputs hp

/-- A target is bound to the first entry with the last part of its name. -/
theorem LocalDmlTargetRewriteRule.eq_of_rewriteTarget {env : LocalPlannerEnv}
    {tables : List TableCatalogEntry} {tableName : TableReference} {target target' : TableSource}
    (h : (LocalDmlTargetRewriteRule.mk tables).rewriteTarget env tableName target = .ok target') :
    target' = match tables.find? (·.path.table = tableName.table) with
      | some table => .provider ⟨table.tableId, none⟩
      | none => target := by
  unfold LocalDmlTargetRewriteRule.rewriteTarget LocalDmlTargetRewriteRule.table at h
  split at h
  next hnone =>
    rw [hnone]
    exact (Except.ok.inj h).symm
  next table htable =>
    simp only [ExceptRun.bind_eq_ok, ExceptRun.pure_eq_ok] at h
    obtain ⟨_, -, _, -, rfl⟩ := h
    rw [htable]

/-- One pass binds every scan and every target once. -/
theorem localPass_spec {env : LocalPlannerEnv} {tables : List TableCatalogEntry}
    {tableScanSplit : Option TableScanSplit} {p q : LogicalPlan}
    (h : localPass env tables tableScanSplit p = .ok q) :
    PlanStep
      (fun a b => (LocalTableScanRewriteRule.mk tables tableScanSplit).rewriteScan env a = .ok b)
      (fun a b => a.1 = b.1 ∧ (LocalDmlTargetRewriteRule.mk tables).rewriteTarget env a.1 a.2 = .ok b.2)
      p q := by
  rw [localPass] at h
  obtain ⟨mid, hmid, hq⟩ := ExceptRun.bind_eq_ok.mp h
  obtain ⟨hscans, htargets⟩ := transformUp_spec LocalTableScanRewriteRule.rewriteNode_step p hmid
  obtain ⟨hscans', htargets'⟩ := transformUp_spec LocalDmlTargetRewriteRule.rewriteNode_step mid hq
  rw [List.forall₂_eq_eq_eq] at htargets hscans'
  exact ⟨hscans' ▸ hscans, htargets ▸ htargets'⟩

/-! ## What all passes do -/

namespace LocalTableScanRewriteRule

variable {env : LocalPlannerEnv} {rule : LocalTableScanRewriteRule} {scan bound : TableScan}

/-- The table a later pass finds for a scan of table `tableId`. -/
def laterTable (rule : LocalTableScanRewriteRule) (scan : TableScan) (tableId : Uuid) : Uuid :=
  ((rule.tables.find? (·.path.table = scan.tableName.table)).map TableCatalogEntry.tableId).getD tableId

/-- The first pass takes the table from the source. -/
theorem rewriteScan_default {table : TableCatalogEntry} (hsource : scan.source = .default table)
    (h : rule.rewriteScan env scan = .ok bound) :
    bound.tableName = scan.tableName ∧
      bound.source = .provider ⟨table.tableId, rule.assignedSplit scan⟩ := by
  have htable : rule.table scan = some table := by rw [LocalTableScanRewriteRule.table, hsource]
  simp only [rewriteScan, htable, ExceptRun.bind_eq_ok, ExceptRun.pure_eq_ok] at h
  obtain ⟨_, -, _, -, projectedSchema, -, rfl⟩ := h
  constructor <;> simp only [rewrite, htable]

/-- A later pass takes the table from the catalog entries. -/
theorem rewriteScan_provider {provider : TableProvider} (hsource : scan.source = .provider provider)
    (hsplit : provider.split = rule.assignedSplit scan) (h : rule.rewriteScan env scan = .ok bound) :
    bound.tableName = scan.tableName ∧ bound.source =
      .provider ⟨rule.laterTable scan provider.tableId, rule.assignedSplit scan⟩ := by
  have htable : rule.table scan = rule.tables.find? (·.path.table = scan.tableName.table) := by
    rw [LocalTableScanRewriteRule.table, hsource]
  rw [laterTable, ← htable]
  cases hfound : rule.table scan with
  | none =>
      simp only [rewriteScan, hfound, Except.ok.injEq] at h
      rw [← h, hsource, ← hsplit]
      exact ⟨rfl, rfl⟩
  | some table =>
      simp only [rewriteScan, hfound, ExceptRun.bind_eq_ok, ExceptRun.pure_eq_ok] at h
      obtain ⟨_, -, _, -, projectedSchema, -, rfl⟩ := h
      constructor <;> simp [rewrite, hfound]

end LocalTableScanRewriteRule

section Passes

variable {env : LocalPlannerEnv} {tables : List TableCatalogEntry} {tableScanSplit : Option TableScanSplit}
  {passes : ℕ} {p q : LogicalPlan} {i : ℕ}

/-- A bound scan after more passes: from the first one on the catalog entries decide. -/
theorem localOptimize_provider {scan : TableScan} {tableId : Uuid}
    (hsource : scan.source =
      .provider ⟨tableId, (LocalTableScanRewriteRule.mk tables tableScanSplit).assignedSplit scan⟩)
    (hscan : p.tableScans[i]? = some scan) (h : localOptimize env tables tableScanSplit passes p = .ok q) :
    ∃ bound, q.tableScans[i]? = some bound ∧ bound.source =
      .provider ⟨if passes = 0 then tableId
          else (LocalTableScanRewriteRule.mk tables tableScanSplit).laterTable scan tableId,
        (LocalTableScanRewriteRule.mk tables tableScanSplit).assignedSplit scan⟩ := by
  induction passes generalizing p scan tableId with
  | zero =>
      obtain rfl := Except.ok.inj h
      exact ⟨scan, hscan, hsource⟩
  | succ passes ih =>
      rw [localOptimize] at h
      obtain ⟨mid, hmid, hq⟩ := ExceptRun.bind_eq_ok.mp h
      obtain ⟨scan', hscan', hstep⟩ := ForallTwo.getElem?_right (localPass_spec hmid).1 hscan
      obtain ⟨hname, hsource'⟩ := LocalTableScanRewriteRule.rewriteScan_provider hsource rfl hstep
      -- The name stays, so the next pass finds the same entry again.
      have hsplit : (LocalTableScanRewriteRule.mk tables tableScanSplit).assignedSplit scan' =
          (LocalTableScanRewriteRule.mk tables tableScanSplit).assignedSplit scan := by
        simp only [LocalTableScanRewriteRule.assignedSplit, hname]
      obtain ⟨bound, hbound, hsource''⟩ := ih (hsplit ▸ hsource') hscan' hq
      refine ⟨bound, hbound, hsource''.trans ?_⟩
      rw [hsplit, if_neg (Nat.succ_ne_zero passes)]
      unfold LocalTableScanRewriteRule.laterTable
      rw [hname]
      split_ifs
      · rfl
      · cases tables.find? (·.path.table = scan.tableName.table) <;> rfl

/-- A scan of the logical source after all passes. -/
theorem localOptimize_default {scan : TableScan} {table : TableCatalogEntry}
    (hsource : scan.source = .default table) (hscan : p.tableScans[i]? = some scan)
    (h : localOptimize env tables tableScanSplit (passes + 1) p = .ok q) :
    ∃ bound, q.tableScans[i]? = some bound ∧ bound.source =
      .provider ⟨if passes = 0 then table.tableId
          else (LocalTableScanRewriteRule.mk tables tableScanSplit).laterTable scan table.tableId,
        (LocalTableScanRewriteRule.mk tables tableScanSplit).assignedSplit scan⟩ := by
  rw [localOptimize] at h
  obtain ⟨mid, hmid, hq⟩ := ExceptRun.bind_eq_ok.mp h
  obtain ⟨scan', hscan', hstep⟩ := ForallTwo.getElem?_right (localPass_spec hmid).1 hscan
  obtain ⟨hname, hsource'⟩ := LocalTableScanRewriteRule.rewriteScan_default hsource hstep
  have hsplit : (LocalTableScanRewriteRule.mk tables tableScanSplit).assignedSplit scan' =
      (LocalTableScanRewriteRule.mk tables tableScanSplit).assignedSplit scan := by
    simp only [LocalTableScanRewriteRule.assignedSplit, hname]
  obtain ⟨bound, hbound, hsource''⟩ := localOptimize_provider (hsplit ▸ hsource') hscan' hq
  refine ⟨bound, hbound, hsource''.trans ?_⟩
  rw [hsplit]
  unfold LocalTableScanRewriteRule.laterTable
  rw [hname]

/-- A target after all passes: the first entry with the last part of its name, in every pass. -/
theorem localOptimize_target {tableName : TableReference} {target : TableSource}
    (htarget : p.dmlTargets[i]? = some (tableName, target))
    (h : localOptimize env tables tableScanSplit (passes + 1) p = .ok q) :
    ∃ target', q.dmlTargets[i]? = some (tableName, target') ∧ target' =
      match tables.find? (·.path.table = tableName.table) with
      | some table => .provider ⟨table.tableId, none⟩
      | none => target := by
  induction passes generalizing p target with
  | zero =>
      rw [localOptimize] at h
      obtain ⟨mid, hmid, hq⟩ := ExceptRun.bind_eq_ok.mp h
      obtain rfl := Except.ok.inj hq
      obtain ⟨⟨name, target'⟩, htarget', hname, hstep⟩ :=
        ForallTwo.getElem?_right (localPass_spec hmid).2 htarget
      cases hname
      exact ⟨target', htarget', LocalDmlTargetRewriteRule.eq_of_rewriteTarget hstep⟩
  | succ passes ih =>
      rw [localOptimize] at h
      obtain ⟨mid, hmid, hq⟩ := ExceptRun.bind_eq_ok.mp h
      obtain ⟨⟨name, target'⟩, htarget', hname, hstep⟩ :=
        ForallTwo.getElem?_right (localPass_spec hmid).2 htarget
      cases hname
      obtain ⟨target'', htarget'', heq⟩ := ih htarget' hq
      refine ⟨target'', htarget'', heq.trans ?_⟩
      have heq' := LocalDmlTargetRewriteRule.eq_of_rewriteTarget hstep
      split
      · rfl
      next hnone => rw [hnone] at heq'; exact heq'

end Passes

/-! ## Every scan on its own table -/

/-- The full name of a table. -/
def TablePath.reference (path : TablePath) : TableReference := .full path.catalog path.database path.table

/-- What the `i`-th scan of a fragment is restricted to by a split of one of its table sources. -/
def splitOfScan (assigned : Option (TableSourceId × TableScanSplit)) (i : ℕ) : Option TableScanSplit :=
  (assigned.filter (·.1 = i)).map Prod.snd

/-- Scans and targets stay on their own tables. A split is assigned together with the table source it was
planned for: the scans are numbered in traversal order. -/
structure KeepsTables (tables : List TableCatalogEntry)
    (assigned : Option (TableSourceId × TableScanSplit)) (before after : LogicalPlan) : Prop where
  /-- A scan reads the table of its source, restricted by the split if that was planned for it. -/
  scans : ∀ (i : ℕ) (scan : TableScan) table, before.tableScans[i]? = some scan → scan.source = .default table →
    ∃ bound, after.tableScans[i]? = some bound ∧
      bound.source = .provider ⟨table.tableId, splitOfScan assigned i⟩
  /-- A target is the entry of its full name, and no other entry of the same last part if there is none. -/
  targets : ∀ (i : ℕ) (path : TablePath) (target : TableSource), before.dmlTargets[i]? = some (path.reference, target) →
    ∃ target' : TableSource, after.dmlTargets[i]? = some (path.reference, target') ∧
      ((∃ entry ∈ tables, entry.path = path ∧ target' = .provider ⟨entry.tableId, none⟩) ∨
        ∀ entry ∈ tables, entry.path.table = path.table →
          entry.path ≠ path ∧ target' ≠ .provider ⟨entry.tableId, none⟩)

/-- The last part of a name leads to the same table as the whole: for scans where more than one pass is
made, for targets always. And a split prints the name of the one scan it was planned for. -/
structure LastPartsSuffice (passes : ℕ) (tables : List TableCatalogEntry)
    (assigned : Option (TableSourceId × TableScanSplit)) (plan : LogicalPlan) : Prop where
  scans : ∀ (i : ℕ) (scan : TableScan) table, plan.tableScans[i]? = some scan → scan.source = .default table →
    (1 < passes → ∀ entry, tables.find? (·.path.table = scan.tableName.table) = some entry →
      entry.tableId = table.tableId) ∧
    ∀ id split, assigned = some (id, split) → (split.tableName = scan.tableName.toString ↔ id = i)
  targets : ∀ (path : TablePath) target, (path.reference, target) ∈ plan.dmlTargets →
    ∀ entry, tables.find? (·.path.table = path.table) = some entry →
      ∃ entry' ∈ tables, entry'.path = path ∧ entry'.tableId = entry.tableId

/-- The split by name against the split by table source. -/
theorem assignedSplit_eq_iff {tables : List TableCatalogEntry}
    {assigned : Option (TableSourceId × TableScanSplit)} {scan : TableScan} {i : ℕ} :
    (LocalTableScanRewriteRule.mk tables (assigned.map Prod.snd)).assignedSplit scan =
        splitOfScan assigned i ↔
      ∀ id split, assigned = some (id, split) → (split.tableName = scan.tableName.toString ↔ id = i) := by
  cases assigned with
  | none => simp [LocalTableScanRewriteRule.assignedSplit, splitOfScan]
  | some entry =>
      obtain ⟨id, split⟩ := entry
      by_cases hname : split.tableName = scan.tableName.toString <;> by_cases hid : id = i <;>
        simp [LocalTableScanRewriteRule.assignedSplit, splitOfScan, Option.filter, hname, hid]

/-- The table of the last pass against the table of the source. -/
theorem lastTable_eq_iff {passes : ℕ} {tables : List TableCatalogEntry} {tableScanSplit : Option TableScanSplit}
    {scan : TableScan} {tableId : Uuid} :
    (if passes = 0 then tableId
        else (LocalTableScanRewriteRule.mk tables tableScanSplit).laterTable scan tableId) = tableId ↔
      (1 < passes + 1 → ∀ entry, tables.find? (·.path.table = scan.tableName.table) = some entry →
        entry.tableId = tableId) := by
  by_cases hpasses : passes = 0
  · simp [hpasses]
  · have hlater : 1 < passes + 1 := by omega
    simp only [hpasses, hlater, if_false, forall_true_left, LocalTableScanRewriteRule.laterTable]
    cases tables.find? (·.path.table = scan.tableName.table) with
    | none => simp
    | some entry => simp

/-- The target of the last pass, when some entry has the last part of the full name. -/
theorem target_kept_iff {tables : List TableCatalogEntry} {path : TablePath} {entry : TableCatalogEntry}
    (hentry : tables.find? (·.path.table = path.table) = some entry) :
    ((∃ entry' ∈ tables, entry'.path = path ∧
        TableSource.provider ⟨entry.tableId, none⟩ = .provider ⟨entry'.tableId, none⟩) ∨
      ∀ entry' ∈ tables, entry'.path.table = path.table →
        entry'.path ≠ path ∧
          TableSource.provider ⟨entry.tableId, none⟩ ≠ .provider ⟨entry'.tableId, none⟩) ↔
      ∃ entry' ∈ tables, entry'.path = path ∧ entry'.tableId = entry.tableId := by
  have hmem := List.mem_of_find?_eq_some hentry
  have hlast : entry.path.table = path.table := by simpa using List.find?_some hentry
  constructor
  · rintro (⟨entry', hmem', hpath, hid⟩ | hall)
    · simp only [TableSource.provider.injEq, TableProvider.mk.injEq, and_true] at hid
      exact ⟨entry', hmem', hpath, hid.symm⟩
    · exact absurd rfl (hall entry hmem hlast).2
  · rintro ⟨entry', hmem', hpath, hid⟩
    exact .inl ⟨entry', hmem', hpath, by rw [hid]⟩

/-- Local planning keeps every scan and target on its own table exactly when the last part of the names
suffices. -/
theorem prepare_keepsTables_iff {env : LocalPlannerEnv} {passes : ℕ} {fragment : PlanFragment}
    {plan : LogicalPlan} {tables : List TableCatalogEntry}
    {assigned : Option (TableSourceId × TableScanSplit)} {prepared : LocalFragmentPlan} (hpasses : 1 ≤ passes)
    (hplan : fragment.localPlan = some plan)
    (h : LocalFragmentPlan.prepare env passes fragment tables (assigned.map Prod.snd) = .ok prepared) :
    KeepsTables tables assigned plan prepared.logicalPlan ↔
      LastPartsSuffice passes tables assigned plan := by
  obtain ⟨passes, rfl⟩ : ∃ n, passes = n + 1 := ⟨passes - 1, by omega⟩
  simp only [LocalFragmentPlan.prepare, hplan, ExceptRun.bind_eq_ok, ExceptRun.pure_eq_ok] at h
  obtain ⟨_, -, optimized, hrun, rfl⟩ := h
  constructor
  · intro hkeeps
    constructor
    · intro i scan table hscan hsource
      obtain ⟨bound, hbound, hsource'⟩ := localOptimize_default hsource hscan hrun
      obtain ⟨bound', hbound', hkept⟩ := hkeeps.scans i scan table hscan hsource
      obtain rfl := Option.some.inj (hbound.symm.trans hbound')
      have heq := hsource'.symm.trans hkept
      simp only [TableSource.provider.injEq, TableProvider.mk.injEq] at heq
      exact ⟨lastTable_eq_iff.mp heq.1, assignedSplit_eq_iff.mp heq.2⟩
    · intro path target htarget entry hentry
      obtain ⟨i, hi⟩ := List.mem_iff_getElem?.mp htarget
      obtain ⟨target', hafter, htarget'⟩ := localOptimize_target hi hrun
      obtain ⟨target'', hafter', hkept⟩ := hkeeps.targets i path target hi
      have hboth := hafter.symm.trans hafter'
      simp only [Option.some.injEq, Prod.mk.injEq, true_and] at hboth
      rw [← hboth, htarget', TablePath.reference, TableReference.table, hentry] at hkept
      exact (target_kept_iff hentry).mp hkept
  · intro hsuffice
    constructor
    · intro i scan table hscan hsource
      obtain ⟨bound, hbound, hsource'⟩ := localOptimize_default hsource hscan hrun
      obtain ⟨htable, hsplit⟩ := hsuffice.scans i scan table hscan hsource
      refine ⟨bound, hbound, hsource'.trans ?_⟩
      rw [lastTable_eq_iff.mpr htable, assignedSplit_eq_iff.mpr hsplit]
    · intro i path target htarget
      obtain ⟨target', hafter, htarget'⟩ := localOptimize_target htarget hrun
      refine ⟨target', hafter, ?_⟩
      rw [TablePath.reference, TableReference.table] at htarget'
      cases hfound : tables.find? (·.path.table = path.table) with
      | none =>
          -- No entry has the last part, so none has the full name.
          refine .inr fun entry hentry hlast => ?_
          have hnone := List.find?_eq_none.mp hfound entry hentry
          exact absurd hlast (by simpa using hnone)
      | some entry =>
          rw [hfound] at htarget'
          rw [htarget']
          exact (target_kept_iff hfound).mpr
            (hsuffice.targets path target (List.mem_of_getElem? htarget) entry hfound)

namespace Sample

/-- `orders` of another database. -/
def oldOrders : TableCatalogEntry := ⟨2, ⟨"brewdb", "archive", "orders"⟩⟩

/-- A scan of `archive.orders`. -/
def scanOldOrders : TableScan :=
  { TableScan.ofTable oldOrders [⟨"id", .int64, false⟩] with tableName := .qualified "archive" "orders" }

/-- `INSERT INTO archive.orders SELECT * FROM orders`, as a fragment. -/
def archiveOrders : PlanFragment where
  fragmentId := 0
  kind := .root
  root := none
  localPlan := some (.other (.dml oldOrders.path.reference (.default oldOrders) ⟨[]⟩) [scanOrders])

/-- `INSERT INTO orders SELECT * FROM archive.orders`, as a fragment. -/
def restoreOrders : PlanFragment where
  fragmentId := 0
  kind := .root
  root := none
  localPlan := some (.other (.dml orders.path.reference (.default orders) ⟨[]⟩) [.tableScan scanOldOrders])

/-- Every table opens. -/
def localEnv : LocalPlannerEnv where
  optimizerContext := .ok ()
  tableEngine _ := .ok ()
  tableProvider _ := .ok ()
  getTableProvider _ _ := .ok ()
  tableScanTryNew scan := .ok scan.projectedSchema
  external error := .external error.toString

end Sample

/-- One pass over a copy into another database, with a split of the scan. -/
theorem prepare_keepsTables_archive : ∃ plan prepared,
    Sample.archiveOrders.localPlan = some plan ∧
      LocalFragmentPlan.prepare Sample.localEnv 1 Sample.archiveOrders [Sample.oldOrders, Sample.orders]
        (some (.new "orders" 0)) = .ok prepared ∧
      KeepsTables [Sample.oldOrders, Sample.orders] (some (0, .new "orders" 0)) plan prepared.logicalPlan := by
  refine ⟨_, _, rfl, rfl, (@prepare_keepsTables_iff Sample.localEnv 1 Sample.archiveOrders _ _ _ _ le_rfl rfl
    rfl).mpr ⟨?_, ?_⟩⟩
  · intro i scan table hscan hsource
    cases i with
    | zero =>
        obtain rfl := Option.some.inj hscan
        refine ⟨fun hpasses => absurd hpasses (by decide), fun id split hassigned => ?_⟩
        cases hassigned
        decide
    | succ i => cases hscan
  · intro path target htarget entry hentry
    obtain ⟨hname, -⟩ := Prod.mk.inj (List.mem_singleton.mp htarget)
    obtain ⟨hcatalog, hdatabase, hlast⟩ := TableReference.full.inj hname
    obtain ⟨catalog, database, last⟩ := path
    obtain rfl : catalog = "brewdb" := hcatalog
    obtain rfl : database = "archive" := hdatabase
    obtain rfl : last = "orders" := hlast
    obtain rfl := Option.some.inj hentry
    exact ⟨Sample.oldOrders, List.mem_cons_self, rfl, rfl⟩

/-- In the second pass over a copy from another database the scan reads the table that is written. -/
theorem not_prepare_keepsTables_restore : ∃ plan prepared,
    Sample.restoreOrders.localPlan = some plan ∧
      LocalFragmentPlan.prepare Sample.localEnv 2 Sample.restoreOrders [Sample.orders, Sample.oldOrders]
        none = .ok prepared ∧
      ¬ KeepsTables [Sample.orders, Sample.oldOrders] none plan prepared.logicalPlan := by
  refine ⟨_, _, rfl, rfl, fun h => ?_⟩
  obtain ⟨bound, hbound, hsource⟩ := h.scans 0 Sample.scanOldOrders Sample.oldOrders rfl rfl
  obtain rfl := Option.some.inj hbound
  have htable : Sample.orders.tableId = Sample.oldOrders.tableId :=
    congrArg TableProvider.tableId (TableSource.provider.inj hsource)
  exact absurd htable (by decide)

end BrewDB

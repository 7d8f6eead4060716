import BrewDB.Planner.ScanSplits
import BrewDB.Runtime.ExecutionGraph

/-!
# Fragment scheduling

Reference: `brewdb-execution/src/runtime/scheduler.rs`, and `LocalTableScanRewriteRule` of
`brewdb-planner/src/local/mod.rs`.

A `Source` fragment with splits gets one instance per split of its only table source; every other
fragment gets one instance without a split. On the worker, an assigned split restricts the scans that
print the same table name; all other scans read the whole table.

A source fragment with several scans has no only table source and is left without any instance as
soon as one of its scans has a split.
-/

namespace BrewDB

/-- Scheduling failures. -/
inductive FragmentSchedulerError where
  | emptyPlan
  | noAvailableWorker
deriving DecidableEq, Repr

/-- `Display`. -/
def FragmentSchedulerError.toString : FragmentSchedulerError → String
  | .emptyPlan => "distributed plan has no fragments"
  | .noAvailableWorker => "no available workers"

/-- A worker and where it listens. -/
structure WorkerInfo where
  workerId : Uuid
  endpoint : String
deriving DecidableEq, Repr

/-- Worker selection. -/
abbrev WorkerSelector := List WorkerInfo → PlanFragment → Except FragmentSchedulerError WorkerInfo

/-- `FirstWorkerSelector`. -/
def firstWorkerSelector : WorkerSelector
  | [], _ => .error .noAvailableWorker
  | worker :: _, _ => .ok worker

/-- The sort key of the scheduling order: sources first, the root last. -/
def PlanFragmentKind.rank : PlanFragmentKind → ℕ
  | .source => 0
  | .intermediate => 1
  | .root => 2

/-- The stable sort of the fragments by kind. -/
def sortByKind (fragments : List ExecutionFragment) : List ExecutionFragment :=
  fragments.insertionSort fun a b => a.fragment.kind.rank ≤ b.fragment.kind.rank

/-- The split assignment of a fragment: the last one collected under its id. -/
def splitAssignment (fragmentScanSplits : List FragmentScanSplits) (id : PlanFragmentId) :
    TableScanSplitGroup :=
  ((fragmentScanSplits.filter (·.fragmentId = id)).getLast?.map
    FragmentScanSplits.tableScanSplits).getD .default

/-- The splits of the instances of one fragment. -/
def assignedInstances (kind : PlanFragmentKind) (assignedSplits : TableScanSplitGroup) :
    List (Option TableScanSplit) :=
  if kind = .source && !assignedSplits.isEmpty then
    (assignedSplits.intoOnlyTableSourceSplits.getD []).map some
  else [none]

/-- The two loops of `schedule`: every fragment with each of its splits. -/
def assignedFragments (fragments : List ExecutionFragment)
    (fragmentScanSplits : List FragmentScanSplits) :
    List (ExecutionFragment × Option TableScanSplit) :=
  fragments.flatMap fun f =>
    (assignedInstances f.fragment.kind (splitAssignment fragmentScanSplits f.fragmentId)).map (f, ·)

/-- `AllAtOnceFragmentScheduler::schedule`. `newV4 i` is the `i`-th random id drawn. -/
def schedule (selectWorker : WorkerSelector) (newV4 : ℕ → Uuid) (graph : ExecutionGraph)
    (fragmentScanSplits : List FragmentScanSplits) (workers : List WorkerInfo) :
    Except FragmentSchedulerError ExecutionGraph :=
  if graph.fragments.isEmpty then .error .emptyPlan
  else do
    let fragments := sortByKind graph.fragments
    let instances ← (assignedFragments fragments fragmentScanSplits).zipIdx.mapM fun assigned => do
      let worker ← selectWorker workers assigned.1.1.fragment
      return FragmentInstance.scheduled (newV4 assigned.2) assigned.1.1 worker.workerId
        worker.endpoint assigned.1.2
    return ⟨fragments, instances⟩

/-! ## Binding scans on a worker -/

/-- `LocalTableScanRewriteRule`: the catalog entries and the split of one instance. -/
structure LocalTableScanRewriteRule where
  tables : List TableCatalogEntry
  tableScanSplit : Option TableScanSplit

namespace LocalTableScanRewriteRule

/-- The catalog entry a scan is bound to: the one of its source, else the first of that name. -/
def table (rule : LocalTableScanRewriteRule) (scan : TableScan) : Option TableCatalogEntry :=
  match scan.source with
  | .default table => some table
  | _ => rule.tables.find? (·.path.table = scan.tableName.table)

/-- The instance's split, if the scan prints its table name. -/
def assignedSplit (rule : LocalTableScanRewriteRule) (scan : TableScan) : Option TableScanSplit :=
  rule.tableScanSplit.filter (·.tableName = scan.tableName.toString)

/-- `rewrite`: bind the scan to a provider restricted to the assigned split; a scan of an unknown
table is left alone. -/
def rewrite (rule : LocalTableScanRewriteRule) (scan : TableScan) : TableScan :=
  match rule.table scan with
  | none => scan
  | some table => { scan with source := .provider ⟨table.tableId, rule.assignedSplit scan⟩ }

/-- The planned splits that the bound scan reads: the assigned one, or all of them. -/
def splitsRead (rule : LocalTableScanRewriteRule) (scan : TableScan)
    (planned : List TableScanSplit) : List TableScanSplit :=
  match rule.table scan, rule.assignedSplit scan with
  | some _, some split => [split]
  | _, _ => planned

end LocalTableScanRewriteRule

/-! ## What is scheduled -/

/-- Every fragment has an instance, and the instances of a fragment read every planned split of each
of its scans exactly once. -/
structure ScheduleCovers (env : PlannerEnv) (plan : DistributedFragmentPlan)
    (tables : List TableCatalogEntry) (graph : ExecutionGraph) : Prop where
  instances : ∀ fragment ∈ plan.fragments,
    ∃ inst ∈ graph.instances, inst.fragmentId = fragment.fragmentId
  splits : ∀ fragment ∈ plan.fragments, ∀ localPlan, fragment.localPlan = some localPlan →
    ∀ scan ∈ localPlan.tableScans, ∀ planned, scan.plannedSplits env.engines = .ok planned →
      ((graph.instances.filter (·.fragmentId = fragment.fragmentId)).flatMap fun inst =>
        (LocalTableScanRewriteRule.mk tables inst.tableScanSplit).splitsRead scan planned).Perm
          planned

/-- Among pairs grouped by a list of distinct keys, those of one key are its own group. -/
private theorem filter_flatMap_of_nodup {α β κ : Type} [DecidableEq κ] (key : α → κ) (g : α → List β)
    {l : List α} (hl : (l.map key).Nodup) {a : α} (ha : a ∈ l) :
    (l.flatMap fun b => (g b).map (b, ·)).filter (fun e => key e.1 = key a) = (g a).map (a, ·) := by
  have hother : ∀ b, key b ≠ key a → ((g b).map (b, ·)).filter (fun e => key e.1 = key a) = [] := by
    intro b hb
    refine List.filter_eq_nil_iff.mpr fun e he => ?_
    obtain ⟨x, -, rfl⟩ := List.mem_map.mp he
    simpa using hb
  have hself : ((g a).map (a, ·)).filter (fun e => key e.1 = key a) = (g a).map (a, ·) := by
    refine List.filter_eq_self.mpr fun e he => ?_
    obtain ⟨x, -, rfl⟩ := List.mem_map.mp he
    simp
  induction l with
  | nil => cases ha
  | cons b l ih =>
      rw [List.map_cons, List.nodup_cons] at hl
      rw [List.flatMap_cons, List.filter_append]
      rcases List.mem_cons.mp ha with rfl | ha
      · rw [hself, List.filter_flatMap, List.flatMap_eq_nil_iff.mpr, List.append_nil]
        intro b hb
        exact hother b fun heq => hl.1 (heq ▸ List.mem_map_of_mem hb)
      · rw [hother b fun heq => hl.1 (heq ▸ List.mem_map_of_mem ha), List.nil_append]
        exact ih hl.2 ha

/-- What the scheduler returns when there is a worker: the instances are the assigned splits of the
fragments in scheduling order, each with its own random id. -/
structure Scheduled (newV4 : ℕ → Uuid) (fragments : List PlanFragment)
    (splits : List FragmentScanSplits) (graph : ExecutionGraph) : Prop where
  fragments_perm : graph.fragments.Perm (fragments.map ExecutionFragment.mk)
  instances_eq : graph.instances.map (fun inst => (inst.executionFragment, inst.tableScanSplit)) =
    assignedFragments graph.fragments splits
  instanceIds_eq : graph.instances.map FragmentInstance.instanceId =
    (List.range graph.instances.length).map newV4

/-- What a successful run of the scheduler returns. -/
theorem scheduled_of_schedule {selectWorker : WorkerSelector} {newV4 : ℕ → Uuid}
    {fragments : List PlanFragment} {splits : List FragmentScanSplits} {workers : List WorkerInfo}
    {graph : ExecutionGraph}
    (h : schedule selectWorker newV4 (.fromPlanFragments fragments) splits workers = .ok graph) :
    Scheduled newV4 fragments splits graph := by
  unfold schedule at h
  split at h
  · cases h
  obtain ⟨instances, hinstances, h⟩ := ExceptRun.bind_eq_ok.mp h
  obtain rfl := ExceptRun.pure_eq_ok.mp h
  set sorted := sortByKind (ExecutionGraph.fromPlanFragments fragments).fragments with hsorted
  -- every instance is one of the assigned pairs, on some worker
  have hpairs : List.Forall₂ (fun assigned inst => ∃ worker : WorkerInfo,
      FragmentInstance.scheduled (newV4 assigned.2) assigned.1.1 worker.workerId worker.endpoint
        assigned.1.2 = inst) (assignedFragments sorted splits).zipIdx instances :=
    (ExceptRun.mapM_eq_ok.mp hinstances).imp fun assigned inst hinst => by
      obtain ⟨worker, -, hinst⟩ := ExceptRun.bind_eq_ok.mp hinst
      exact ⟨worker, ExceptRun.pure_eq_ok.mp hinst⟩
  have hmap : ∀ {κ : Type} (f : (ExecutionFragment × Option TableScanSplit) × ℕ → κ)
      (g : FragmentInstance → κ), (∀ assigned workerId endpoint, g (FragmentInstance.scheduled
        (newV4 assigned.2) assigned.1.1 workerId endpoint assigned.1.2) = f assigned) →
      instances.map g = (assignedFragments sorted splits).zipIdx.map f := by
    intro κ f g hfg
    have heq : List.Forall₂ (fun a b => a = b) ((assignedFragments sorted splits).zipIdx.map f)
        (instances.map g) := by
      rw [List.forall₂_map_left_iff, List.forall₂_map_right_iff]
      refine hpairs.imp fun assigned inst hinst => ?_
      obtain ⟨worker, rfl⟩ := hinst
      exact (hfg assigned _ _).symm
    rw [List.forall₂_eq_eq_eq] at heq
    exact heq.symm
  have hlength : instances.length = (assignedFragments sorted splits).length := by
    rw [← hpairs.length_eq, List.length_zipIdx]
  refine ⟨List.perm_insertionSort _ _, ?_, ?_⟩
  · rw [hmap Prod.fst _ fun _ _ _ => rfl, List.zipIdx_map_fst]
  · rw [hmap (fun assigned => newV4 assigned.2) _ fun _ _ _ => rfl, hlength,
      List.range_eq_range', ← List.zipIdx_map_snd 0 (assignedFragments sorted splits), List.map_map]
    rfl

/-- With a worker at hand, scheduling a non-empty plan succeeds. -/
theorem schedule_spec (newV4 : ℕ → Uuid) {fragments : List PlanFragment} (hf : fragments ≠ [])
    (splits : List FragmentScanSplits) {workers : List WorkerInfo} (hw : workers ≠ []) :
    ∃ graph, schedule firstWorkerSelector newV4 (.fromPlanFragments fragments) splits workers =
        .ok graph ∧
      Scheduled newV4 fragments splits graph := by
  obtain ⟨worker, rest, rfl⟩ := List.exists_cons_of_ne_nil hw
  have hempty : (ExecutionGraph.fromPlanFragments fragments).fragments.isEmpty = false := by
    simpa [ExecutionGraph.fromPlanFragments] using hf
  obtain ⟨graph, hrun⟩ : ∃ graph, schedule firstWorkerSelector newV4 (.fromPlanFragments fragments)
      splits (worker :: rest) = .ok graph := by
    rw [schedule, hempty, if_neg Bool.false_ne_true]
    exact ⟨_, ExceptRun.bind_eq_ok.mpr ⟨_, List.mapM_pure, rfl⟩⟩
  exact ⟨graph, hrun, scheduled_of_schedule hrun⟩

namespace Scheduled

variable {newV4 : ℕ → Uuid} {fragments : List PlanFragment} {splits : List FragmentScanSplits}
  {graph : ExecutionGraph}

/-- Fragment ids stay distinct in scheduling order. -/
theorem fragmentIds_nodup (h : Scheduled newV4 fragments splits graph)
    (hnodup : (fragments.map PlanFragment.fragmentId).Nodup) :
    (graph.fragments.map ExecutionFragment.fragmentId).Nodup := by
  rw [(h.fragments_perm.map _).nodup_iff, List.map_map]
  exact hnodup

/-- The instances of one fragment carry its assigned splits, in order. -/
theorem splits_of_fragment (h : Scheduled newV4 fragments splits graph)
    (hnodup : (fragments.map PlanFragment.fragmentId).Nodup) {fragment : PlanFragment}
    (hf : fragment ∈ fragments) :
    (graph.instances.filter (·.fragmentId = fragment.fragmentId)).map
        FragmentInstance.tableScanSplit =
      assignedInstances fragment.kind (splitAssignment splits fragment.fragmentId) := by
  have hmem : ExecutionFragment.mk fragment ∈ graph.fragments :=
    h.fragments_perm.mem_iff.mpr (List.mem_map_of_mem hf)
  have hgroup := filter_flatMap_of_nodup ExecutionFragment.fragmentId
    (fun f => assignedInstances f.fragment.kind (splitAssignment splits f.fragmentId))
    (h.fragmentIds_nodup hnodup) hmem
  rw [← assignedFragments, ← h.instances_eq, List.filter_map] at hgroup
  have hsplits := congrArg (List.map Prod.snd) hgroup
  rw [List.map_map, List.map_map] at hsplits
  exact hsplits.trans (List.map_id _)

end Scheduled

/-! ## Scheduling a built plan -/

/-- The fragment below this input gets its instances: it reads a remote source of its own, or it has
at most one scan, or none of its scans has a split. -/
def Schedulable (env : PlannerEnv) (input : LogicalPlan) : Prop :=
  input.containsRemoteSource = true ∨ input.fragmentScans.length ≤ 1 ∨
    ∀ scan ∈ input.fragmentScans, scan.plannedSplits env.engines = .ok []

/-- The only assignment recorded under an id is found. -/
theorem splitAssignment_of_unique {l : List FragmentScanSplits} {x : FragmentScanSplits}
    (hx : x ∈ l) (hunique : ∀ s ∈ l, s.fragmentId = x.fragmentId → s = x) :
    splitAssignment l x.fragmentId = x.tableScanSplits := by
  have hfilter : x ∈ l.filter (·.fragmentId = x.fragmentId) := by simp [hx]
  obtain ⟨y, hy⟩ : ∃ y, (l.filter (·.fragmentId = x.fragmentId)).getLast? = some y :=
    ⟨_, List.getLast?_eq_some_getLast (List.ne_nil_of_mem hfilter)⟩
  obtain ⟨hmem, hid⟩ := List.mem_filter.mp (List.mem_of_getLast? hy)
  rw [splitAssignment, hy, hunique y hmem (by simpa using hid)]
  rfl

theorem splitAssignment_of_forall_ne {l : List FragmentScanSplits} {id : PlanFragmentId}
    (h : ∀ s ∈ l, s.fragmentId ≠ id) : splitAssignment l id = .default := by
  rw [splitAssignment, List.filter_eq_nil_iff.mpr fun s hs => by simpa using h s hs]
  rfl

theorem assignedInstances_of_ne {kind : PlanFragmentKind} (h : kind ≠ .source)
    (splits : TableScanSplitGroup) : assignedInstances kind splits = [none] := by
  simp [assignedInstances, h]

/-- A source fragment without splits has one instance. -/
theorem assignedInstances_of_isEmpty (kind : PlanFragmentKind) {splits : TableScanSplitGroup}
    (h : splits.isEmpty = true) : assignedInstances kind splits = [none] := by
  simp [assignedInstances, h]

/-- A source fragment with splits has an instance for each split of its only table source. -/
theorem assignedInstances_source {splits : TableScanSplitGroup} (h : splits.isEmpty = false) :
    assignedInstances .source splits =
      match splits.sources with
      | [only] => only.map some
      | _ => [] := by
  simp only [assignedInstances, h, splits.intoOnlyTableSourceSplits_eq, decide_true, Bool.not_false,
    Bool.and_self, if_true]
  rcases splits.sources with _ | ⟨only, _ | ⟨second, rest⟩⟩ <;> rfl

namespace BuildResult

variable {env : PlannerEnv} {p : LogicalPlan} {plan : DistributedFragmentPlan}

/-- Recorded scan splits belong to a piece or to the root. -/
theorem mem_fragmentScanSplits (r : BuildResult env p plan) {s : FragmentScanSplits}
    (hs : s ∈ plan.fragmentScanSplits) :
    s.fragmentId = 0 ∨
      ∃ piece ∈ r.pieces, piece.splits.isEmpty = false ∧ s = ⟨piece.id, piece.splits⟩ := by
  rw [r.fragmentScanSplits_eq, List.mem_append, List.mem_filterMap] at hs
  rcases hs with ⟨piece, hpiece, hs⟩ | hs
  · right
    unfold Piece.scanSplits at hs
    split at hs
    · cases hs
    next hempty => exact ⟨piece, hpiece, by simpa using hempty, (Option.some.inj hs).symm⟩
  · left
    split at hs
    · cases hs
    · rw [List.mem_singleton.mp hs]

/-- The scheduler finds the splits of a piece, or the empty group if they were not recorded. -/
theorem assignedInstances_piece (r : BuildResult env p plan) {piece : Piece}
    (hpiece : piece ∈ r.pieces) (kind : PlanFragmentKind) :
    assignedInstances kind (splitAssignment plan.fragmentScanSplits piece.id) =
      assignedInstances kind piece.splits := by
  have hown : ∀ s ∈ plan.fragmentScanSplits, s.fragmentId = piece.id →
      piece.splits.isEmpty = false ∧ s = ⟨piece.id, piece.splits⟩ := by
    intro s hs hid
    rcases r.mem_fragmentScanSplits hs with hroot | ⟨piece', hpiece', hempty, rfl⟩
    · exact absurd (hid.symm.trans hroot) (r.id_pos hpiece)
    · obtain rfl := r.eq_of_id_eq hpiece' hpiece hid
      exact ⟨hempty, rfl⟩
  cases hempty : piece.splits.isEmpty with
  | true =>
      have hnone : splitAssignment plan.fragmentScanSplits piece.id = .default :=
        splitAssignment_of_forall_ne fun s hs hid => by simp [hempty] at hown; exact hown s hs hid
      rw [hnone, assignedInstances_of_isEmpty kind hempty,
        assignedInstances_of_isEmpty kind TableScanSplitGroup.isEmpty_default]
  | false =>
      have hmem : FragmentScanSplits.mk piece.id piece.splits ∈ plan.fragmentScanSplits := by
        rw [r.fragmentScanSplits_eq, List.mem_append, List.mem_filterMap]
        exact Or.inl ⟨piece, hpiece, by simp [Piece.scanSplits, hempty]⟩
      have hfound := splitAssignment_of_unique hmem fun s hs hid => (hown s hs hid).2
      rw [hfound]

/-- The planned split lists of a piece's scans are the table sources of its group. -/
theorem piece_splitLists (r : BuildResult env p plan) {piece : Piece} (hpiece : piece ∈ r.pieces) :
    SplitLists env.engines piece.sourcePlan.fragmentScans piece.splits.sources := by
  obtain ⟨inner, hinner, -, -⟩ := r.forest.parts piece hpiece
  have hscans := hinner.allTableScans_eq
  simp only [LogicalPlan.allTableScans, LogicalPlan.allFragmentScans, List.append_nil] at hscans
  rw [← hscans]
  exact collectTableScanSplits_sources (r.rewrites.splits_eq piece hpiece)

theorem piece_tableScans (r : BuildResult env p plan) {piece : Piece} (hpiece : piece ∈ r.pieces) :
    piece.localPlan.tableScans = piece.sourcePlan.fragmentScans := by
  obtain ⟨inner, hinner, -, -⟩ := r.forest.parts piece hpiece
  have hscans := hinner.allTableScans_eq
  simpa only [LogicalPlan.allTableScans, LogicalPlan.allFragmentScans, List.append_nil] using hscans

end BuildResult

/-! ## Which fragments are covered -/

/-- Instances with these splits cover these scans: there is one, and together they read every planned
split of each scan exactly once. -/
def Covered (env : PlannerEnv) (tables : List TableCatalogEntry) (scans : List TableScan)
    (assigned : List (Option TableScanSplit)) : Prop :=
  assigned ≠ [] ∧ ∀ scan ∈ scans, ∀ planned, scan.plannedSplits env.engines = .ok planned →
    (assigned.flatMap fun split =>
      (LocalTableScanRewriteRule.mk tables split).splitsRead scan planned).Perm planned

section Covered

variable {env : PlannerEnv} {tables : List TableCatalogEntry}

/-- One instance without a split reads the whole of every table. -/
theorem covered_none (scans : List TableScan) : Covered env tables scans [none] := by
  refine ⟨List.cons_ne_nil _ _, fun scan _ planned _ => ?_⟩
  have hread : (LocalTableScanRewriteRule.mk tables none).splitsRead scan planned = planned := by
    unfold LocalTableScanRewriteRule.splitsRead
    split <;> simp_all [LocalTableScanRewriteRule.assignedSplit]
  rw [List.flatMap_singleton, hread]

/-- One instance per planned split of the only scan. -/
theorem covered_only {scan : TableScan} {planned : List TableScanSplit}
    (hplanned : scan.plannedSplits env.engines = .ok planned) (hne : planned ≠ []) :
    Covered env tables [scan] (planned.map some) := by
  refine ⟨by simpa using hne, List.forall_mem_singleton.mpr fun planned' hplanned' => ?_⟩
  obtain rfl := Except.ok.inj (hplanned.symm.trans hplanned')
  have hassigned : ∀ split ∈ planned,
      (LocalTableScanRewriteRule.mk tables (some split)).assignedSplit scan = some split :=
    fun split hsplit => by
      simp [LocalTableScanRewriteRule.assignedSplit,
        TableScan.plannedSplits_named hplanned split hsplit]
  rw [List.flatMap_map]
  cases htable : (LocalTableScanRewriteRule.mk tables none).table scan with
  | some table =>
      have hread : ∀ split ∈ planned,
          (LocalTableScanRewriteRule.mk tables (some split)).splitsRead scan planned = [split] := by
        intro split hsplit
        have htable' : (LocalTableScanRewriteRule.mk tables (some split)).table scan = some table :=
          htable
        rw [LocalTableScanRewriteRule.splitsRead, htable', hassigned split hsplit]
      rw [List.flatMap_congr hread, List.flatMap_singleton']
  | none =>
      -- only a bound provider has no catalog entry, and it is planned as one split
      have hone : ∃ split, planned = [split] := by
        unfold TableScan.plannedSplits at hplanned
        cases hsource : scan.source with
        | default entry => simp [LocalTableScanRewriteRule.table, hsource] at htable
        | provider provider =>
            rw [hsource] at hplanned
            exact ⟨_, (Except.ok.inj hplanned).symm⟩
        | exchangeStream schema exchangeIds =>
            rw [hsource] at hplanned
            exact ⟨_, (Except.ok.inj hplanned).symm⟩
      obtain ⟨split, rfl⟩ := hone
      have htable' : (LocalTableScanRewriteRule.mk tables (some split)).table scan = none := htable
      rw [List.flatMap_singleton, LocalTableScanRewriteRule.splitsRead, htable']

/-- A source fragment with splits is covered exactly when it has one scan. -/
theorem covered_source_iff {scans : List TableScan} {splits : TableScanSplitGroup}
    (hlists : SplitLists env.engines scans splits.sources) (hempty : splits.isEmpty = false) :
    Covered env tables scans (assignedInstances .source splits) ↔ scans.length ≤ 1 := by
  rw [assignedInstances_source hempty, hlists.length_eq]
  have hnonempty : ∃ list ∈ splits.sources, list ≠ [] := by
    by_contra hall
    have hall' : splits.isEmpty = true := TableScanSplitGroup.isEmpty_iff.mpr (by simpa using hall)
    exact Bool.false_ne_true (hempty.symm.trans hall')
  generalize splits.sources = sources at hlists hnonempty
  match sources with
  | [] => simp at hnonempty
  | [only] =>
      obtain ⟨scan, scans', hscan, hnil, rfl⟩ := List.forall₂_cons_right_iff.mp hlists
      obtain rfl := List.forall₂_nil_right_iff.mp hnil
      simp only [List.mem_singleton, exists_eq_left] at hnonempty
      simpa using covered_only hscan hnonempty
  | _ :: _ :: _ => simp [Covered]

/-- The fragment of a cut input is covered exactly when the input is schedulable. -/
theorem covered_piece_iff {p : LogicalPlan} {plan : DistributedFragmentPlan}
    (r : BuildResult env p plan) {piece : Piece} (hpiece : piece ∈ r.pieces) :
    Covered env tables piece.localPlan.tableScans
        (assignedInstances piece.fragment.kind (splitAssignment plan.fragmentScanSplits piece.id)) ↔
      Schedulable env piece.sourcePlan := by
  have hlists := r.piece_splitLists hpiece
  rw [r.assignedInstances_piece hpiece, r.piece_tableScans hpiece, Schedulable]
  cases hremote : piece.sourcePlan.containsRemoteSource with
  | true =>
      have hkind : piece.fragment.kind ≠ .source := by
        simp [Piece.fragment, fragmentKindForPlan, hremote]
      simp [assignedInstances_of_ne hkind, covered_none]
  | false =>
      have hkind : piece.fragment.kind = .source := by
        simp [Piece.fragment, fragmentKindForPlan, hremote]
      rw [hkind]
      cases hempty : piece.splits.isEmpty with
      | true =>
          have hnone : ∀ scan ∈ piece.sourcePlan.fragmentScans,
              scan.plannedSplits env.engines = .ok [] := by
            intro scan hscan
            obtain ⟨list, hlist, hplanned⟩ := SplitLists.exists_of_mem hlists hscan
            rw [hplanned, TableScanSplitGroup.isEmpty_iff.mp hempty list hlist]
          rw [assignedInstances_of_isEmpty _ hempty]
          exact iff_of_true (covered_none _) (Or.inr (Or.inr hnone))
      | false =>
          rw [covered_source_iff hlists hempty]
          refine ⟨fun h => Or.inr (Or.inl h), ?_⟩
          rintro (h | h | h)
          · exact absurd h Bool.false_ne_true
          · exact h
          · have hall : piece.splits.isEmpty = true := by
              refine TableScanSplitGroup.isEmpty_iff.mpr fun list hlist => ?_
              obtain ⟨scan, hscan, hplanned⟩ := SplitLists.exists_of_mem_right hlists hlist
              exact Except.ok.inj (hplanned.symm.trans (h scan hscan))
            exact absurd (hempty.symm.trans hall) Bool.false_ne_true

end Covered

/-- A schedule covers a plan exactly when it covers every fragment. -/
theorem scheduleCovers_iff {env : PlannerEnv} {plan : DistributedFragmentPlan}
    {tables : List TableCatalogEntry} {newV4 : ℕ → Uuid} {graph : ExecutionGraph}
    (h : Scheduled newV4 plan.fragments plan.fragmentScanSplits graph)
    (hnodup : (plan.fragments.map PlanFragment.fragmentId).Nodup)
    (hlocal : ∀ fragment ∈ plan.fragments, ∃ localPlan, fragment.localPlan = some localPlan) :
    ScheduleCovers env plan tables graph ↔
      ∀ fragment ∈ plan.fragments, ∀ localPlan, fragment.localPlan = some localPlan →
        Covered env tables localPlan.tableScans
          (assignedInstances fragment.kind
            (splitAssignment plan.fragmentScanSplits fragment.fragmentId)) := by
  have hne : ∀ fragment ∈ plan.fragments,
      (∃ inst ∈ graph.instances, inst.fragmentId = fragment.fragmentId) ↔
        assignedInstances fragment.kind
          (splitAssignment plan.fragmentScanSplits fragment.fragmentId) ≠ [] := by
    intro fragment hf
    rw [← h.splits_of_fragment hnodup hf, ne_eq, List.map_eq_nil_iff, List.filter_eq_nil_iff]
    simp
  have hread : ∀ fragment ∈ plan.fragments, ∀ (scan : TableScan) (planned : List TableScanSplit),
      ((graph.instances.filter (·.fragmentId = fragment.fragmentId)).flatMap fun inst =>
        (LocalTableScanRewriteRule.mk tables inst.tableScanSplit).splitsRead scan planned) =
      (assignedInstances fragment.kind
        (splitAssignment plan.fragmentScanSplits fragment.fragmentId)).flatMap fun split =>
          (LocalTableScanRewriteRule.mk tables split).splitsRead scan planned := by
    intro fragment hf scan planned
    rw [← h.splits_of_fragment hnodup hf, List.flatMap_map]
  constructor
  · intro hcovers fragment hf localPlan hplan
    refine ⟨(hne fragment hf).mp (hcovers.instances fragment hf), fun scan hscan planned hp => ?_⟩
    rw [← hread fragment hf]
    exact hcovers.splits fragment hf localPlan hplan scan hscan planned hp
  · intro hcovered
    refine ⟨fun fragment hf => ?_, fun fragment hf localPlan hplan scan hscan planned hp => ?_⟩
    · obtain ⟨localPlan, hplan⟩ := hlocal fragment hf
      exact (hne fragment hf).mpr (hcovered fragment hf localPlan hplan).1
    · rw [hread fragment hf]
      exact (hcovered fragment hf localPlan hplan).2 scan hscan planned hp

/-- A schedule covers a built plan exactly when the input below every cut is schedulable. -/
theorem BuildResult.scheduleCovers_iff {env : PlannerEnv} {p : LogicalPlan}
    {plan : DistributedFragmentPlan} (r : BuildResult env p plan) {newV4 : ℕ → Uuid}
    {graph : ExecutionGraph} (h : Scheduled newV4 plan.fragments plan.fragmentScanSplits graph)
    (tables : List TableCatalogEntry) :
    ScheduleCovers env plan tables graph ↔ ∀ cut ∈ p.cuts, Schedulable env cut.2 := by
  have hlocal : ∀ fragment ∈ plan.fragments, ∃ localPlan, fragment.localPlan = some localPlan := by
    intro fragment hf
    rcases r.mem_fragments.mp hf with rfl | ⟨piece, -, rfl⟩
    · exact ⟨_, rfl⟩
    · exact ⟨_, rfl⟩
  have hcuts : (∀ cut ∈ p.cuts, Schedulable env cut.2) ↔
      ∀ piece ∈ r.pieces, Schedulable env piece.sourcePlan := by
    rw [← r.map_cut, List.forall_mem_map]
  rw [hcuts, BrewDB.scheduleCovers_iff h r.fragmentIds_nodup hlocal]
  constructor
  · intro hcovered piece hpiece
    exact (covered_piece_iff r hpiece).mp (hcovered piece.fragment
      (r.mem_fragments.mpr (Or.inr ⟨piece, hpiece, rfl⟩)) _ rfl)
  · intro hpieces fragment hf localPlan hplan
    rcases r.mem_fragments.mp hf with rfl | ⟨piece, hpiece, rfl⟩
    · rw [assignedInstances_of_ne PlanFragmentKind.noConfusion]
      exact covered_none _
    · obtain rfl := Option.some.inj hplan
      exact (covered_piece_iff r hpiece).mpr (hpieces piece hpiece)

/-- Scheduling succeeds and covers a built plan exactly when every cut input is schedulable. -/
theorem schedule_covers_iff {env : PlannerEnv} {p : LogicalPlan} {plan : DistributedFragmentPlan}
    (h : build env p = .ok plan) {workers : List WorkerInfo} (hw : workers ≠ [])
    (newV4 : ℕ → Uuid) (tables : List TableCatalogEntry) :
    (∃ graph, schedule firstWorkerSelector newV4 (.fromPlanFragments plan.fragments)
        plan.fragmentScanSplits workers = .ok graph ∧ ScheduleCovers env plan tables graph) ↔
      ∀ cut ∈ p.cuts, Schedulable env cut.2 := by
  obtain ⟨r⟩ := build_spec h
  have hne : plan.fragments ≠ [] := by
    rw [r.fragments_eq]
    exact List.cons_ne_nil _ _
  obtain ⟨graph, hrun, hscheduled⟩ := schedule_spec newV4 hne plan.fragmentScanSplits hw
  rw [← r.scheduleCovers_iff hscheduled tables]
  simp [hrun]

/-- The worker of a single-node installation. -/
def Sample.workers : List WorkerInfo := [⟨0, "rpc://worker-0"⟩]

/-- `GROUP BY` over one scan is covered. -/
theorem schedule_covers_groupById : ∃ plan,
    build Sample.env (.aggregate Sample.groupById Sample.scanOrders) = .ok plan ∧
    ∃ graph, schedule firstWorkerSelector id (.fromPlanFragments plan.fragments)
      plan.fragmentScanSplits Sample.workers = .ok graph ∧
      ScheduleCovers Sample.env plan [Sample.orders] graph := by
  obtain ⟨plan, h⟩ : ∃ plan,
      build Sample.env (.aggregate Sample.groupById Sample.scanOrders) = .ok plan := ⟨_, rfl⟩
  refine ⟨plan, h, (schedule_covers_iff h (List.cons_ne_nil _ _) id [Sample.orders]).mpr ?_⟩
  show ∀ cut ∈ [(CutOperator.aggregate Sample.groupById, Sample.scanOrders)],
    Schedulable Sample.env cut.2
  exact List.forall_mem_singleton.mpr (Or.inr (Or.inl le_rfl))

/-- `SELECT count(*) FROM (SELECT * FROM orders UNION ALL SELECT * FROM orders)`. -/
def Sample.countUnion : LogicalPlan :=
  .aggregate countAll (.union [scanOrders, scanOrders] scanOrders.schema)

/-- The fragment of the union has two scans with a split each and gets no instance. -/
theorem not_schedule_covers_countUnion : ∃ plan,
    build Sample.env Sample.countUnion = .ok plan ∧
    ¬ ∃ graph, schedule firstWorkerSelector id (.fromPlanFragments plan.fragments)
      plan.fragmentScanSplits Sample.workers = .ok graph ∧
      ScheduleCovers Sample.env plan [Sample.orders] graph := by
  refine ⟨_, rfl, ?_⟩
  rintro ⟨graph, hrun, hcovers⟩
  obtain rfl := Except.ok.inj hrun
  obtain ⟨inst, hinst, hid⟩ := hcovers.instances _ (List.mem_cons_of_mem _ List.mem_cons_self)
  obtain rfl := List.mem_singleton.mp hinst
  exact absurd hid Nat.zero_ne_one

end BrewDB

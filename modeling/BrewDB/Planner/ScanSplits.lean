import BrewDB.Planner.FragmentTree

/-!
# The split group of a fragment

`collect_table_scan_splits` numbers the scans of a local plan in traversal order and keeps the planned
splits of each under its number: the table sources of the group are the split lists of the scans, one
by one, also for scans without splits.
-/

namespace BrewDB

/-- The splits planned for one scan: what its engine plans, or one split for a bound provider. -/
def TableScan.plannedSplits (engines : TableCatalogEntry → TableEngine) (scan : TableScan) :
    Except PlannerError (List TableScanSplit) :=
  match scan.source with
  | .default table =>
      match (engines table).plannedSplits scan with
      | .error err => .error (.invalidPlan err.toString)
      | .ok splits => .ok splits
  | _ => .ok [TableScanSplit.new scan.tableName.toString 0]

/-- A planned split carries the printed name of its scan. -/
theorem TableScan.plannedSplits_named {engines : TableCatalogEntry → TableEngine} {scan : TableScan}
    {splits : List TableScanSplit} (h : scan.plannedSplits engines = .ok splits) :
    ∀ split ∈ splits, split.tableName = scan.tableName.toString := by
  unfold plannedSplits at h
  split at h
  next table _ =>
    split at h
    · cases h
    next planned hplanned =>
      obtain rfl := Except.ok.inj h
      exact TableEngine.plannedSplits_named hplanned
  next =>
    obtain rfl := Except.ok.inj h
    exact List.forall_mem_singleton.mpr rfl

/-- `SplitLists engines scans lists`: the split lists planned for the scans, one by one. -/
def SplitLists (engines : TableCatalogEntry → TableEngine) (scans : List TableScan)
    (lists : List (List TableScanSplit)) : Prop :=
  List.Forall₂ (fun scan splits => scan.plannedSplits engines = .ok splits) scans lists

namespace SplitLists

variable {engines : TableCatalogEntry → TableEngine} {scans : List TableScan}
  {lists : List (List TableScanSplit)}

theorem exists_of_mem (h : SplitLists engines scans lists) {scan : TableScan} (hscan : scan ∈ scans) :
    ∃ splits ∈ lists, scan.plannedSplits engines = .ok splits :=
  ForallTwo.exists_right h hscan

theorem exists_of_mem_right (h : SplitLists engines scans lists) {splits : List TableScanSplit}
    (hsplits : splits ∈ lists) : ∃ scan ∈ scans, scan.plannedSplits engines = .ok splits :=
  ForallTwo.exists_left h hsplits

end SplitLists

/-- The group and the next id after adding the split lists of some scans. -/
def Collected (engines : TableCatalogEntry → TableEngine) (scans : List TableScan)
    (before after : TableScanSplitGroup × TableSourceId) : Prop :=
  (∀ entry ∈ before.1.tableSources.entries, entry.1 < before.2) →
    (∀ entry ∈ after.1.tableSources.entries, entry.1 < after.2) ∧
    ∃ lists, SplitLists engines scans lists ∧ after.1.sources = before.1.sources ++ lists

namespace Collected

variable {engines : TableCatalogEntry → TableEngine}

theorem nil (group : TableScanSplitGroup × TableSourceId) : Collected engines [] group group :=
  fun h => ⟨h, [], .nil, (List.append_nil _).symm⟩

theorem append {scans scans' : List TableScan}
    {before mid after : TableScanSplitGroup × TableSourceId}
    (h : Collected engines scans before mid) (h' : Collected engines scans' mid after) :
    Collected engines (scans ++ scans') before after := by
  intro hbefore
  obtain ⟨hmid, lists, hlists, hsources⟩ := h hbefore
  obtain ⟨hafter, lists', hlists', hsources'⟩ := h' hmid
  refine ⟨hafter, lists ++ lists', List.rel_append hlists hlists', ?_⟩
  rw [hsources', hsources, List.append_assoc]

/-- A new table source goes last. -/
theorem extend {scan : TableScan} {splits : List TableScanSplit} (group : TableScanSplitGroup)
    (next : TableSourceId) (h : scan.plannedSplits engines = .ok splits) :
    Collected engines [scan] (group, next) (group.extendTableSource next splits, next + 1) := by
  intro hbefore
  have hentries : (group.extendTableSource next splits).tableSources.entries =
      group.tableSources.entries ++ [(next, splits)] := by
    rw [TableScanSplitGroup.extendTableSource, BTreeMap.entries_alter_of_lt hbefore]
    rfl
  refine ⟨?_, [splits], .cons h .nil, ?_⟩
  · rw [hentries, List.forall_mem_append, List.forall_mem_singleton]
    exact ⟨fun entry hentry => Nat.lt_succ_of_lt (hbefore entry hentry), Nat.lt_succ_self next⟩
  · simp [TableScanSplitGroup.sources, BTreeMap.values, hentries]

end Collected

/-- The inputs of a node add their split lists one after the other. -/
theorem collectInputs_spec {engines : TableCatalogEntry → TableEngine} (ps : List LogicalPlan)
    (hps : ∀ p ∈ ps, ∀ {before after}, collectTableScanSplitsInto engines p before = .ok after →
      Collected engines p.tableScans before after)
    {before after : TableScanSplitGroup × TableSourceId}
    (h : collectInputsTableScanSplitsInto engines ps before = .ok after) :
    Collected engines (LogicalPlan.allTableScans ps) before after := by
  induction ps generalizing before with
  | nil =>
      obtain rfl := Except.ok.inj h
      exact Collected.nil _
  | cons p ps ih =>
      rw [collectInputsTableScanSplitsInto] at h
      obtain ⟨mid, hp, hrest⟩ := ExceptRun.bind_eq_ok.mp h
      exact (hps p List.mem_cons_self hp).append
        (ih (fun q hq => hps q (List.mem_cons_of_mem _ hq)) hrest)

/-- One plan adds the split lists of its scans. -/
theorem collectTableScanSplitsInto_spec (engines : TableCatalogEntry → TableEngine)
    (p : LogicalPlan) {before after : TableScanSplitGroup × TableSourceId}
    (h : collectTableScanSplitsInto engines p before = .ok after) :
    Collected engines p.tableScans before after := by
  induction p generalizing before after with
  | tableScan scan =>
      obtain ⟨group, next⟩ := before
      rw [collectTableScanSplitsInto] at h
      split at h
      next table hsource =>
        split at h
        · cases h
        next planned hplanned =>
          obtain rfl := Except.ok.inj h
          exact Collected.extend group next
            (by simp [TableScan.plannedSplits, hsource, TableEngine.plannedSplits, hplanned,
              Except.map])
      next hsource =>
        obtain rfl := Except.ok.inj h
        refine Collected.extend group next ?_
        cases hscan : scan.source with
        | default table => exact absurd hscan (hsource table)
        | provider provider => rw [TableScan.plannedSplits, hscan]
        | exchangeStream schema exchangeIds => rw [TableScan.plannedSplits, hscan]
  | unary node input ih => exact ih h
  | union inputs schema ih => exact collectInputs_spec inputs ih h
  | aggregate agg input ih => exact ih h
  | join j left right ihl ihr =>
      rw [collectTableScanSplitsInto] at h
      obtain ⟨mid, hleft, hright⟩ := ExceptRun.bind_eq_ok.mp h
      exact (ihl hleft).append (ihr hright)
  | remoteSource ids schema =>
      obtain rfl := Except.ok.inj h
      exact Collected.nil _
  | other node inputs ih => exact collectInputs_spec inputs ih h

/-- The table sources of a collected group are the split lists of the plan's scans. -/
theorem collectTableScanSplits_sources {engines : TableCatalogEntry → TableEngine} {p : LogicalPlan}
    {group : TableScanSplitGroup} (h : collectTableScanSplits engines p = .ok group) :
    SplitLists engines p.tableScans group.sources := by
  obtain ⟨after, hafter, rfl⟩ := ExceptRun.map_eq_ok.mp h
  obtain ⟨-, lists, hlists, hsources⟩ :=
    collectTableScanSplitsInto_spec engines p hafter (List.forall_mem_nil _)
  rwa [hsources, TableScanSplitGroup.sources_default, List.nil_append]

end BrewDB

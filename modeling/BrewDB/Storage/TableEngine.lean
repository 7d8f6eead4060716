import BrewDB.Planner.LogicalPlan

/-!
# Table engines and scan planning

Reference: `brewdb-storage/src/storage_engine.rs`, `memory/engine.rs`, `file/engine.rs` and
`paimon/engine.rs`.

`plan_scan` cuts a table scan into splits. Every engine of the repository answers with at most one
table source, whose splits carry the printed name of the scan; `TableEngine` keeps these two facts
as fields. What an engine finds on disk is a parameter. The Paimon engine is in
`Storage/SplitReading.lean`.
-/

namespace BrewDB

/-- Storage failures surfaced by scan planning. -/
inductive StorageError where
  | storageRegistryInvalid (reason : String)
  | tableNotFound (tableId : Uuid)
  | unsupportedStorageKind (storageKind : String)
  | tableScanFailed (reason : String)
deriving DecidableEq, Repr

/-- `Display`. -/
def StorageError.toString : StorageError → String
  | .storageRegistryInvalid reason => "storage registry invalid: " ++ reason
  | .tableNotFound tableId => "table not found: " ++ ToString.toString tableId
  | .unsupportedStorageKind storageKind => "unsupported storage kind: " ++ storageKind
  | .tableScanFailed reason => "table scan failed: " ++ reason

/-- The coordinator-side scan planning boundary of one table. -/
structure TableEngine where
  planScan : TableScan → Except StorageError TableScanSplitGroup
  /-- A plan is one split list. -/
  planScan_new : ∀ scan group, planScan scan = .ok group → ∃ splits, group = .new splits
  /-- Every planned split is named after the scan. -/
  planScan_named : ∀ scan splits, planScan scan = .ok (.new splits) →
    ∀ split ∈ splits, split.tableName = scan.tableName.toString

namespace TableEngine

/-- A split group determines the split list it was made from. -/
theorem new_injective {splits splits' : List TableScanSplit}
    (h : TableScanSplitGroup.new splits = TableScanSplitGroup.new splits') : splits = splits' := by
  rw [← TableScanSplitGroup.intoOnlyTableSourceSplits_new splits, h,
    TableScanSplitGroup.intoOnlyTableSourceSplits_new]

/-- An engine given by its split lists. -/
def ofSplits (plan : TableScan → Except StorageError (List TableScanSplit))
    (named : ∀ scan splits, plan scan = .ok splits →
      ∀ split ∈ splits, split.tableName = scan.tableName.toString) : TableEngine where
  planScan scan := (plan scan).map TableScanSplitGroup.new
  planScan_new scan group h := by
    cases hp : plan scan with
    | error e => simp [hp, Except.map] at h
    | ok splits =>
        simp only [hp, Except.map, Except.ok.injEq] at h
        exact ⟨splits, h.symm⟩
  planScan_named scan splits h := by
    cases hp : plan scan with
    | error e => simp [hp, Except.map] at h
    | ok splits' =>
        simp only [hp, Except.map, Except.ok.injEq] at h
        exact new_injective h ▸ named scan splits' hp

/-- The trait's default `plan_scan`, which the memory engine keeps: one split for the table. -/
def memory : TableEngine :=
  ofSplits (fun scan => .ok [TableScanSplit.new scan.tableName.toString 0]) fun scan splits h => by
    simp only [Except.ok.injEq] at h
    simp [← h]

/-- The file engine: one split per listed file, located at that file. -/
def file (listFiles : Except StorageError (List String)) (format : String) : TableEngine :=
  ofSplits
    (fun scan => listFiles.map fun paths => paths.zipIdx.map fun path =>
      ((TableScanSplit.new scan.tableName.toString path.2).withLocations [path.1]).withProperty
        "format" format)
    fun scan splits h => by
      cases listFiles with
      | error e => simp [Except.map] at h
      | ok paths =>
          simp only [Except.map, Except.ok.injEq] at h
          subst h
          intro split hsplit
          obtain ⟨path, -, rfl⟩ := List.mem_map.mp hsplit
          rfl

/-- The splits `plan_scan` yields for a scan, as the fragment planner unwraps them. -/
def plannedSplits (engine : TableEngine) (scan : TableScan) :
    Except StorageError (List TableScanSplit) :=
  (engine.planScan scan).map fun group => group.intoOnlyTableSourceSplits.getD []

/-- Every split the fragment planner keeps is named after its scan. -/
theorem plannedSplits_named {engine : TableEngine} {scan : TableScan} {splits : List TableScanSplit}
    (h : engine.plannedSplits scan = .ok splits) :
    ∀ split ∈ splits, split.tableName = scan.tableName.toString := by
  cases hp : engine.planScan scan with
  | error e => simp [plannedSplits, hp, Except.map] at h
  | ok group =>
      obtain ⟨splits', rfl⟩ := engine.planScan_new scan group hp
      simp only [plannedSplits, hp, Except.map,
        TableScanSplitGroup.intoOnlyTableSourceSplits_new, Except.ok.injEq] at h
      exact h ▸ engine.planScan_named scan splits' hp

end TableEngine

end BrewDB

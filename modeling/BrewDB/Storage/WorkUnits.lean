import BrewDB.Storage.SplitReading

/-!
# Scan work units

Reference: `scan_partitions`, `scan_work_units` and `split_scan_work_units` of
`brewdb-storage/src/paimon/reader.rs`.

A split of several files is broken up into one unit for each file, built anew; the units are dealt out to the
partitions in turn. No file is lost, none is doubled, and each keeps its own deletion file.
-/

namespace BrewDB

/-- The builder checks the required fields, and that deletion files are listed one for each data file. -/
structure DataSplitBuilder.ChecksFields {P : PaimonFormat} (builder : DataSplitBuilder P) : Prop where
  check_congr : ∀ {split split' : DataSplit P}, builder.check split = .ok () →
    split'.snapshotId = split.snapshotId → split'.partition = split.partition →
    split'.bucket = split.bucket → split'.bucketPath = split.bucketPath →
    split'.totalBuckets = split.totalBuckets → split'.dataFiles ≠ [] →
    (∀ files, split'.dataDeletionFiles = some files → files.length = split'.dataFiles.length) →
    builder.check split' = .ok ()

namespace PaimonTable

variable {P : PaimonFormat}

/-- What a reader is told about a data file. -/
structure PlacedFile (P : PaimonFormat) where
  file : P.DataFileMeta
  deletionFile : Option DeletionFile
  snapshotId : Int64
  partition : P.BinaryRow
  bucket : Int32
  bucketPath : String
  totalBuckets : Int32

/-- A data file in its place. -/
def placedFile (split : DataSplit P) (file : P.DataFileMeta × ℕ) : PlacedFile P :=
  ⟨file.1, split.deletionFile file.2, split.snapshotId, split.partition, split.bucket, split.bucketPath,
    split.totalBuckets⟩

/-- The data files of a split. -/
def placedFiles (split : DataSplit P) : List (PlacedFile P) := split.dataFiles.zipIdx.map (placedFile split)

/-- `split_scan_work_units` with the builder; its error is what `expect` would stop at. -/
def buildScanWorkUnits (builder : DataSplitBuilder P) (split : DataSplit P) :
    Except String (List (DataSplit P)) :=
  if split.dataFiles.length ≤ 1 ∨ split.rowRanges.isSome then .ok [split]
  else split.dataFiles.zipIdx.mapM fun file => builder.build (workUnit split file)

/-- `scan_partitions` with the builder. -/
def buildScanPartitions (builder : DataSplitBuilder P) (splits : List (DataSplit P)) (targetPartitions : ℕ) :
    Except String (List (List (DataSplit P))) := do
  let units ← splits.mapM (buildScanWorkUnits builder)
  return RoundRobin.deal units.flatten (min units.flatten.length (max targetPartitions 1))

/-- The number of units a split is broken up into. -/
def unitCount (split : DataSplit P) : ℕ :=
  if split.dataFiles.length ≤ 1 ∨ split.rowRanges.isSome then 1 else split.dataFiles.length

/-- The partitions of a scan: every data file once and in its place, splits with row ranges whole, and the
units spread evenly. -/
structure Balanced (splits : List (DataSplit P)) (targetPartitions : ℕ) (partitions : List (List (DataSplit P))) :
    Prop where
  files : (partitions.flatten.flatMap placedFiles).Perm (splits.flatMap placedFiles)
  whole : (partitions.flatten.filter (·.rowRanges.isSome)).Perm (splits.filter (·.rowRanges.isSome))
  units : partitions.flatten.length = (splits.map unitCount).sum
  count : partitions.length = min (splits.map unitCount).sum (max targetPartitions 1)
  nonempty : ∀ partition ∈ partitions, partition ≠ []
  even : ∀ first ∈ partitions, ∀ second ∈ partitions, first.length ≤ second.length + 1

/-! ## Units -/

/-- No work unit is refused. -/
theorem check_workUnit {builder : DataSplitBuilder P} (hbuilder : builder.ChecksFields) {split : DataSplit P}
    (hsplit : builder.check split = .ok ()) (file : P.DataFileMeta × ℕ) :
    builder.check (workUnit split file) = .ok () := by
  refine hbuilder.check_congr hsplit rfl rfl rfl rfl rfl (List.cons_ne_nil _ _) fun files hfiles => ?_
  simp only [workUnit, Option.map_eq_some_iff] at hfiles
  obtain ⟨deletionFile, -, rfl⟩ := hfiles
  rfl

/-- `expect` is not reached. -/
theorem buildScanWorkUnits_eq_ok {builder : DataSplitBuilder P} (hbuilder : builder.ChecksFields)
    {split : DataSplit P} (hsplit : builder.check split = .ok ()) :
    buildScanWorkUnits builder split = .ok (splitScanWorkUnits split) := by
  rw [buildScanWorkUnits, splitScanWorkUnits]
  split_ifs
  · rfl
  · refine ExceptRun.mapM_eq_ok.mpr (List.forall₂_map_right_iff.mpr (List.forall₂_same.mpr fun file _ => ?_))
    rw [DataSplitBuilder.build, check_workUnit hbuilder hsplit file]
    rfl

theorem buildScanPartitions_eq_ok {builder : DataSplitBuilder P} (hbuilder : builder.ChecksFields)
    {splits : List (DataSplit P)} (hsplits : ∀ split ∈ splits, builder.check split = .ok ())
    (targetPartitions : ℕ) :
    buildScanPartitions builder splits targetPartitions = .ok (scanPartitions splits targetPartitions) := by
  have hunits : splits.mapM (buildScanWorkUnits builder) = .ok (splits.map splitScanWorkUnits) :=
    ExceptRun.mapM_eq_ok.mpr (List.forall₂_map_right_iff.mpr (List.forall₂_same.mpr fun split hsplit =>
      buildScanWorkUnits_eq_ok hbuilder (hsplits split hsplit)))
  rw [buildScanPartitions, hunits, scanPartitions, List.flatMap_def]
  rfl

/-- Breaking up a split keeps its files in their places. -/
theorem placedFiles_splitScanWorkUnits (split : DataSplit P) :
    (splitScanWorkUnits split).flatMap placedFiles = placedFiles split := by
  rw [splitScanWorkUnits]
  split_ifs
  · rw [List.flatMap_singleton]
  · have hunit : ∀ file, placedFiles (workUnit split file) = [placedFile split file] := by
      intro file
      have hslot := deletionFile_workUnit split file
      simp only [placedFiles, placedFile, workUnit, List.zipIdx_singleton, List.map_cons, List.map_nil] at hslot ⊢
      rw [hslot]
    rw [List.flatMap_map, placedFiles, List.map_eq_flatMap]
    exact List.flatMap_congr fun file _ => hunit file

/-- A split with row ranges is kept whole, and only it gives units with row ranges. -/
theorem filter_rowRanges_splitScanWorkUnits (split : DataSplit P) :
    (splitScanWorkUnits split).filter (·.rowRanges.isSome) = [split].filter (·.rowRanges.isSome) := by
  rw [splitScanWorkUnits]
  split_ifs with hwhole
  · rfl
  · rw [not_or] at hwhole
    have hsplit : [split].filter (·.rowRanges.isSome) = [] := by simpa using hwhole.2
    rw [hsplit, List.filter_eq_nil_iff]
    intro unit hunit
    obtain ⟨file, -, rfl⟩ := List.mem_map.mp hunit
    exact Bool.false_ne_true

theorem length_splitScanWorkUnits (split : DataSplit P) : (splitScanWorkUnits split).length = unitCount split := by
  rw [splitScanWorkUnits, unitCount]
  split_ifs
  · rfl
  · rw [List.length_map, List.length_zipIdx]

theorem length_flatMap_splitScanWorkUnits (splits : List (DataSplit P)) :
    (splits.flatMap splitScanWorkUnits).length = (splits.map unitCount).sum := by
  rw [List.length_flatMap]
  exact congrArg List.sum (List.map_congr_left fun split _ => length_splitScanWorkUnits split)

/-! ## Partitions -/

theorem balanced_scanPartitions (splits : List (DataSplit P)) (targetPartitions : ℕ) :
    Balanced splits targetPartitions (scanPartitions splits targetPartitions) := by
  have hperm := flatten_scanPartitions_perm splits targetPartitions
  have hlength := length_flatMap_splitScanWorkUnits splits
  have hdeal : scanPartitions splits targetPartitions = RoundRobin.deal (splits.flatMap splitScanWorkUnits)
      (min (splits.flatMap splitScanWorkUnits).length (max targetPartitions 1)) := rfl
  have hhand : ∀ partition ∈ scanPartitions splits targetPartitions, ∃ p,
      p < min (splits.flatMap splitScanWorkUnits).length (max targetPartitions 1) ∧
      partition = RoundRobin.hand (splits.flatMap splitScanWorkUnits)
        (min (splits.flatMap splitScanWorkUnits).length (max targetPartitions 1)) p := by
    intro partition hpartition
    rw [hdeal] at hpartition
    obtain ⟨p, hp, rfl⟩ := List.mem_map.mp hpartition
    exact ⟨p, List.mem_range.mp hp, rfl⟩
  refine ⟨?_, ?_, ?_, ?_, ?_, ?_⟩
  · refine (hperm.flatMap_right placedFiles).trans (.of_eq ?_)
    rw [List.flatMap_assoc]
    exact List.flatMap_congr fun split _ => placedFiles_splitScanWorkUnits split
  · refine (hperm.filter _).trans (.of_eq ?_)
    rw [List.filter_flatMap, List.flatMap_congr fun split _ => filter_rowRanges_splitScanWorkUnits split,
      ← List.filter_flatMap, List.flatMap_singleton']
  · rw [hperm.length_eq, hlength]
  · rw [hdeal, RoundRobin.length_deal, hlength]
  · intro partition hpartition
    obtain ⟨p, hp, rfl⟩ := hhand partition hpartition
    exact RoundRobin.hand_ne_nil _ hp (Nat.min_le_left _ _)
  · intro first hfirst second hsecond
    obtain ⟨p, hp, rfl⟩ := hhand first hfirst
    obtain ⟨q, hq, rfl⟩ := hhand second hsecond
    exact RoundRobin.length_hand_le _ hp hq

/-- Where the planned splits satisfy the builder's checks, the partitions are built and balanced. -/
theorem buildScanPartitions_balanced {builder : DataSplitBuilder P} (hbuilder : builder.ChecksFields)
    {splits : List (DataSplit P)} (hsplits : ∀ split ∈ splits, builder.check split = .ok ())
    (targetPartitions : ℕ) :
    ∃ partitions, buildScanPartitions builder splits targetPartitions = .ok partitions ∧
      Balanced splits targetPartitions partitions :=
  ⟨_, buildScanPartitions_eq_ok hbuilder hsplits targetPartitions, balanced_scanPartitions splits targetPartitions⟩

end PaimonTable

theorem Sample.checksFields_splitBuilder : Sample.splitBuilder.ChecksFields where
  check_congr := by
    intro split split' _ _ _ _ _ _ _ hfiles
    have hlengths : (split'.dataDeletionFiles.all fun files => files.length == split'.dataFiles.length) = true := by
      rw [Option.all_eq_true]
      intro files hsome
      rw [beq_iff_eq]
      exact hfiles files hsome
    simp only [Sample.splitBuilder, hlengths, if_true]

/-- Two data files, the second with a deletion file. -/
def Sample.twoFileSplit : DataSplit Sample.paimonFormat where
  snapshotId := 1
  partition := []
  bucket := 0
  bucketPath := "/warehouse/orders/bucket-0"
  totalBuckets := 1
  dataFiles := [[1], [2]]
  dataDeletionFiles := some [none, some ⟨"/warehouse/orders/index/dv-0", 1, 22, none⟩]
  rowRanges := none

theorem PaimonTable.buildScanPartitions_balanced_twoFiles :
    ∃ partitions, PaimonTable.buildScanPartitions Sample.splitBuilder
        [Sample.twoFileSplit, Sample.dataSplit none (some [⟨0, 9⟩])] 2 = .ok partitions ∧
      PaimonTable.Balanced [Sample.twoFileSplit, Sample.dataSplit none (some [⟨0, 9⟩])] 2 partitions := by
  refine PaimonTable.buildScanPartitions_balanced Sample.checksFields_splitBuilder (fun split hsplit => ?_) 2
  rcases List.mem_pair.mp hsplit with rfl | rfl
  · rfl
  · rfl

end BrewDB

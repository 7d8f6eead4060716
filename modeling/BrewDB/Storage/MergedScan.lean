import BrewDB.Common.NewestVersion
import BrewDB.Storage.SplitReading

/-!
# Scans of primary-key tables

Reference: `scan_partitions` and `PaimonScanExec::execute` of `brewdb-storage/src/paimon/reader.rs`.

Reading a data split of a primary-key table merges its files by key. The scan reads each work unit on its own,
and breaks a split of several files up into one unit for each. Limits are left out: under a limit every
partition stops on its own.
-/

namespace BrewDB.PaimonTable

variable {P : PaimonFormat}

/-- A row of a data file: a version of its key, which a deletion leaves without a row. -/
structure RowVersion where
  key : Row
  sequenceNumber : ℤ
  row : Option Row
deriving DecidableEq, Repr

/-- A primary-key table. -/
structure KeyedTable (P : PaimonFormat) where
  /-- What is left of a data file under its deletion file, within the row ranges. -/
  versions : Option (List RowRange) → P.DataFileMeta → Option DeletionFile → List RowVersion
  /-- A merged row under the projection and the filters. -/
  present : Option (List String) → List Expr → Row → Option Row

namespace KeyedTable

variable (table : KeyedTable P) (projection : Option (List String)) (filters : List Expr)

/-- What a version shows to the scan. -/
def shown (version : RowVersion) : Option Row := version.row.bind (table.present projection filters)

/-- The files of a split. -/
def fileVersions (split : DataSplit P) : List (List RowVersion) :=
  split.dataFiles.zipIdx.map fun file => table.versions split.rowRanges file.1 (split.deletionFile file.2)

/-- `to_arrow` of one data split. -/
def readSplit (split : DataSplit P) : List Row :=
  Versions.merge RowVersion.key RowVersion.sequenceNumber (table.shown projection filters)
    (table.fileVersions split).flatten

/-- `PaimonScanExec::execute`, all partitions together. -/
def scanRows (splits : List (DataSplit P)) (targetPartitions : ℕ) : List Row :=
  (scanPartitions splits targetPartitions).flatMap fun units =>
    units.flatMap (table.readSplit projection filters)

/-- Splits that are broken up hold every key they show in one file only, and not deleted by another. -/
def SettledSplits (splits : List (DataSplit P)) : Prop :=
  ∀ split ∈ splits, 1 < split.dataFiles.length → split.rowRanges = none →
    Versions.Settled RowVersion.key RowVersion.sequenceNumber (table.shown projection filters)
      (table.fileVersions split)

variable {table projection filters}

/-- A work unit shows what its file shows. -/
theorem readSplit_workUnit {split : DataSplit P} (hranges : split.rowRanges = none)
    (file : P.DataFileMeta × ℕ) :
    table.readSplit projection filters (workUnit split file) =
      Versions.merge RowVersion.key RowVersion.sequenceNumber (table.shown projection filters)
        (table.versions split.rowRanges file.1 (split.deletionFile file.2)) := by
  have hfiles : table.fileVersions (workUnit split file) =
      [table.versions split.rowRanges file.1 (split.deletionFile file.2)] := by
    rw [fileVersions, hranges, ← deletionFile_workUnit]
    rfl
  rw [readSplit, hfiles, List.flatten_singleton]

/-- The units of a split together, as the merges of its files. -/
theorem units_of_brokenUp {split : DataSplit P} (hfiles : 1 < split.dataFiles.length)
    (hranges : split.rowRanges = none) :
    (↑((splitScanWorkUnits split).flatMap (table.readSplit projection filters)) : Multiset Row) =
      ((table.fileVersions split).map fun versions => (↑(Versions.merge RowVersion.key
        RowVersion.sequenceNumber (table.shown projection filters) versions) : Multiset Row)).sum := by
  have hwhole : ¬ (split.dataFiles.length ≤ 1 ∨ split.rowRanges.isSome = true) := by
    rw [hranges]
    simpa using hfiles
  rw [splitScanWorkUnits, if_neg hwhole, List.flatMap_map, fileVersions]
  generalize split.dataFiles.zipIdx = files
  induction files with
  | nil => rfl
  | cons file files ih =>
      rw [List.flatMap_cons, ← Multiset.coe_add, ih, readSplit_workUnit hranges]
      rfl

/-- Reading a split as a whole shows at most what its units show. -/
theorem readSplit_le (split : DataSplit P) :
    (↑(table.readSplit projection filters split) : Multiset Row) ≤
      ↑((splitScanWorkUnits split).flatMap (table.readSplit projection filters)) := by
  by_cases hbroken : 1 < split.dataFiles.length ∧ split.rowRanges = none
  · rw [units_of_brokenUp hbroken.1 hbroken.2]
    exact Versions.merge_flatten_le _
  · rw [splitScanWorkUnits, if_pos, List.flatMap_singleton]
    rw [← not_lt, ← Option.ne_none_iff_isSome]
    exact not_and_or.mp hbroken

theorem readSplit_eq_iff (split : DataSplit P) :
    (↑(table.readSplit projection filters split) : Multiset Row) =
        ↑((splitScanWorkUnits split).flatMap (table.readSplit projection filters)) ↔
      (1 < split.dataFiles.length → split.rowRanges = none →
        Versions.Settled RowVersion.key RowVersion.sequenceNumber (table.shown projection filters)
          (table.fileVersions split)) := by
  by_cases hbroken : 1 < split.dataFiles.length ∧ split.rowRanges = none
  · rw [units_of_brokenUp hbroken.1 hbroken.2, readSplit, Versions.merge_flatten_eq_iff]
    exact ⟨fun h _ _ => h, fun h => h hbroken.1 hbroken.2⟩
  · have hunits : splitScanWorkUnits split = [split] := by
      rw [splitScanWorkUnits, if_pos]
      rw [← not_lt, ← Option.ne_none_iff_isSome]
      exact not_and_or.mp hbroken
    rw [hunits, List.flatMap_singleton]
    exact iff_of_true rfl fun hfiles hranges => absurd ⟨hfiles, hranges⟩ hbroken

/-- The partitions of a scan return the rows of the planned splits just when the splits are settled. -/
theorem scanRows_merged_iff (table : KeyedTable P) (projection : Option (List String)) (filters : List Expr)
    (splits : List (DataSplit P)) (targetPartitions : ℕ) :
    (↑(table.scanRows projection filters splits targetPartitions) : Multiset Row) =
        ↑(splits.flatMap (table.readSplit projection filters)) ↔
      table.SettledSplits projection filters splits := by
  have hunits : (↑(table.scanRows projection filters splits targetPartitions) : Multiset Row) =
      (splits.map fun split =>
        (↑((splitScanWorkUnits split).flatMap (table.readSplit projection filters)) : Multiset Row)).sum := by
    have hperm := (flatten_scanPartitions_perm splits targetPartitions).flatMap_right
      (table.readSplit projection filters)
    rw [← List.flatMap_id', List.flatMap_assoc, List.flatMap_assoc] at hperm
    rw [scanRows, Multiset.coe_eq_coe.mpr hperm]
    clear hperm
    induction splits with
    | nil => rfl
    | cons split splits ih =>
        rw [List.flatMap_cons, ← Multiset.coe_add, ih]
        rfl
  have hwhole : (↑(splits.flatMap (table.readSplit projection filters)) : Multiset Row) =
      (splits.map fun split => (↑(table.readSplit projection filters split) : Multiset Row)).sum := by
    clear hunits
    induction splits with
    | nil => rfl
    | cons split splits ih =>
        rw [List.flatMap_cons, ← Multiset.coe_add, ih]
        rfl
  rw [hunits, hwhole, eq_comm, Versions.sum_eq_sum_iff fun split _ => readSplit_le split]
  exact forall₂_congr fun split _ => readSplit_eq_iff split

/-- Two versions of one key, each in its own file. -/
def Sample.keyedTable : KeyedTable Sample.paimonFormat where
  versions _ (file : List UInt8) _ :=
    if file = [1] then [⟨[.integer 1], 1, some [.integer 1, .string "old"]⟩]
    else [⟨[.integer 1], 2, some [.integer 1, .string "new"]⟩]
  present _ _ row := some row

/-- A split with both files. -/
def Sample.twoVersionSplit : DataSplit Sample.paimonFormat :=
  ⟨2, [], 0, "/warehouse/orders/bucket-0", 1, [[1], [2]], none, none⟩

/-- The scan returns the old version next to the new one. -/
theorem not_scanRows_merged_twoVersions :
    (↑(Sample.keyedTable.scanRows none [] [Sample.twoVersionSplit] 2) : Multiset Row) ≠
      ↑([Sample.twoVersionSplit].flatMap (Sample.keyedTable.readSplit none [])) := by
  rw [ne_eq, Multiset.coe_eq_coe]
  decide +kernel

end KeyedTable

end BrewDB.PaimonTable

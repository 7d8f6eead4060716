import BrewDB.Common.BTreeMap

/-!
# Table scan splits

Reference: `brewdb-storage/src/scan.rs`.

A split is one schedulable piece of a table scan; a split group collects the splits of one fragment
under per-scan ids. The Paimon descriptors (snapshot, partition, bucket, data and deletion files, row
ranges) are set and read by the Paimon engine only.
-/

namespace BrewDB

/-! ## Descriptors -/

/-- `DataFileFormat`. -/
inductive DataFileFormat where
  | parquet
  | vortex
  | unknown (ext : String)
deriving DecidableEq, Repr

/-- `from_path`: the extension of the path decides. -/
def DataFileFormat.fromPath (path : String) : DataFileFormat :=
  match (path.splitOn ".").getLast? with
  | some "parquet" => .parquet
  | some "vortex" => .vortex
  | some ext => if ext ≠ path then .unknown ext else .unknown ""
  | none => .unknown ""

/-- `DataFileDescriptor`. -/
structure DataFileDescriptor where
  path : String
  fileName : String
  fileFormat : DataFileFormat
  fileSize : Option UInt64
  rowCount : Option UInt64
  schemaId : Option Int64
  serializedMetadata : Option (List UInt8)
  minSequenceNumber : Option Int64
  maxSequenceNumber : Option Int64
  deleteRowCount : Option Int64
  firstRowId : Option Int64
  externalPath : Option String
  writeColumns : Option (List String)
  extraFiles : List String
deriving DecidableEq, Repr

/-- `DeletionFileDescriptor`: the deletion file of the data file with the given ordinal. -/
structure DeletionFileDescriptor where
  dataFileOrdinal : UInt32
  path : String
  offset : Int64
  length : Int64
  rowCount : Option UInt64
deriving DecidableEq, Repr

/-- `RowRangeDescriptor`. -/
structure RowRangeDescriptor where
  first : Int64
  last : Int64
deriving DecidableEq, Repr

/-- `BucketDescriptor`. -/
structure BucketDescriptor where
  bucket : Int32
  totalBuckets : Option Int32
  path : Option String
deriving DecidableEq, Repr

/-- `PartitionDescriptor`. -/
structure PartitionDescriptor where
  serializedBinaryRow : List UInt8
deriving DecidableEq, Repr

/-! ## Splits -/

/-- A planned piece of one table scan. -/
structure TableScanSplit where
  splitId : String
  tableName : String
  ordinal : ℕ
  locations : List String
  snapshotId : Option Int64
  partition : Option PartitionDescriptor
  bucket : Option BucketDescriptor
  dataFiles : List DataFileDescriptor
  deletionFiles : List DeletionFileDescriptor
  rowRanges : List RowRangeDescriptor
  properties : List (String × String)
deriving DecidableEq, Repr

namespace TableScanSplit

/-- A split without locations, descriptors or properties, named after its table and ordinal. -/
def new (tableName : String) (ordinal : ℕ) : TableScanSplit where
  splitId := tableName ++ "#" ++ toString ordinal
  tableName := tableName
  ordinal := ordinal
  locations := []
  snapshotId := none
  partition := none
  bucket := none
  dataFiles := []
  deletionFiles := []
  rowRanges := []
  properties := []

/-- `with_locations`. -/
def withLocations (split : TableScanSplit) (locations : List String) : TableScanSplit :=
  { split with locations := locations }

/-- `with_property`. -/
def withProperty (split : TableScanSplit) (key value : String) : TableScanSplit :=
  { split with properties := split.properties.filter (·.1 != key) ++ [(key, value)] }

@[simp] theorem tableName_new (name : String) (ordinal : ℕ) : (new name ordinal).tableName = name :=
  rfl

@[simp] theorem tableName_withLocations (split : TableScanSplit) (locations : List String) :
    (split.withLocations locations).tableName = split.tableName := rfl

@[simp] theorem tableName_withProperty (split : TableScanSplit) (key value : String) :
    (split.withProperty key value).tableName = split.tableName := rfl

end TableScanSplit

/-- The id of one table scan inside its fragment (`u32` newtype). -/
abbrev TableSourceId := ℕ

/-- The splits of a fragment, grouped by table scan. -/
structure TableScanSplitGroup where
  tableSources : BTreeMap TableSourceId (List TableScanSplit)

namespace TableScanSplitGroup

/-- The group without table sources (`Default`). -/
def default : TableScanSplitGroup := ⟨BTreeMap.empty⟩

/-- A group of one table source; an empty split list leaves no table source behind. -/
def fromTableSource (id : TableSourceId) (splits : List TableScanSplit) : TableScanSplitGroup :=
  if splits.isEmpty then default else ⟨BTreeMap.empty.alter id fun _ => splits⟩

/-- A group of one table source under the default id. -/
def new (splits : List TableScanSplit) : TableScanSplitGroup := fromTableSource 0 splits

/-- No table source has a split. -/
def isEmpty (group : TableScanSplitGroup) : Bool := group.tableSources.values.all List.isEmpty

/-- The number of splits over all table sources. -/
def len (group : TableScanSplitGroup) : ℕ := (group.tableSources.values.map List.length).sum

/-- The splits of the group's only table source, if it has exactly one. -/
def intoOnlyTableSourceSplits (group : TableScanSplitGroup) : Option (List TableScanSplit) :=
  if group.tableSources.len = 1 then group.tableSources.popFirst.map Prod.snd else none

/-- Append splits to a table source, creating it if absent — also when there are no splits. -/
def extendTableSource (group : TableScanSplitGroup) (id : TableSourceId)
    (splits : List TableScanSplit) : TableScanSplitGroup :=
  ⟨group.tableSources.alter id fun current => current.getD [] ++ splits⟩

/-- The table sources as a list of split lists, in id order. -/
def sources (group : TableScanSplitGroup) : List (List TableScanSplit) :=
  group.tableSources.values

@[simp] theorem sources_default : default.sources = [] := rfl

theorem isEmpty_iff {group : TableScanSplitGroup} :
    group.isEmpty = true ↔ ∀ splits ∈ group.sources, splits = [] := by
  simp only [isEmpty, sources, List.all_eq_true, List.isEmpty_iff]

/-- Emptiness looks at the split lists only, not at how many scans there are. -/
@[simp] theorem isEmpty_default : default.isEmpty = true := rfl

/-- The only table source is read off the list of sources. -/
theorem intoOnlyTableSourceSplits_eq (group : TableScanSplitGroup) :
    group.intoOnlyTableSourceSplits =
      match group.sources with
      | [splits] => some splits
      | _ => none := by
  obtain ⟨⟨entries, sorted⟩⟩ := group
  simp only [intoOnlyTableSourceSplits, sources, BTreeMap.values, BTreeMap.len, BTreeMap.popFirst]
  rcases entries with _ | ⟨first, _ | ⟨second, rest⟩⟩
  · rfl
  · rfl
  · simp

/-- A group built from one split list has that list as its only source, or none if it is empty. -/
theorem intoOnlyTableSourceSplits_new (splits : List TableScanSplit) :
    ((new splits).intoOnlyTableSourceSplits).getD [] = splits := by
  rw [intoOnlyTableSourceSplits_eq]
  cases splits with
  | nil => rfl
  | cons split rest => rfl

end TableScanSplitGroup

end BrewDB

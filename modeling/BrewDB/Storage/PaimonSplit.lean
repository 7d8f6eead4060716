import BrewDB.Common.SparseList
import BrewDB.Common.ExceptState
import BrewDB.Storage.Scan
import BrewDB.Storage.TableEngine

/-!
# Paimon splits as scan splits

Reference: `table_scan_split_from_paimon_split` and `paimon_split_from_table_scan_split` of
`brewdb-storage/src/paimon/engine.rs`.

A planned Paimon data split is turned into a descriptor for the worker, which turns it back. Paimon
itself is a parameter: the data file records with their JSON form, the partition rows with their byte
form, and what `DataSplitBuilder::build` checks. A data split also says whether it can be read without
merging; this flag is not read here and left out.
-/

namespace BrewDB

/-- The part of a data file record that the descriptor shows. -/
structure DataFileFields where
  fileName : String
  fileSize : Int64
  rowCount : Int64
  schemaId : Int64
  minSequenceNumber : Int64
  maxSequenceNumber : Int64
  deleteRowCount : Option Int64
  firstRowId : Option Int64
  externalPath : Option String
  writeCols : Option (List String)
  extraFiles : List String
deriving DecidableEq, Repr

/-- Paimon's data file records and partition rows, with their serialized forms. -/
structure PaimonFormat where
  DataFileMeta : Type
  fields : DataFileMeta → DataFileFields
  BinaryRow : Type
  /-- `serde_json::to_vec`. -/
  toVec : DataFileMeta → Except String (List UInt8)
  /-- `serde_json::from_slice`. -/
  fromSlice : List UInt8 → Except String DataFileMeta
  toSerializedBytes : BinaryRow → List UInt8
  fromSerializedBytes : List UInt8 → Except String BinaryRow
  /-- JSON round-trips. -/
  fromSlice_toVec : ∀ file, ∃ bytes, toVec file = .ok bytes ∧ fromSlice bytes = .ok file
  /-- The byte form of a row round-trips. -/
  fromSerializedBytes_toSerializedBytes :
    ∀ row, fromSerializedBytes (toSerializedBytes row) = .ok row

/-- `DeletionFile`. -/
structure DeletionFile where
  path : String
  offset : Int64
  length : Int64
  cardinality : Option Int64
deriving DecidableEq, Repr

/-- `RowRange`. -/
structure RowRange where
  first : Int64
  last : Int64
deriving DecidableEq, Repr

/-- What a data split consists of. -/
structure DataSplit (P : PaimonFormat) where
  snapshotId : Int64
  partition : P.BinaryRow
  bucket : Int32
  bucketPath : String
  totalBuckets : Int32
  dataFiles : List P.DataFileMeta
  dataDeletionFiles : Option (List (Option DeletionFile))
  rowRanges : Option (List RowRange)

/-- The deletion file of the `index`-th data file. -/
def DataSplit.deletionFile {P : PaimonFormat} (split : DataSplit P) (index : ℕ) :
    Option DeletionFile :=
  (split.dataDeletionFiles.bind fun files => files[index]?).join

/-- `DataSplitBuilder::build`: the parts make a split unless a check refuses them. Deletion files are
listed by data file, with a hole for a file without one; they and the row ranges may be left out. -/
structure DataSplitBuilder (P : PaimonFormat) where
  check : DataSplit P → Except String Unit
  length_eq : ∀ {split files}, check split = .ok () → split.dataDeletionFiles = some files →
    files.length = split.dataFiles.length
  check_deletionFiles : ∀ {split}, check split = .ok () → ∀ {files},
    files.length = split.dataFiles.length →
      check { split with dataDeletionFiles := some files } = .ok ()
  check_noDeletionFiles : ∀ {split}, check split = .ok () →
    check { split with dataDeletionFiles := none } = .ok ()
  check_noRowRanges : ∀ {split}, check split = .ok () → check { split with rowRanges := none } = .ok ()

/-- `build`. -/
def DataSplitBuilder.build {P : PaimonFormat} (builder : DataSplitBuilder P) (parts : DataSplit P) :
    Except String (DataSplit P) :=
  (builder.check parts).map fun _ => parts

/-- `storage_scan_error`. -/
def storageScanError (reason : String) : StorageError := .tableScanFailed reason

/-- A library result with its error wrapped. -/
def scanResult {α : Type} (x : Except String α) : Except StorageError α := x.mapError storageScanError

/-! ## To a descriptor -/

/-- `u64::try_from`. -/
def u64TryFrom (value : Int64) : Option UInt64 := if 0 ≤ value then some value.toUInt64 else none

/-- `i64::try_from`. -/
def i64TryFrom (value : UInt64) : Option Int64 :=
  if value ≤ Int64.maxValue.toUInt64 then some value.toInt64 else none

/-- `data_file_path`. -/
def dataFilePath (bucketPath fileName : String) : String :=
  if fileName.startsWith "file:" || fileName.startsWith "/" then fileName
  else (bucketPath.dropEndWhile (· == '/')).toString ++ "/" ++ fileName

/-- The descriptor of one data file. -/
def dataFileDescriptor (P : PaimonFormat) (bucketPath : String) (file : P.DataFileMeta) :
    Except StorageError DataFileDescriptor := do
  let fields := P.fields file
  let path := dataFilePath bucketPath fields.fileName
  let metadata ← scanResult (P.toVec file)
  return {
    fileFormat := .fromPath path
    fileName := fields.fileName
    path := path
    fileSize := u64TryFrom fields.fileSize
    rowCount := u64TryFrom fields.rowCount
    schemaId := some fields.schemaId
    serializedMetadata := some metadata
    minSequenceNumber := some fields.minSequenceNumber
    maxSequenceNumber := some fields.maxSequenceNumber
    deleteRowCount := fields.deleteRowCount
    firstRowId := fields.firstRowId
    externalPath := fields.externalPath
    writeColumns := fields.writeCols
    extraFiles := fields.extraFiles }

/-- The descriptor of a deletion file at a position. -/
def deletionFileDescriptor (entry : ℕ × DeletionFile) : DeletionFileDescriptor where
  dataFileOrdinal := UInt32.ofNat entry.1
  path := entry.2.path
  offset := entry.2.offset
  length := entry.2.length
  rowCount := entry.2.cardinality.bind u64TryFrom

/-- `table_scan_split_from_paimon_split`. -/
def tableScanSplitFromPaimonSplit {P : PaimonFormat} (tableName : String) (ordinal : ℕ)
    (split : DataSplit P) : Except StorageError TableScanSplit := do
  let dataFiles ← split.dataFiles.mapM (dataFileDescriptor P split.bucketPath)
  return { TableScanSplit.new tableName ordinal with
    snapshotId := some split.snapshotId
    partition := some ⟨P.toSerializedBytes split.partition⟩
    bucket := some ⟨split.bucket, some split.totalBuckets, some split.bucketPath⟩
    dataFiles := dataFiles
    deletionFiles :=
      (SparseList.entries (split.dataDeletionFiles.getD [])).map deletionFileDescriptor
    rowRanges := (split.rowRanges.getD []).map fun range => ⟨range.first, range.last⟩ }

/-! ## And back -/

/-- `data_file_meta_from_descriptor`. -/
def dataFileMetaFromDescriptor (P : PaimonFormat) (file : DataFileDescriptor) :
    Except StorageError P.DataFileMeta :=
  match file.serializedMetadata with
  | none => .error (.tableScanFailed
      ("Paimon data file " ++ file.path ++ " misses serialized metadata"))
  | some metadata => scanResult (P.fromSlice metadata)

/-- A part of a split descriptor that a Paimon split must have. -/
def requirePart {α : Type} (split : TableScanSplit) (name : String) (part : Option α) :
    Except StorageError α :=
  match part with
  | none => .error (.tableScanFailed ("Paimon scan split " ++ split.splitId ++ " misses " ++ name))
  | some value => .ok value

/-- The deletion file a descriptor stands for, at its position. -/
def deletionFileEntry (file : DeletionFileDescriptor) : ℕ × DeletionFile :=
  (file.dataFileOrdinal.toNat,
    ⟨file.path, file.offset, file.length, file.rowCount.bind i64TryFrom⟩)

/-- The deletion files by position, if there are any. -/
def deletionFilesByPosition (split : TableScanSplit) : Option (List (Option DeletionFile)) :=
  if split.deletionFiles.isEmpty then none
  else some (SparseList.write (List.replicate split.dataFiles.length none)
    (split.deletionFiles.map deletionFileEntry))

/-- `paimon_split_from_table_scan_split`. -/
def paimonSplitFromTableScanSplit {P : PaimonFormat} (builder : DataSplitBuilder P)
    (split : TableScanSplit) : Except StorageError (DataSplit P) := do
  let snapshotId ← requirePart split "snapshot id" split.snapshotId
  let partition ← requirePart split "partition" split.partition
  let partition ← scanResult (P.fromSerializedBytes partition.serializedBinaryRow)
  let bucket ← requirePart split "bucket" split.bucket
  let bucketPath ← requirePart split "bucket path" bucket.path
  let dataFiles ← split.dataFiles.mapM (dataFileMetaFromDescriptor P)
  scanResult (builder.build {
    snapshotId := snapshotId
    partition := partition
    bucket := bucket.bucket
    bucketPath := bucketPath
    totalBuckets := bucket.totalBuckets.getD 1
    dataFiles := dataFiles
    dataDeletionFiles := deletionFilesByPosition split
    rowRanges :=
      if split.rowRanges.isEmpty then none
      else some (split.rowRanges.map fun range => ⟨range.first, range.last⟩) })

/-! ## The round trip -/

@[simp] theorem scanResult_eq_ok {α : Type} {x : Except String α} {a : α} :
    scanResult x = .ok a ↔ x = .ok a := by
  cases x <;> simp [scanResult, Except.mapError]

/-- A split as it comes back: its deletion files by position, its row ranges unless there are none. -/
def DataSplit.reopened {P : PaimonFormat} (split : DataSplit P) : DataSplit P :=
  let files := SparseList.entries (split.dataDeletionFiles.getD [])
  { split with
    dataDeletionFiles :=
      if files.isEmpty then none
      else some (SparseList.write (List.replicate split.dataFiles.length none)
        (files.map (deletionFileEntry ∘ deletionFileDescriptor)))
    rowRanges := if (split.rowRanges.getD []).isEmpty then none else split.rowRanges }

/-- The agreement of two splits in what is read from them. -/
structure SameSplit {P : PaimonFormat} (split split' : DataSplit P) : Prop where
  snapshotId : split'.snapshotId = split.snapshotId
  partition : split'.partition = split.partition
  bucket : split'.bucket = split.bucket
  bucketPath : split'.bucketPath = split.bucketPath
  totalBuckets : split'.totalBuckets = split.totalBuckets
  dataFiles : split'.dataFiles = split.dataFiles
  deletionFile : ∀ index < split.dataFiles.length,
    split'.deletionFile index = split.deletionFile index
  rowRanges : split'.rowRanges = split.rowRanges

section RoundTrip

variable {P : PaimonFormat} {builder : DataSplitBuilder P}

/-- A data file is rebuilt from the JSON in its descriptor. -/
theorem dataFileMeta_of_descriptor (bucketPath : String) (file : P.DataFileMeta) :
    ∃ descriptor, dataFileDescriptor P bucketPath file = .ok descriptor ∧
      dataFileMetaFromDescriptor P descriptor = .ok file := by
  obtain ⟨bytes, hbytes, hfile⟩ := P.fromSlice_toVec file
  have hbytes : scanResult (P.toVec file) = .ok bytes := scanResult_eq_ok.mpr hbytes
  refine ⟨_, by rw [dataFileDescriptor, hbytes]; rfl, ?_⟩
  exact scanResult_eq_ok.mpr hfile

theorem dataFileMetas_of_descriptors (bucketPath : String) (files : List P.DataFileMeta) :
    ∃ descriptors, files.mapM (dataFileDescriptor P bucketPath) = .ok descriptors ∧
      descriptors.length = files.length ∧
      descriptors.mapM (dataFileMetaFromDescriptor P) = .ok files := by
  simp only [ExceptRun.mapM_eq_ok]
  induction files with
  | nil => exact ⟨[], .nil, rfl, .nil⟩
  | cons file files ih =>
      obtain ⟨descriptor, hdescriptor, hback⟩ := dataFileMeta_of_descriptor bucketPath file
      obtain ⟨descriptors, hdescriptors, hlength, hbacks⟩ := ih
      exact ⟨descriptor :: descriptors, .cons hdescriptor hdescriptors,
        by rw [List.length_cons, List.length_cons, hlength], .cons hback hbacks⟩

/-- Paimon accepts what comes back. -/
theorem check_reopened {split : DataSplit P} (hsplit : builder.check split = .ok ()) :
    builder.check split.reopened = .ok () := by
  have hranges : builder.check { split with
      rowRanges := if (split.rowRanges.getD []).isEmpty then none else split.rowRanges } = .ok () := by
    split
    · exact builder.check_noRowRanges hsplit
    · exact hsplit
  rw [DataSplit.reopened]
  split
  · exact builder.check_noDeletionFiles hranges
  · exact builder.check_deletionFiles hranges (by simp)

theorem rowRanges_of_descriptors (ranges : Option (List RowRange)) :
    (if ((ranges.getD []).map fun r => RowRangeDescriptor.mk r.first r.last).isEmpty then none
      else some (((ranges.getD []).map fun r => RowRangeDescriptor.mk r.first r.last).map fun r =>
        RowRange.mk r.first r.last)) =
    if (ranges.getD []).isEmpty then none else ranges := by
  rw [List.isEmpty_map, List.map_map]
  cases ranges with
  | none => rfl
  | some ranges => simp [Function.comp_def]

/-- Turning a split into a descriptor and back succeeds, with `reopened` as its result. -/
theorem paimonSplit_of_tableScanSplit (tableName : String) (ordinal : ℕ) {split : DataSplit P}
    (hsplit : builder.check split = .ok ()) :
    ∃ descriptor, tableScanSplitFromPaimonSplit tableName ordinal split = .ok descriptor ∧
      paimonSplitFromTableScanSplit builder descriptor = .ok split.reopened := by
  obtain ⟨descriptors, hdescriptors, hlength, hback⟩ :=
    dataFileMetas_of_descriptors split.bucketPath split.dataFiles
  refine ⟨_, by rw [tableScanSplitFromPaimonSplit, hdescriptors]; rfl, ?_⟩
  have hbuild : builder.build split.reopened = .ok split.reopened := by
    rw [DataSplitBuilder.build, check_reopened hsplit]
    rfl
  have hdeletion : ∀ descriptor : TableScanSplit, descriptor.dataFiles = descriptors →
      descriptor.deletionFiles =
        (SparseList.entries (split.dataDeletionFiles.getD [])).map deletionFileDescriptor →
      deletionFilesByPosition descriptor = split.reopened.dataDeletionFiles := by
    intro descriptor hfiles hdeletions
    rw [deletionFilesByPosition, hfiles, hdeletions, hlength, List.isEmpty_map, List.map_map]
    rfl
  simp only [paimonSplitFromTableScanSplit, requirePart, ExceptRun.bind_eq_ok, Except.ok.injEq,
    exists_eq_left', hback, scanResult_eq_ok]
  rw [hdeletion _ rfl rfl, rowRanges_of_descriptors]
  exact ⟨_, P.fromSerializedBytes_toSerializedBytes split.partition, hbuild⟩

/-! ## When it is the same split -/

/-- The values of an `i64` that fit in a `u64` are those that come back. -/
theorem nonneg_iff_toUInt64_le {value : Int64} :
    0 ≤ value ↔ value.toUInt64 ≤ Int64.maxValue.toUInt64 := by
  have hmax : Int64.maxValue.toUInt64.toNat = 2 ^ 63 - 1 := by decide
  have hlt := value.toUInt64.toBitVec.isLt
  rw [Int64.le_iff_toInt_le, UInt64.le_iff_toNat_le, hmax]
  show (0 : Int) ≤ value.toUInt64.toBitVec.toInt ↔ value.toUInt64.toBitVec.toNat ≤ 2 ^ 63 - 1
  rw [BitVec.toInt_eq_toNat_cond]
  split <;> omega

theorem i64TryFrom_u64TryFrom {value : Int64} (h : 0 ≤ value) :
    (u64TryFrom value).bind i64TryFrom = some value := by
  rw [u64TryFrom, if_pos h, Option.bind_some, i64TryFrom, if_pos (nonneg_iff_toUInt64_le.mp h),
    Int64.toInt64_toUInt64]

/-- No cardinality comes back negative. -/
theorem nonneg_of_i64TryFrom {value : UInt64} {result : Int64} (h : i64TryFrom value = some result) :
    0 ≤ result := by
  rw [i64TryFrom, Option.ite_none_right_eq_some] at h
  obtain ⟨hle, hvalue⟩ := h
  rw [nonneg_iff_toUInt64_le, ← Option.some.inj hvalue, UInt64.toUInt64_toInt64]
  exact hle

/-- A deletion file whose position and cardinality its descriptor can hold comes back as it was. -/
theorem deletionFileEntry_deletionFileDescriptor {index : ℕ} {file : DeletionFile}
    (hindex : index < 2 ^ 32) (hcardinality : ∀ count, file.cardinality = some count → 0 ≤ count) :
    deletionFileEntry (deletionFileDescriptor (index, file)) = (index, file) := by
  have hposition : (UInt32.ofNat index).toNat = index := UInt32.toNat_ofNat_of_lt' hindex
  have hcount : (file.cardinality.bind u64TryFrom).bind i64TryFrom = file.cardinality := by
    cases hfile : file.cardinality with
    | none => rfl
    | some count => exact i64TryFrom_u64TryFrom (hcardinality count hfile)
  simp only [deletionFileEntry, deletionFileDescriptor, hposition, hcount]

/-- The position and the cardinality a deletion file comes back with. -/
theorem bounds_deletionFileEntry (file : DeletionFileDescriptor) :
    (deletionFileEntry file).1 < 2 ^ 32 ∧
      ∀ count, (deletionFileEntry file).2.cardinality = some count → 0 ≤ count := by
  refine ⟨file.dataFileOrdinal.toNat_lt, fun count hcount => ?_⟩
  obtain ⟨value, -, hvalue⟩ := Option.bind_eq_some_iff.mp hcount
  exact nonneg_of_i64TryFrom hvalue

/-- The splits that descriptors can describe. -/
def DataSplit.Describable (split : DataSplit P) : Prop :=
  split.rowRanges ≠ some [] ∧
    ∀ index file, split.deletionFile index = some file →
      index < 2 ^ 32 ∧ ∀ count, file.cardinality = some count → 0 ≤ count

theorem deletionFile_eq_some {split : DataSplit P} {index : ℕ} {file : DeletionFile} :
    split.deletionFile index = some file ↔
      (index, file) ∈ SparseList.entries (split.dataDeletionFiles.getD []) := by
  rw [SparseList.mem_entries, DataSplit.deletionFile]
  cases split.dataDeletionFiles with
  | none => simp
  | some files => simp [Option.join_eq_some_iff]

/-- What is attached to a data file after the round trip. -/
theorem deletionFile_reopened_eq_some {split : DataSplit P} {index : ℕ} {file : DeletionFile} :
    split.reopened.deletionFile index = some file ↔
      (SparseList.write (List.replicate split.dataFiles.length none)
        ((SparseList.entries (split.dataDeletionFiles.getD [])).map
          (deletionFileEntry ∘ deletionFileDescriptor)))[index]? = some (some file) := by
  rw [DataSplit.deletionFile, DataSplit.reopened]
  by_cases hempty : SparseList.entries (split.dataDeletionFiles.getD []) = []
  · simp [hempty, SparseList.write, List.getElem?_replicate]
  · simp [hempty, Option.join_eq_some_iff]

/-- Deletion files that descriptors can hold stay where they are. -/
theorem deletionFile_reopened {split : DataSplit P} (h : split.Describable) {index : ℕ}
    (hindex : index < split.dataFiles.length) :
    split.reopened.deletionFile index = split.deletionFile index := by
  have hentries : (SparseList.entries (split.dataDeletionFiles.getD [])).map
      (deletionFileEntry ∘ deletionFileDescriptor) =
      SparseList.entries (split.dataDeletionFiles.getD []) := by
    refine (List.map_congr_left fun entry hentry => ?_).trans (List.map_id _)
    obtain ⟨hposition, hcount⟩ := h.2 entry.1 entry.2 (deletionFile_eq_some.mpr hentry)
    exact deletionFileEntry_deletionFileDescriptor hposition hcount
  refine Option.ext fun file => ?_
  rw [deletionFile_reopened_eq_some, hentries, deletionFile_eq_some]
  constructor
  · intro hfile
    rcases SparseList.mem_of_getElem?_write hfile with hhole | hentry
    · simp [List.getElem?_replicate] at hhole
    · exact hentry
  · intro hentry
    exact SparseList.getElem?_write_of_mem (SparseList.nodup_entries _) hentry (by simpa using hindex)

/-- A split comes back as it was exactly when its descriptor can hold it. -/
theorem sameSplit_reopened_iff {split : DataSplit P} (hsplit : builder.check split = .ok ()) :
    SameSplit split split.reopened ↔ split.Describable := by
  constructor
  · intro hsame
    refine ⟨fun hranges => ?_, fun index file hfile => ?_⟩
    · have hback := hsame.rowRanges
      rw [hranges] at hback
      simp [DataSplit.reopened, hranges] at hback
    · -- a deletion file of the list is attached to a data file, as the list is one slot per file
      have hindex : index < split.dataFiles.length := by
        obtain ⟨files, hfiles, hslot⟩ : ∃ files, split.dataDeletionFiles = some files ∧
            files[index]? = some (some file) := by
          rw [DataSplit.deletionFile] at hfile
          cases hfiles : split.dataDeletionFiles with
          | none => simp [hfiles] at hfile
          | some files => exact ⟨files, rfl, by simpa [hfiles, Option.join_eq_some_iff] using hfile⟩
        rw [← builder.length_eq hsplit hfiles]
        exact (List.getElem?_eq_some_iff.mp hslot).1
      have hback := (hsame.deletionFile index hindex).trans hfile
      rw [deletionFile_reopened_eq_some] at hback
      rcases SparseList.mem_of_getElem?_write hback with hhole | hentry
      · simp [List.getElem?_replicate] at hhole
      · obtain ⟨entry, -, heq⟩ := List.mem_map.mp hentry
        have hbounds := bounds_deletionFileEntry (deletionFileDescriptor entry)
        rw [show deletionFileEntry (deletionFileDescriptor entry) = (index, file) from heq] at hbounds
        exact hbounds
  · intro h
    refine ⟨rfl, rfl, rfl, rfl, rfl, rfl, fun index hindex => deletionFile_reopened h hindex, ?_⟩
    show (if (split.rowRanges.getD []).isEmpty then none else split.rowRanges) = split.rowRanges
    cases hranges : split.rowRanges with
    | none => rfl
    | some ranges =>
        cases ranges with
        | nil => exact absurd hranges h.1
        | cons range ranges => rfl

/-- Split descriptors round-trip, except for an empty list of row ranges, negative cardinalities and
deletion files beyond the `u32` positions. -/
theorem splitDescriptor_roundTrip_iff (tableName : String) (ordinal : ℕ) {split : DataSplit P}
    (hsplit : builder.check split = .ok ()) :
    (∃ descriptor split', tableScanSplitFromPaimonSplit tableName ordinal split = .ok descriptor ∧
      paimonSplitFromTableScanSplit builder descriptor = .ok split' ∧ SameSplit split split') ↔
    split.rowRanges ≠ some [] ∧
      ∀ index file, split.deletionFile index = some file →
        index < 2 ^ 32 ∧ ∀ count, file.cardinality = some count → 0 ≤ count := by
  obtain ⟨descriptor, hto, hback⟩ := paimonSplit_of_tableScanSplit tableName ordinal hsplit
  refine Iff.trans ?_ (sameSplit_reopened_iff hsplit)
  constructor
  · rintro ⟨descriptor', split', hto', hback', hsame⟩
    obtain rfl := Except.ok.inj (hto.symm.trans hto')
    obtain rfl := Except.ok.inj (hback.symm.trans hback')
    exact hsame
  · intro hsame
    exact ⟨descriptor, split.reopened, hto, hback, hsame⟩

end RoundTrip

/-- Data file records and partition rows that are kept in their serialized form. -/
def Sample.paimonFormat : PaimonFormat where
  DataFileMeta := List UInt8
  fields _ := ⟨"data-0.parquet", 1024, 10, 0, 0, 9, none, none, none, none, []⟩
  BinaryRow := List UInt8
  toVec bytes := .ok bytes
  fromSlice bytes := .ok bytes
  toSerializedBytes bytes := bytes
  fromSerializedBytes bytes := .ok bytes
  fromSlice_toVec bytes := ⟨bytes, rfl, rfl⟩
  fromSerializedBytes_toSerializedBytes _ := rfl

/-- A builder that wants one slot for each data file. -/
def Sample.splitBuilder : DataSplitBuilder Sample.paimonFormat where
  check split :=
    if (split.dataDeletionFiles.all fun files => files.length == split.dataFiles.length) then .ok ()
    else .error "deletion files do not match data files"
  length_eq {split files} h hfiles := by
    by_contra hne
    simp [hfiles, hne] at h
  check_deletionFiles _ _ hlength := by simp [hlength]
  check_noDeletionFiles _ := rfl
  check_noRowRanges h := h

/-- A split of one data file with ten rows. -/
def Sample.dataSplit (cardinality : Option Int64) (rowRanges : Option (List RowRange)) :
    DataSplit Sample.paimonFormat where
  snapshotId := 1
  partition := []
  bucket := 0
  bucketPath := "/warehouse/orders/bucket-0"
  totalBuckets := 1
  dataFiles := [[123, 125]]
  dataDeletionFiles := some [some ⟨"/warehouse/orders/index/dv-0", 1, 22, cardinality⟩]
  rowRanges := rowRanges

theorem Sample.describable_dataSplit {cardinality : Option Int64}
    {rowRanges : Option (List RowRange)} (hcardinality : ∀ count, cardinality = some count → 0 ≤ count)
    (hranges : rowRanges ≠ some []) : (Sample.dataSplit cardinality rowRanges).Describable := by
  refine ⟨hranges, fun index file hfile => ?_⟩
  rw [deletionFile_eq_some] at hfile
  obtain ⟨rfl, rfl⟩ :
      index = 0 ∧ file = ⟨"/warehouse/orders/index/dv-0", 1, 22, cardinality⟩ := by
    simpa [Sample.dataSplit, SparseList.entries] using hfile
  exact ⟨by decide, hcardinality⟩

theorem splitDescriptor_roundTrip_deletionFile :
    ∃ descriptor split',
      tableScanSplitFromPaimonSplit "orders" 0 (Sample.dataSplit (some 3) (some [⟨0, 9⟩])) =
        .ok descriptor ∧
      paimonSplitFromTableScanSplit Sample.splitBuilder descriptor = .ok split' ∧
      SameSplit (Sample.dataSplit (some 3) (some [⟨0, 9⟩])) split' := by
  refine (splitDescriptor_roundTrip_iff "orders" 0 rfl).mpr
    (Sample.describable_dataSplit (fun count hcount => ?_) (by simp))
  rw [← Option.some.inj hcount]
  decide

/-- A split that reads no row comes back as one that reads every row. -/
theorem not_splitDescriptor_roundTrip_noRows :
    Sample.splitBuilder.check (Sample.dataSplit none (some [])) = .ok () ∧
    ¬ ∃ descriptor split',
      tableScanSplitFromPaimonSplit "orders" 0 (Sample.dataSplit none (some [])) = .ok descriptor ∧
      paimonSplitFromTableScanSplit Sample.splitBuilder descriptor = .ok split' ∧
      SameSplit (Sample.dataSplit none (some [])) split' := by
  refine ⟨rfl, ?_⟩
  rintro ⟨descriptor, split', hto, hback, hsame⟩
  have hsplit : Sample.splitBuilder.check (Sample.dataSplit none (some [])) = .ok () := rfl
  obtain ⟨descriptor', hto', hback'⟩ := paimonSplit_of_tableScanSplit "orders" 0 hsplit
  obtain rfl := Except.ok.inj (hto.symm.trans hto')
  obtain rfl := Except.ok.inj (hback.symm.trans hback')
  exact absurd hsame.rowRanges (by simp [DataSplit.reopened, Sample.dataSplit])

end BrewDB

import BrewDB.Common.RoundRobin
import BrewDB.Storage.PaimonSplit

/-!
# Reading planned splits

Reference: `brewdb-storage/src/storage_engine.rs`, `memory/engine.rs`, `file/engine.rs`,
`paimon/engine.rs`, `paimon/table_provider.rs` and `paimon/reader.rs`.

The coordinator plans a scan into splits; a worker opens a provider for its split and scans it with
the projection, filters and fetch limit of the scan. DataFusion's listing tables and Paimon's planning
and reading are parameters. A limit is a bound for each stream of a scan, so that a limited scan may
return more rows than its limit; the limit operator stays above it.
-/

namespace BrewDB

/-- A table provider: what it returns for a scan. -/
abbrev Provider := TableScan → Except String (List Row)

/-- The rows a scan may return out of `all`: all of them, or under a limit a part that has as many as
the limit if there are as many. -/
def Answers (fetch : Option ℕ) (all rows : Multiset Row) : Prop :=
  match fetch with
  | none => rows = all
  | some limit => rows ≤ all ∧ min limit all.card ≤ rows.card

/-- The rows of a stream up to a limit. -/
def takeLimit (limit : Option ℕ) (rows : List Row) : List Row :=
  match limit with
  | none => rows
  | some limit => rows.take limit

/-- The three calls of the `TableEngine` trait that scans go through. -/
structure ScanEngine where
  planScan : TableScan → Except StorageError TableScanSplitGroup
  tableProvider : Except StorageError Provider
  getTableProvider : Option TableScanSplit → Except StorageError Provider

/-! ## Memory -/

/-- The memory engine keeps the default methods: one split, which opens the whole table. -/
def ScanEngine.memory (provider : Provider) : ScanEngine where
  planScan := TableEngine.memory.planScan
  tableProvider := .ok provider
  getTableProvider _ := .ok provider

/-! ## Files -/

/-- A path component that `Path::components` skips. -/
def skippedComponent (component : String) : Bool := component = "" || component = "."

/-- `Path::parent`. -/
def pathParent (path : String) : Option String :=
  match (path.splitOn "/").reverse.dropWhile skippedComponent with
  | [] => none
  | _ :: rest =>
      match rest.dropWhile skippedComponent with
      | [] => some (if path.startsWith "/" then "/" else if path.startsWith "./" then "." else "")
      | body => some (String.intercalate "/" body.reverse)

/-- `Path::join`. -/
def pathJoin (base path : String) : String :=
  if path.startsWith "/" then path
  else if base.isEmpty || base.endsWith "/" then base ++ path
  else base ++ "/" ++ path

/-- `normalize_split_location`. -/
def normalizeSplitLocation (pathExists : String → Bool) (rootLocation : String) (isDirectory : Bool)
    (path : String) : String :=
  if path.startsWith "/" || path.contains "://" then path
  else if pathExists ("/" ++ path) then "/" ++ path
  else
    match isDirectory, pathParent rootLocation with
    | false, some parent => pathJoin parent path
    | _, _ => pathJoin rootLocation path

/-- A path that `ListingTableUrl::parse` takes for a pattern. -/
def isGlob (path : String) : Prop := '?' ∈ path.toList ∨ '*' ∈ path.toList ∨ '[' ∈ path.toList

/-- A table of files. A listed file is named by its path in the object store, that is, without the
leading slash; a path that is no pattern lists as the file it names. -/
structure FileTable where
  location : String
  isDirectory : Bool
  /-- `file_format.get_ext()`. -/
  ext : String
  pathExists : String → Bool
  Url : Type
  parse : String → Except String Url
  /-- `list_files_for_scan`, all groups together. -/
  listFiles : List Url → Except String (List String)
  /-- The rows of one file, for the projection and filters of a scan. -/
  read : TableScan → String → List Row
  /-- What scanning the listed files returns. -/
  scanFiles : TableScan → List String → List Row
  /-- The URL of the listing table, parsed from the location. -/
  tableUrl : Url
  scanFiles_answers : ∀ scan files,
    Answers scan.fetch ↑(files.flatMap (read scan)) ↑(scanFiles scan files)
  listed_path : ∀ {files file}, listFiles [tableUrl] = .ok files → file ∈ files →
    file.startsWith "/" = false ∧ file.contains "://" = false ∧ pathExists ("/" ++ file) = true
  list_of_path : ∀ {files file}, listFiles [tableUrl] = .ok files → file ∈ files → ¬ isGlob file →
    ∃ url, parse ("/" ++ file) = .ok url ∧ listFiles [url] = .ok [file]

namespace FileTable

variable (table : FileTable)

/-- The provider of a listing table. -/
def listingTable (urls : List table.Url) : Provider := fun scan => do
  let files ← table.listFiles urls
  return table.scanFiles scan files

/-- `table_provider_for_paths`: without paths, the listing table of the location. `ListingTable::try_new`
succeeds, since options and schema are given. -/
def tableProviderForPaths (paths : List String) : Except StorageError Provider :=
  if paths.isEmpty then .ok (table.listingTable [table.tableUrl])
  else do
    let urls ← paths.mapM fun path => scanResult (table.parse path)
    return table.listingTable urls

/-- The locations `plan_scan` gives to the listed files. -/
def splitLocations : Except StorageError (List String) := do
  let files ← scanResult (table.listFiles [table.tableUrl])
  return files.map (normalizeSplitLocation table.pathExists table.location table.isDirectory)

/-- The file engine. -/
def engine : ScanEngine where
  planScan := (TableEngine.file table.splitLocations table.ext).planScan
  tableProvider := table.tableProviderForPaths []
  getTableProvider split := table.tableProviderForPaths (split.toList.flatMap (·.locations))

end FileTable

/-! ## Paimon -/

/-- What a Paimon scan is planned and read with. The filters are translated in the same way on both
sides. -/
structure ReadArgs where
  projection : Option (List String)
  filters : List Expr
  limit : Option ℕ

/-- A Paimon table. The rows of a split depend on the data files with the deletion file attached to
each, and on the row ranges; planned splits are splits that Paimon's builder accepts. -/
structure PaimonTable where
  tableLocation : String
  format : PaimonFormat
  builder : DataSplitBuilder format
  /-- The field names of the table schema. -/
  fieldNames : List String
  /-- Whether `build_table` succeeds. -/
  buildTable : Except StorageError Unit
  /-- Whether the schema has an Arrow schema. -/
  arrowSchema : Except String Unit
  plan : ReadArgs → Except String (List (DataSplit format))
  /-- The rows of one split, for a projection and filters. -/
  read : Option (List String) → List Expr → DataSplit format → List Row
  /-- `target_partitions` of the session. -/
  targetPartitions : ℕ
  check_plan : ∀ {args splits}, plan args = .ok splits →
    ∀ split ∈ splits, builder.check split = .ok ()
  read_congr : ∀ {split split'}, SameSplit split split' →
    ∀ projection filters, read projection filters split' = read projection filters split

namespace PaimonTable

variable (table : PaimonTable)

/-- `projection_names`, which also does the check of `validate_projection`. -/
def projectionNames (projection : Option (List ℕ)) : Except StorageError (Option (List String)) :=
  match projection with
  | none => .ok none
  | some indices => do
      let names ← indices.mapM fun index =>
        match table.fieldNames[index]? with
        | some name => Except.ok name
        | none => .error (StorageError.tableScanFailed
            ("invalid Paimon scan projection index " ++ toString index))
      return some names

/-- One data file of a split, with its slot for a deletion file. -/
def workUnit {P : PaimonFormat} (split : DataSplit P) (file : P.DataFileMeta × ℕ) : DataSplit P :=
  { split with
    dataFiles := [file.1]
    dataDeletionFiles := (split.dataDeletionFiles.bind fun files => files[file.2]?).map fun f => [f]
    rowRanges := none }

/-- `split_scan_work_units`: one unit for each data file, unless there is one file or a choice of row
ranges. -/
def splitScanWorkUnits {P : PaimonFormat} (split : DataSplit P) : List (DataSplit P) :=
  if split.dataFiles.length ≤ 1 ∨ split.rowRanges.isSome then [split]
  else split.dataFiles.zipIdx.map (workUnit split)

/-- `scan_partitions`: the units are dealt out to the partitions in turn. -/
def scanPartitions {P : PaimonFormat} (splits : List (DataSplit P)) (targetPartitions : ℕ) :
    List (List (DataSplit P)) :=
  let units := splits.flatMap splitScanWorkUnits
  let partitionCount := min units.length (max targetPartitions 1)
  (List.range partitionCount).map fun partition =>
    (units.zipIdx.filter fun unit => unit.2 % partitionCount = partition).map Prod.fst

/-- The stream of one partition, cut off at the limit. -/
def partitionRows (args : ReadArgs) (units : List (DataSplit table.format)) : List Row :=
  takeLimit args.limit (units.flatMap (table.read args.projection args.filters))

/-- The splits of a scan: those the provider was given, or those it plans. -/
def scannedSplits (plannedSplits : Option (List (DataSplit table.format))) (args : ReadArgs) :
    Except String (List (DataSplit table.format)) :=
  match plannedSplits with
  | some splits => .ok splits
  | none => table.plan args

/-- `PaimonTableProvider::scan`, all partitions together. -/
def provider (plannedSplits : Option (List (DataSplit table.format))) : Provider := fun scan => do
  let projection ← (table.projectionNames scan.projection).mapError StorageError.toString
  let args : ReadArgs := ⟨projection, scan.filters, scan.fetch⟩
  let splits ← table.scannedSplits plannedSplits args
  return (scanPartitions splits table.targetPartitions).flatMap (table.partitionRows args)

/-- `PaimonTableProvider::try_new` on the opened table. -/
def newProvider (plannedSplits : Option (List (DataSplit table.format))) :
    Except StorageError Provider := do
  table.buildTable
  scanResult table.arrowSchema
  return table.provider plannedSplits

/-- The location is on the local file system. -/
def isLocal : Bool := table.tableLocation.startsWith "/" || table.tableLocation.startsWith "file:"

/-- `plan_scan` as a split list. -/
def planSplits (scan : TableScan) : Except StorageError (List TableScanSplit) :=
  if !table.isLocal then .ok [TableScanSplit.new scan.tableName.toString 0]
  else do
    table.buildTable
    let projection ← table.projectionNames scan.projection
    let planned ← scanResult (table.plan ⟨projection, scan.filters, scan.fetch⟩)
    planned.zipIdx.mapM fun split =>
      tableScanSplitFromPaimonSplit scan.tableName.toString (split.2 % 2 ^ 32) split.1

/-- Every split is named after the scan. -/
theorem planSplits_named (scan : TableScan) (splits : List TableScanSplit)
    (h : table.planSplits scan = .ok splits) :
    ∀ split ∈ splits, split.tableName = scan.tableName.toString := by
  rw [planSplits] at h
  split at h
  · obtain rfl := Except.ok.inj h
    simp
  · simp only [ExceptRun.bind_eq_ok, ExceptRun.mapM_eq_ok] at h
    obtain ⟨_, -, _, -, _, -, hsplits⟩ := h
    intro split hsplit
    obtain ⟨⟨i, hi⟩, rfl⟩ := List.mem_iff_get.mp hsplit
    have hplanned := (List.forall₂_iff_get.mp hsplits).2 i (hsplits.length_eq ▸ hi) hi
    obtain ⟨dataFiles, -, heq⟩ := ExceptRun.bind_eq_ok.mp hplanned
    rw [← ExceptRun.pure_eq_ok.mp heq]
    rfl

/-- The Paimon engine, as the fragment planner sees it. -/
def tableEngine : TableEngine := .ofSplits table.planSplits table.planSplits_named

/-- The Paimon engine. -/
def engine : ScanEngine where
  planScan := table.tableEngine.planScan
  tableProvider := table.newProvider none
  getTableProvider split :=
    match split with
    | none => table.newProvider none
    | some split => do
        let planned ← paimonSplitFromTableScanSplit table.builder split
        table.newProvider (some [planned])

end PaimonTable

/-! ## Answers -/

namespace Answers

theorem zero (fetch : Option ℕ) : Answers fetch 0 0 := by
  cases fetch with
  | none => rfl
  | some limit => exact ⟨le_rfl, by simp⟩

/-- Answers over two parts make an answer over both. -/
theorem add {fetch : Option ℕ} {all rows all' rows' : Multiset Row} (h : Answers fetch all rows)
    (h' : Answers fetch all' rows') : Answers fetch (all + all') (rows + rows') := by
  cases fetch with
  | none => exact congrArg₂ (· + ·) h h'
  | some limit =>
      refine ⟨add_le_add h.1 h'.1, ?_⟩
      have hcard := h.2
      have hcard' := h'.2
      rw [Multiset.card_add, Multiset.card_add]
      omega

/-- A stream cut off at the limit. -/
theorem take (fetch : Option ℕ) (rows : List Row) :
    Answers fetch ↑rows ↑(takeLimit fetch rows) := by
  cases fetch with
  | none => rfl
  | some limit =>
      exact ⟨(List.take_sublist limit rows).subperm, by simp [takeLimit]⟩

/-- Answers over the parts of a list make an answer over the list. -/
theorem flatMap {α : Type} {fetch : Option ℕ} {parts : List α} {all rows : α → List Row}
    (h : ∀ part ∈ parts, Answers fetch ↑(all part) ↑(rows part)) :
    Answers fetch ↑(parts.flatMap all) ↑(parts.flatMap rows) := by
  induction parts with
  | nil => exact zero fetch
  | cons part parts ih =>
      rw [List.forall_mem_cons] at h
      rw [List.flatMap_cons, List.flatMap_cons, ← Multiset.coe_add, ← Multiset.coe_add]
      exact h.1.add (ih h.2)

end Answers

/-- What the splits of a scan are to return, opened one by one: together an answer over the same rows
as the answer of the whole table. -/
def SplitsAnswer (engine : ScanEngine) (scan : TableScan) (splits : List TableScanSplit)
    (rows : List Row) : Prop :=
  ∃ outputs : List (List Row), List.Forall₂ (fun split output => ∃ provider,
      engine.getTableProvider (some split) = .ok provider ∧ provider scan = .ok output) splits outputs ∧
    ∃ all : Multiset Row, Answers scan.fetch all ↑rows ∧ Answers scan.fetch all ↑outputs.flatten

/-- Splits that all open, each with an answer over its part of the rows. -/
theorem SplitsAnswer.of_parts {engine : ScanEngine} {scan : TableScan} {α : Type} (parts : List α)
    {splits : List TableScanSplit} {rows : List Row} (all : α → List Row)
    (hrows : Answers scan.fetch ↑(parts.flatMap all) ↑rows)
    (hsplits : List.Forall₂ (fun part split => ∃ provider output,
      engine.getTableProvider (some split) = .ok provider ∧ provider scan = .ok output ∧
        Answers scan.fetch ↑(all part) ↑output) parts splits) :
    SplitsAnswer engine scan splits rows := by
  suffices h : ∃ outputs : List (List Row), List.Forall₂ (fun split output => ∃ provider,
      engine.getTableProvider (some split) = .ok provider ∧ provider scan = .ok output) splits outputs ∧
      Answers scan.fetch ↑(parts.flatMap all) ↑outputs.flatten by
    obtain ⟨outputs, hopened, houtputs⟩ := h
    exact ⟨outputs, hopened, _, hrows, houtputs⟩
  clear hrows
  induction hsplits with
  | nil => exact ⟨[], .nil, Answers.zero scan.fetch⟩
  | cons hsplit _ ih =>
      obtain ⟨provider, output, hprovider, houtput, hanswer⟩ := hsplit
      obtain ⟨outputs, hopened, houtputs⟩ := ih
      refine ⟨output :: outputs, .cons ⟨provider, hprovider, houtput⟩ hopened, ?_⟩
      rw [List.flatMap_cons, List.flatten_cons, ← Multiset.coe_add, ← Multiset.coe_add]
      exact hanswer.add houtputs

/-! ## Memory and files -/

namespace FileTable

variable {table : FileTable}

/-- The split of a listed file is located at the file. -/
theorem normalizeSplitLocation_listed {files : List String} {file : String}
    (hfiles : table.listFiles [table.tableUrl] = .ok files) (hfile : file ∈ files) :
    normalizeSplitLocation table.pathExists table.location table.isDirectory file = "/" ++ file := by
  obtain ⟨habsolute, hscheme, hexists⟩ := table.listed_path hfiles hfile
  simp only [normalizeSplitLocation, habsolute, hscheme, hexists, Bool.or_self, Bool.false_eq_true,
    if_false, if_true]

/-- One split for each listed file, in order. -/
theorem planned_of_planScan {scan : TableScan} {splits : List TableScanSplit}
    (hplan : table.engine.planScan scan = .ok (.new splits)) :
    ∃ files, table.listFiles [table.tableUrl] = .ok files ∧
      List.Forall₂ (fun file split => split.locations = ["/" ++ file]) files splits := by
  cases hfiles : table.listFiles [table.tableUrl] with
  | error e =>
      have hlocations : table.splitLocations = .error (storageScanError e) := by
        rw [splitLocations, hfiles]
        rfl
      rw [engine, hlocations] at hplan
      cases hplan
  | ok files =>
      have hlocations : table.splitLocations = .ok (files.map ("/" ++ ·)) := by
        rw [splitLocations, hfiles]
        refine congrArg Except.ok (List.map_congr_left fun file hfile => ?_)
        exact normalizeSplitLocation_listed hfiles hfile
      rw [engine, hlocations] at hplan
      have hsplits := TableEngine.new_injective (Except.ok.inj hplan)
      refine ⟨files, rfl, ?_⟩
      rw [← hsplits]
      refine List.forall₂_iff_get.mpr ⟨by simp, fun i hi hi' => ?_⟩
      simp [TableScanSplit.withLocations, TableScanSplit.withProperty]

theorem splitsAnswer {scan : TableScan} {splits : List TableScanSplit} {provider : Provider}
    {rows : List Row} (hplan : table.engine.planScan scan = .ok (.new splits))
    (hprovider : table.engine.tableProvider = .ok provider) (hrows : provider scan = .ok rows)
    (hglob : ∀ files, table.listFiles [table.tableUrl] = .ok files → ∀ file ∈ files, ¬ isGlob file) :
    SplitsAnswer table.engine scan splits rows := by
  obtain ⟨files, hfiles, hlocations⟩ := planned_of_planScan hplan
  obtain rfl := Except.ok.inj hprovider
  have hscanned : rows = table.scanFiles scan files := by
    rw [listingTable, hfiles] at hrows
    exact (Except.ok.inj hrows).symm
  refine SplitsAnswer.of_parts files (table.read scan)
    (hscanned ▸ table.scanFiles_answers scan files) ?_
  -- the provider of a split lists the one file the split is located at
  have hopen : ∀ file ∈ files, ∀ split : TableScanSplit, split.locations = ["/" ++ file] →
      ∃ provider output, table.engine.getTableProvider (some split) = .ok provider ∧
        provider scan = .ok output ∧ Answers scan.fetch ↑(table.read scan file) ↑output := by
    intro file hfile split hlocation
    obtain ⟨url, hurl, hlist⟩ := table.list_of_path hfiles hfile (hglob files hfiles file hfile)
    have hprovider : table.engine.getTableProvider (some split) = .ok (table.listingTable [url]) := by
      show table.tableProviderForPaths ([split].flatMap (·.locations)) = _
      have hparsed : scanResult (table.parse ("/" ++ file)) = .ok url := scanResult_eq_ok.mpr hurl
      simp [tableProviderForPaths, hlocation, hparsed, pure, Except.pure, bind, Except.bind]
    refine ⟨_, table.scanFiles scan [file], hprovider, ?_, ?_⟩
    · rw [listingTable, hlist]
      rfl
    · simpa using table.scanFiles_answers scan [file]
  refine List.forall₂_iff_get.mpr ⟨hlocations.length_eq, fun i hi hi' => ?_⟩
  exact hopen _ (List.get_mem _ _) _ ((List.forall₂_iff_get.mp hlocations).2 i hi hi')

end FileTable

/-! ## Paimon tables -/

namespace PaimonTable

variable {table : PaimonTable}

/-- The rows of a list of splits without a limit. -/
def splitRows (table : PaimonTable) (args : ReadArgs) (split : DataSplit table.format) : List Row :=
  (splitScanWorkUnits split).flatMap (table.read args.projection args.filters)

/-- Dealing out the work units loses none. -/
theorem flatten_scanPartitions_perm {P : PaimonFormat} (splits : List (DataSplit P))
    (targetPartitions : ℕ) :
    (scanPartitions splits targetPartitions).flatten.Perm (splits.flatMap splitScanWorkUnits) := by
  refine RoundRobin.flatten_deal_perm _ fun hunits => ?_
  have hlength := List.length_pos_iff.mpr hunits
  omega

/-- A scan of splits answers over the rows of the splits. -/
theorem answers_partitionRows (args : ReadArgs) (splits : List (DataSplit table.format)) :
    Answers args.limit ↑(splits.flatMap (table.splitRows args))
      ↑((scanPartitions splits table.targetPartitions).flatMap (table.partitionRows args)) := by
  have hparts : Answers args.limit
      ↑((scanPartitions splits table.targetPartitions).flatMap fun units =>
        units.flatMap (table.read args.projection args.filters))
      ↑((scanPartitions splits table.targetPartitions).flatMap (table.partitionRows args)) :=
    Answers.flatMap fun units _ => Answers.take args.limit _
  have hall : ((scanPartitions splits table.targetPartitions).flatMap fun units =>
      units.flatMap (table.read args.projection args.filters)).Perm
      (splits.flatMap (table.splitRows args)) := by
    have hperm := (flatten_scanPartitions_perm splits table.targetPartitions).flatMap_right
      (table.read args.projection args.filters)
    rwa [← List.flatMap_id', List.flatMap_assoc, List.flatMap_assoc] at hperm
  rwa [Multiset.coe_eq_coe.mpr hall] at hparts

/-- The slot of a work unit is that of its file. -/
theorem deletionFile_workUnit {P : PaimonFormat} (split : DataSplit P) (file : P.DataFileMeta × ℕ) :
    (workUnit split file).deletionFile 0 = split.deletionFile file.2 := by
  rw [DataSplit.deletionFile, DataSplit.deletionFile, workUnit]
  cases split.dataDeletionFiles.bind fun files => files[file.2]? <;> rfl

theorem sameSplit_workUnit {P : PaimonFormat} {split split' : DataSplit P}
    (h : SameSplit split split') {file : P.DataFileMeta × ℕ} (hfile : file.2 < split.dataFiles.length) :
    SameSplit (workUnit split file) (workUnit split' file) where
  snapshotId := h.snapshotId
  partition := h.partition
  bucket := h.bucket
  bucketPath := h.bucketPath
  totalBuckets := h.totalBuckets
  dataFiles := rfl
  deletionFile index hindex := by
    obtain rfl : index = 0 := Nat.lt_one_iff.mp hindex
    rw [deletionFile_workUnit, deletionFile_workUnit]
    exact h.deletionFile file.2 hfile
  rowRanges := rfl

/-- The rows of a split that came back from its descriptor. -/
theorem splitRows_congr {split split' : DataSplit table.format} (h : SameSplit split split')
    (args : ReadArgs) : table.splitRows args split' = table.splitRows args split := by
  rw [splitRows, splitRows, splitScanWorkUnits, splitScanWorkUnits, h.dataFiles, h.rowRanges]
  split
  · simp only [List.flatMap_singleton]
    exact table.read_congr h _ _
  · rw [List.flatMap_map, List.flatMap_map]
    refine List.flatMap_congr fun file hfile => ?_
    exact table.read_congr (sameSplit_workUnit h (List.snd_lt_of_mem_zipIdx hfile)) _ _

/-- The splits of a local table are those Paimon plans. -/
theorem planned_of_planSplits {scan : TableScan} {splits : List TableScanSplit}
    (hlocal : table.isLocal = true) (hplan : table.planSplits scan = .ok splits) :
    ∃ projection planned, table.projectionNames scan.projection = .ok projection ∧
      table.plan ⟨projection, scan.filters, scan.fetch⟩ = .ok planned ∧
      List.Forall₂ (fun split descriptor => ∃ ordinal,
        tableScanSplitFromPaimonSplit scan.tableName.toString ordinal split = .ok descriptor)
        planned splits := by
  rw [planSplits, hlocal] at hplan
  simp only [Bool.not_true, Bool.false_eq_true, if_false, ExceptRun.bind_eq_ok, scanResult_eq_ok,
    ExceptRun.mapM_eq_ok] at hplan
  obtain ⟨-, -, projection, hprojection, planned, hplanned, hsplits⟩ := hplan
  refine ⟨projection, planned, hprojection, hplanned, ?_⟩
  rw [← List.zipIdx_map_fst 0 planned, List.forall₂_map_left_iff]
  exact hsplits.imp fun split descriptor h => ⟨_, h⟩

/-- A scan answers over the rows of its splits. -/
theorem provider_eq_ok {scan : TableScan} {projection : Option (List String)}
    (hprojection : table.projectionNames scan.projection = .ok projection)
    {plannedSplits : Option (List (DataSplit table.format))} {splits : List (DataSplit table.format)}
    (hsplits : table.scannedSplits plannedSplits ⟨projection, scan.filters, scan.fetch⟩ =
      .ok splits) :
    ∃ rows, table.provider plannedSplits scan = .ok rows ∧ Answers scan.fetch
      ↑(splits.flatMap (table.splitRows ⟨projection, scan.filters, scan.fetch⟩)) ↑rows := by
  refine ⟨_, ExceptRun.bind_eq_ok.mpr ⟨projection, ?_, ExceptRun.bind_eq_ok.mpr ⟨splits, hsplits, rfl⟩⟩,
    answers_partitionRows ⟨projection, scan.filters, scan.fetch⟩ splits⟩
  rw [hprojection]
  rfl

theorem splitsAnswer {scan : TableScan} {splits : List TableScanSplit} {provider : Provider}
    {rows : List Row} (hlocal : table.isLocal = true)
    (hplan : table.engine.planScan scan = .ok (.new splits))
    (hprovider : table.engine.tableProvider = .ok provider) (hrows : provider scan = .ok rows)
    (hdescribable : ∀ args planned, table.plan args = .ok planned →
      ∀ split ∈ planned, split.Describable) :
    SplitsAnswer table.engine scan splits rows := by
  have hplan : table.planSplits scan = .ok splits := by
    obtain ⟨splits', hsplits', heq⟩ := ExceptRun.map_eq_ok.mp hplan
    rw [hsplits', TableEngine.new_injective heq]
  obtain ⟨projection, planned, hprojection, hplanned, hsplits⟩ := planned_of_planSplits hlocal hplan
  -- opening the table succeeded, so it does for every split
  have hopen : ∀ plannedSplits, table.newProvider plannedSplits =
      .ok (table.provider plannedSplits) := by
    intro plannedSplits
    obtain ⟨_, hbuild, hschema⟩ := ExceptRun.bind_eq_ok.mp hprovider
    obtain ⟨_, hschema, -⟩ := ExceptRun.bind_eq_ok.mp hschema
    rw [newProvider, hbuild, hschema]
    rfl
  obtain rfl : table.provider none = provider := Except.ok.inj ((hopen none).symm.trans hprovider)
  have htable : Answers scan.fetch
      ↑(planned.flatMap (table.splitRows ⟨projection, scan.filters, scan.fetch⟩)) ↑rows := by
    have hscanned : table.scannedSplits none ⟨projection, scan.filters, scan.fetch⟩ = .ok planned :=
      hplanned
    obtain ⟨rows', hrows', hanswers⟩ := provider_eq_ok hprojection hscanned
    rwa [Except.ok.inj (hrows.symm.trans hrows')]
  refine SplitsAnswer.of_parts planned _ htable ?_
  refine List.forall₂_iff_get.mpr ⟨hsplits.length_eq, fun i hi hi' => ?_⟩
  obtain ⟨ordinal, hdescriptor⟩ := (List.forall₂_iff_get.mp hsplits).2 i hi hi'
  have hchecked := table.check_plan hplanned _ (List.get_mem planned ⟨i, hi⟩)
  obtain ⟨descriptor, hto, hback⟩ :=
    paimonSplit_of_tableScanSplit scan.tableName.toString ordinal hchecked
  obtain rfl := Except.ok.inj (hto.symm.trans hdescriptor)
  have hsame := (sameSplit_reopened_iff hchecked).mpr
    (hdescribable _ planned hplanned _ (List.get_mem planned ⟨i, hi⟩))
  have hscanned : table.scannedSplits (some [DataSplit.reopened (planned.get ⟨i, hi⟩)])
      ⟨projection, scan.filters, scan.fetch⟩ = .ok [DataSplit.reopened (planned.get ⟨i, hi⟩)] := rfl
  obtain ⟨output, houtput, hanswers⟩ := provider_eq_ok hprojection hscanned
  refine ⟨_, output, ExceptRun.bind_eq_ok.mpr ⟨_, hback, hopen _⟩, houtput, ?_⟩
  rwa [List.flatMap_singleton, splitRows_congr hsame] at hanswers

end PaimonTable

/-! ## All engines -/

/-- A table of one of the engines. -/
inductive StoredTable where
  | memory (provider : Provider)
  | file (table : FileTable)
  | paimon (table : PaimonTable)

namespace StoredTable

/-- The engine of a table. -/
def engine : StoredTable → ScanEngine
  | memory provider => .memory provider
  | file table => table.engine
  | paimon table => table.engine

/-- The tables whose splits descriptors can describe: no file name is a pattern; a Paimon table is on
the local file system, and its planned splits come back from their descriptors. -/
def Describable : StoredTable → Prop
  | memory _ => True
  | file table => ∀ files, table.listFiles [table.tableUrl] = .ok files → ∀ file ∈ files, ¬ isGlob file
  | paimon table => table.isLocal = true ∧
      ∀ args planned, table.plan args = .ok planned → ∀ split ∈ planned, split.Describable

/-- A Paimon table that is not on the local file system. -/
def Remote : StoredTable → Prop
  | paimon table => table.isLocal = false
  | _ => False

end StoredTable

/-- A Paimon table of two splits with a row each, read in one partition. -/
def Sample.paimonTable (tableLocation : String) : PaimonTable where
  tableLocation := tableLocation
  format := Sample.paimonFormat
  builder := Sample.splitBuilder
  fieldNames := ["id"]
  buildTable := .ok ()
  arrowSchema := .ok ()
  plan _ := .ok [Sample.dataSplit none none, Sample.dataSplit none none]
  read _ _ _ := [[.integer 1]]
  targetPartitions := 1
  check_plan h split hsplit := by
    obtain rfl := Except.ok.inj h
    obtain rfl : split = Sample.dataSplit none none := by simpa using hsplit
    rfl
  read_congr _ _ _ := rfl

/-- A full scan of `orders`. -/
def Sample.ordersScan : TableScan :=
  TableScan.ofTable ⟨1, ⟨"brewdb", "default", "orders"⟩⟩ [⟨"id", .int64, false⟩]

end BrewDB

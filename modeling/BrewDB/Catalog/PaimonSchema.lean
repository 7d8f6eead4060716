import BrewDB.Common.BTreeMap
import BrewDB.Common.ExceptState
import BrewDB.Common.TextList
import BrewDB.Catalog.Path

/-!
# Table schemas and their Paimon form

Reference: `brewdb-common/src/table.rs`, `column.rs` and `datatype.rs`,
`brewdb-catalog/src/requests.rs` and `paimon_schema.rs`.

What the Paimon library does with types and schemas is the parameter `PaimonFormat`.
-/

namespace BrewDB.Catalog

/-! ## BrewDB's side -/

/-- `DataType`. -/
inductive DataType where
  | boolean
  | int8
  | int16
  | int32
  | int64
  | float32
  | double
  | binary
  | date
  | time (precision : ℕ)
  | timestamp (precision : ℕ) (withTimeZone : Bool)
  | decimal (precision scale : ℕ)
  | string
deriving DecidableEq, Repr

/-- `ColumnField`. -/
structure ColumnField where
  name : String
  dataType : DataType
  nullable : Bool
deriving DecidableEq, Repr

/-- `TableSchema`. -/
structure TableSchema where
  fields : List ColumnField
  primaryKeys : List String
  partitionKeys : List String
  bucketKeys : List String
  bucketCount : Option ℕ
  bucketFunction : Option String
  clusterKeys : List String
deriving DecidableEq, Repr

/-- Options by key. -/
abbrev Options := BTreeMap String String

/-- `CreateTableRequest`. -/
structure CreateTableRequest where
  databaseName : String
  tableName : String
  tableSchema : TableSchema
  tableLocation : Option String
  tableOptions : Options

/-- `AlterTableOperation`. -/
inductive AlterTableOperation where
  | addColumn (column : ColumnField)
  | dropColumn (columnName : String)
  | renameColumn (oldName newName : String)
  | alterColumnType (columnName : String) (dataType : DataType)
  | setTableOption (key value : String)
  | removeTableOption (key : String)
deriving DecidableEq, Repr

/-- `AlterTableRequest`. -/
structure AlterTableRequest where
  databaseName : String
  tableName : String
  operations : List AlterTableOperation
deriving DecidableEq, Repr

/-- `RenameTableRequest`. -/
structure RenameTableRequest where
  databaseName : String
  tableName : String
  newDatabaseName : String
  newTableName : String
deriving DecidableEq, Repr

/-! ## Paimon's side -/

/-- Paimon types without their nullability. `other` stands for arrays, maps, rows and so on. -/
inductive PaimonType where
  | boolean
  | tinyInt
  | smallInt
  | int
  | bigInt
  | float
  | double
  | binary (length : ℕ)
  | varBinary (length : ℕ)
  | blob
  | date
  | time (precision : ℕ)
  | timestamp (precision : ℕ)
  | localZonedTimestamp (precision : ℕ)
  | decimal (precision scale : ℕ)
  | varChar (length : ℕ)
  | char (length : ℕ)
  | other (text : String)
deriving DecidableEq, Repr

/-- A Paimon type. -/
structure PaimonDataType where
  kind : PaimonType
  nullable : Bool
deriving DecidableEq, Repr

/-- A column of a table, with the id that data files refer to. -/
structure PaimonField where
  id : ℕ
  name : String
  dataType : PaimonDataType
deriving DecidableEq, Repr

/-- What a schema builder is given. -/
structure SchemaDraft where
  columns : List (String × PaimonDataType)
  primaryKeys : List String
  partitionKeys : List String
  options : Options

/-- `paimon::spec::Schema`. -/
structure PaimonSchema where
  fields : List PaimonField
  partitionKeys : List String
  primaryKeys : List String
  options : Options

/-- `paimon::spec::TableSchema`. -/
structure PaimonTableSchema where
  id : ℕ
  schema : PaimonSchema

/-- `paimon::spec::SchemaChange`. -/
inductive SchemaChange where
  | addColumn (name : String) (dataType : PaimonDataType)
  | dropColumn (name : String)
  | renameColumn (name newName : String)
  | updateColumnType (name : String) (dataType : PaimonDataType)
  | setOption (key value : String)
  | removeOption (key : String)
deriving DecidableEq, Repr

/-- The schema of a draft: columns are numbered in order, and key columns are not nullable. -/
def SchemaDraft.normalized (draft : SchemaDraft) : PaimonSchema where
  fields := draft.columns.mapIdx fun i column =>
    ⟨i, column.1, { column.2 with nullable := column.2.nullable && !draft.primaryKeys.contains column.1 }⟩
  partitionKeys := draft.partitionKeys
  primaryKeys := draft.primaryKeys
  options := draft.options

/-- The Paimon library's own checks and derivations. -/
structure PaimonFormat where
  /-- Whether a type's constructor accepts its parameters. -/
  accepts : PaimonType → Bool
  /-- `VarBinaryType::MAX_LENGTH`. -/
  maxVarBinary : ℕ
  /-- `SchemaBuilder::build`. -/
  build : SchemaDraft → Except String PaimonSchema
  /-- Keys may also be given as options; otherwise the draft is what is built. -/
  build_eq : ∀ draft schema, build draft = .ok schema → draft.options.get? "primary-key" = none →
    draft.options.get? "partition" = none → schema = draft.normalized
  /-- `TableSchema::bucket_keys`. -/
  bucketKeys : PaimonTableSchema → List String

/-! ## The adapter -/

variable (format : PaimonFormat)

/-- `map_paimon_backend_error`. -/
def mapPaimonBackendError (message : String) : CatalogError := .catalogBackend "paimon" message

/-- `brewdb_field_to_format_type` without the check of parameters. -/
def DataType.toPaimon : DataType → PaimonType
  | .boolean => .boolean
  | .int8 => .tinyInt
  | .int16 => .smallInt
  | .int32 => .int
  | .int64 => .bigInt
  | .float32 => .float
  | .double => .double
  | .binary => .varBinary format.maxVarBinary
  | .date => .date
  | .time precision => .time precision
  | .timestamp precision true => .localZonedTimestamp precision
  | .timestamp precision false => .timestamp precision
  | .decimal precision scale => .decimal precision scale
  | .string => .varChar (2 ^ 32 - 1)

/-- `brewdb_field_to_format_type`. -/
def brewdbFieldToFormatType (column : ColumnField) : Except CatalogError PaimonDataType :=
  let kind := column.dataType.toPaimon format
  if format.accepts kind then .ok ⟨kind, column.nullable⟩
  else .error (mapPaimonBackendError "invalid type")

/-- `format_data_type_to_brewdb`. -/
def formatDataTypeToBrewdb (dataType : PaimonDataType) : Except CatalogError DataType :=
  match dataType.kind with
  | .boolean => .ok .boolean
  | .tinyInt => .ok .int8
  | .smallInt => .ok .int16
  | .int => .ok .int32
  | .bigInt => .ok .int64
  | .float => .ok .float32
  | .double => .ok .double
  | .binary _ => .ok .binary
  | .varBinary _ => .ok .binary
  | .blob => .ok .binary
  | .date => .ok .date
  | .time precision => .ok (.time precision)
  | .timestamp precision => .ok (.timestamp precision false)
  | .localZonedTimestamp precision => .ok (.timestamp precision true)
  | .decimal precision scale => .ok (.decimal precision scale)
  | .varChar _ => .ok .string
  | .char _ => .ok .string
  | .other text => .error (.unsupportedSchemaType "paimon" text)

/-- The bucket function among the options. -/
def setBucketFunction (options : Options) : Option String → Except CatalogError Options
  | none => .ok options
  | some function =>
      let lower := function.toLower
      if lower = "default" ∨ lower = "hash" then .ok (options.remove "bucket-function.type")
      else if lower = "mod" then .ok (options.insert "bucket-function.type" "mod")
      else if lower = "hive" then .ok (options.insert "bucket-function.type" "hive")
      else .error (mapPaimonBackendError ("unsupported bucket function `" ++ lower ++
        "`; supported functions are default, hash, mod, hive"))

/-- The cluster keys among the options. -/
def setClusterKeys (options : Options) (schema : TableSchema) : Except CatalogError Options :=
  if schema.clusterKeys = [] then .ok options
  else if schema.primaryKeys ≠ [] then
    .error (mapPaimonBackendError "CLUSTER BY is only supported for append-only Paimon tables")
  else .ok (((options.insert "clustering.incremental" "true").insert "clustering.columns"
    (Text.joinComma schema.clusterKeys)).insert "clustering.strategy" "order")

/-- `paimon_create_table_options`. -/
def paimonCreateTableOptions (request : CreateTableRequest) : Except CatalogError Options := do
  let schema := request.tableSchema
  if schema.bucketKeys = [] ∧ schema.bucketFunction.isSome then
    .error (mapPaimonBackendError "bucket function requires at least one bucket key")
  else
    let options := if schema.bucketKeys = [] then request.tableOptions
      else request.tableOptions.insert "bucket-key" (Text.joinComma schema.bucketKeys)
    let options ← setBucketFunction options schema.bucketFunction
    let options := match schema.bucketCount with
      | some count => options.insert "bucket" (toString count)
      | none => options
    setClusterKeys options schema

/-- `PaimonSchemaAdapter::build_schema`: what the builder is given. -/
def schemaDraft (request : CreateTableRequest) : Except CatalogError SchemaDraft := do
  let columns ← request.tableSchema.fields.mapM fun column => do
    return (column.name, ← brewdbFieldToFormatType format column)
  let options ← paimonCreateTableOptions request
  return ⟨columns, request.tableSchema.primaryKeys, request.tableSchema.partitionKeys,
    match request.tableLocation with
    | some location => options.insert "path" location
    | none => options⟩

/-- `PaimonSchemaAdapter::build_schema`. -/
def buildSchema (request : CreateTableRequest) : Except CatalogError PaimonSchema := do
  let draft ← schemaDraft format request
  match format.build draft with
  | .ok schema => return schema
  | .error message => .error (mapPaimonBackendError message)

/-- `alter_operation_to_change`. A column with a new type is nullable. -/
def alterOperationToChange : AlterTableOperation → Except CatalogError SchemaChange
  | .addColumn column => do return .addColumn column.name (← brewdbFieldToFormatType format column)
  | .dropColumn columnName => .ok (.dropColumn columnName)
  | .renameColumn oldName newName => .ok (.renameColumn oldName newName)
  | .alterColumnType columnName dataType => do
      return .updateColumnType columnName (← brewdbFieldToFormatType format ⟨columnName, dataType, true⟩)
  | .setTableOption key value => .ok (.setOption key value)
  | .removeTableOption key => .ok (.removeOption key)

/-- `paimon_cluster_keys`. -/
def paimonClusterKeys (schema : PaimonTableSchema) : List String :=
  match schema.schema.options.get? "clustering.columns" with
  | some value => Text.splitComma value
  | none => []

/-- One column of `table_schema_to_brewdb`. -/
def fieldToBrewdb (field : PaimonField) : Except CatalogError ColumnField := do
  return ⟨field.name, ← formatDataTypeToBrewdb field.dataType, field.dataType.nullable⟩

/-- `table_schema_to_brewdb`. -/
def tableSchemaToBrewdb (schema : PaimonTableSchema) : Except CatalogError TableSchema := do
  let columns ← schema.schema.fields.mapM fieldToBrewdb
  return {
    fields := columns
    primaryKeys := schema.schema.primaryKeys
    partitionKeys := schema.schema.partitionKeys
    bucketKeys := format.bucketKeys schema
    bucketCount := (schema.schema.options.get? "bucket").bind Text.parseU32
    bucketFunction := schema.schema.options.get? "bucket-function.type"
    clusterKeys := paimonClusterKeys schema }

/-! ## Types through Paimon and back -/

@[simp]
theorem formatDataTypeToBrewdb_toPaimon (dataType : DataType) (nullable : Bool) :
    formatDataTypeToBrewdb ⟨dataType.toPaimon format, nullable⟩ = .ok dataType := by
  cases dataType with
  | timestamp precision withTimeZone => cases withTimeZone <;> rfl
  | _ => rfl

/-! ## Schemas through Paimon and back -/

/-- The options that `paimon_create_table_options` and `build_schema` write. -/
def derivedOptionKeys : List String :=
  ["bucket-key", "bucket-function.type", "bucket", "clustering.incremental", "clustering.columns",
    "clustering.strategy", "path"]

variable {format}

theorem get?_setBucketFunction {options options' : Options} {function : Option String} {key : String}
    (h : setBucketFunction options function = .ok options') (hkey : key ≠ "bucket-function.type") :
    options'.get? key = options.get? key := by
  cases function with
  | none =>
      cases h
      rfl
  | some function =>
      simp only [setBucketFunction] at h
      split_ifs at h
      · cases h
        rw [BTreeMap.get?_remove, if_neg hkey]
      · cases h
        rw [BTreeMap.get?_insert, if_neg hkey]
      · cases h
        rw [BTreeMap.get?_insert, if_neg hkey]

theorem get?_setClusterKeys {options options' : Options} {schema : TableSchema} {key : String}
    (h : setClusterKeys options schema = .ok options') (hkey : key ∉ derivedOptionKeys) :
    options'.get? key = options.get? key := by
  simp only [derivedOptionKeys, List.mem_cons, not_or] at hkey
  obtain ⟨-, -, -, hincremental, hcolumns, hstrategy, -⟩ := hkey
  rw [setClusterKeys] at h
  split_ifs at h
  · cases h
    rfl
  · cases h
    rw [BTreeMap.get?_insert, if_neg hstrategy, BTreeMap.get?_insert, if_neg hcolumns, BTreeMap.get?_insert,
      if_neg hincremental]

/-- Options that are not derived are those of the request. -/
theorem get?_paimonCreateTableOptions {request : CreateTableRequest} {options : Options} {key : String}
    (h : paimonCreateTableOptions request = .ok options) (hkey : key ∉ derivedOptionKeys) :
    options.get? key = request.tableOptions.get? key := by
  have hne := hkey
  simp only [derivedOptionKeys, List.mem_cons, not_or] at hne
  obtain ⟨hbucketKey, hfunction, hbucket, -⟩ := hne
  simp only [paimonCreateTableOptions] at h
  split_ifs at h with hnone hempty
  · obtain ⟨withFunction, hwithFunction, h⟩ := ExceptRun.bind_eq_ok.mp h
    rw [get?_setClusterKeys h hkey]
    split
    · rw [BTreeMap.get?_insert, if_neg hbucket]
      exact get?_setBucketFunction hwithFunction hfunction
    · exact get?_setBucketFunction hwithFunction hfunction
  · obtain ⟨withFunction, hwithFunction, h⟩ := ExceptRun.bind_eq_ok.mp h
    have hkept : withFunction.get? key = request.tableOptions.get? key := by
      rw [get?_setBucketFunction hwithFunction hfunction, BTreeMap.get?_insert, if_neg hbucketKey]
    rw [get?_setClusterKeys h hkey]
    split
    · rw [BTreeMap.get?_insert, if_neg hbucket]
      exact hkept
    · exact hkept

theorem brewdbFieldToFormatType_eq_ok {column : ColumnField} {dataType : PaimonDataType}
    (h : brewdbFieldToFormatType format column = .ok dataType) :
    dataType = ⟨column.dataType.toPaimon format, column.nullable⟩ := by
  simp only [brewdbFieldToFormatType] at h
  split_ifs at h
  cases h
  rfl

/-- The draft has the columns and keys of the request. -/
theorem schemaDraft_eq_ok {request : CreateTableRequest} {draft : SchemaDraft}
    (h : schemaDraft format request = .ok draft) :
    draft.columns = request.tableSchema.fields.map
        (fun column => (column.name, ⟨column.dataType.toPaimon format, column.nullable⟩)) ∧
      draft.primaryKeys = request.tableSchema.primaryKeys ∧
      draft.partitionKeys = request.tableSchema.partitionKeys ∧
      ∀ key, key ∉ derivedOptionKeys → draft.options.get? key = request.tableOptions.get? key := by
  simp only [schemaDraft, ExceptRun.bind_eq_ok, ExceptRun.pure_eq_ok, ExceptRun.mapM_eq_ok] at h
  obtain ⟨columns, hcolumns, options, hoptions, rfl⟩ := h
  refine ⟨?_, rfl, rfl, fun key hkey => ?_⟩
  · rw [← List.forall₂_eq_eq_eq, List.forall₂_map_right_iff]
    refine (List.Forall₂.flip hcolumns).imp fun column field hfield => ?_
    obtain ⟨dataType, hdataType, rfl⟩ := hfield
    rw [brewdbFieldToFormatType_eq_ok hdataType]
  · have hpath : key ≠ "path" := fun heq => hkey (by simp [derivedOptionKeys, heq])
    rw [← get?_paimonCreateTableOptions hoptions hkey]
    cases request.tableLocation with
    | none => rfl
    | some location => exact (BTreeMap.get?_insert ..).trans (if_neg hpath)

/-- A column of a table that was created, as the catalog reads it. -/
def ColumnField.created (primaryKeys : List String) (column : ColumnField) : ColumnField :=
  { column with nullable := column.nullable && !primaryKeys.contains column.name }

theorem tableSchemaToBrewdb_eq_ok {schema : PaimonTableSchema} {result : TableSchema} :
    tableSchemaToBrewdb format schema = .ok result ↔
      ∃ columns, schema.schema.fields.mapM fieldToBrewdb = .ok columns ∧
        result = ⟨columns, schema.schema.primaryKeys, schema.schema.partitionKeys, format.bucketKeys schema,
          (schema.schema.options.get? "bucket").bind Text.parseU32,
          schema.schema.options.get? "bucket-function.type", paimonClusterKeys schema⟩ := by
  simp only [tableSchemaToBrewdb, ExceptRun.bind_eq_ok, ExceptRun.pure_eq_ok]
  exact exists_congr fun _ => and_congr_right fun _ => eq_comm

/-- A created table reads back with the requested columns, of which those of the key are not nullable. -/
theorem tableSchemaToBrewdb_of_buildSchema {request : CreateTableRequest} {schema : PaimonSchema} (id : ℕ)
    (h : buildSchema format request = .ok schema) (hprimary : request.tableOptions.get? "primary-key" = none)
    (hpartition : request.tableOptions.get? "partition" = none) :
    ∃ result, tableSchemaToBrewdb format ⟨id, schema⟩ = .ok result ∧
      result.fields = request.tableSchema.fields.map
        (ColumnField.created request.tableSchema.primaryKeys) ∧
      result.primaryKeys = request.tableSchema.primaryKeys ∧
      result.partitionKeys = request.tableSchema.partitionKeys := by
  simp only [buildSchema, ExceptRun.bind_eq_ok] at h
  obtain ⟨draft, hdraft, h⟩ := h
  split at h
  next built hbuilt =>
    cases h
    obtain ⟨hcolumns, hprimaryKeys, hpartitionKeys, hoptions⟩ := schemaDraft_eq_ok hdraft
    obtain rfl := format.build_eq draft schema hbuilt
      ((hoptions _ (by decide)).trans hprimary) ((hoptions _ (by decide)).trans hpartition)
    have hfields : draft.normalized.fields.mapM fieldToBrewdb =
        .ok (request.tableSchema.fields.map (ColumnField.created request.tableSchema.primaryKeys)) := by
      rw [ExceptRun.mapM_eq_ok, SchemaDraft.normalized, hcolumns, List.forall₂_map_right_iff,
        List.forall₂_iff_get]
      refine ⟨by simp, fun i hi hi' => ?_⟩
      simp only [List.get_eq_getElem, List.getElem_mapIdx, List.getElem_map, fieldToBrewdb,
        formatDataTypeToBrewdb_toPaimon, hprimaryKeys]
      rfl
    exact ⟨_, tableSchemaToBrewdb_eq_ok.mpr ⟨_, hfields, rfl⟩, rfl, hprimaryKeys, hpartitionKeys⟩
  next => cases h

/-! ## A plain Paimon -/

/-- One change of a schema. New columns get a new id. -/
def PaimonSchema.applyChange (schema : PaimonSchema) : SchemaChange → Except String PaimonSchema
  | .addColumn name dataType =>
      if schema.fields.any (·.name = name) then .error ("column already exists: " ++ name)
      else .ok { schema with
        fields := schema.fields ++ [⟨(schema.fields.map (·.id + 1)).foldl max 0, name, dataType⟩] }
  | .dropColumn name => .ok { schema with fields := schema.fields.filter (·.name ≠ name) }
  | .renameColumn name newName =>
      .ok { schema with
        fields := schema.fields.map fun field => if field.name = name then { field with name := newName } else field }
  | .updateColumnType name dataType =>
      .ok { schema with
        fields := schema.fields.map fun field => if field.name = name then { field with dataType } else field }
  | .setOption key value => .ok { schema with options := schema.options.insert key value }
  | .removeOption key => .ok { schema with options := schema.options.remove key }

/-- A format that builds every draft. Without declared bucket keys the primary keys are the bucket keys. -/
def PaimonFormat.plain : PaimonFormat where
  accepts _ := true
  maxVarBinary := 2 ^ 31 - 1
  build draft :=
    if draft.options.get? "primary-key" = none ∧ draft.options.get? "partition" = none then .ok draft.normalized
    else .error "keys are declared as options"
  build_eq draft schema h hprimary hpartition := by
    rw [if_pos ⟨hprimary, hpartition⟩] at h
    exact (Except.ok.inj h).symm
  bucketKeys schema :=
    match schema.schema.options.get? "bucket-key" with
    | some keys => Text.splitComma keys
    | none => schema.schema.primaryKeys.filter (· ∉ schema.schema.partitionKeys)

end BrewDB.Catalog

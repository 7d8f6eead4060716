import BrewDB.Planner.TableNames
import BrewDB.Catalog.Service

/-!
# `CREATE TABLE`

Reference: `brewdb-planner/src/logical/ddl.rs`, `brewdb-common/src/table.rs` and `datatype.rs`, and
`create_table` of `brewdb-execution/src/runtime/coordinator.rs`.

The planner binds the statement to a schema, which travels to the coordinator as an Arrow schema with the
key lists in its metadata. Clauses of the statement that the binder does not read are left out.
-/

namespace BrewDB.Catalog

/-! ## Syntax -/

/-- `TimezoneInfo`. -/
inductive TimezoneInfo where
  | none
  | withTimeZone
  | withoutTimeZone
  | tz
deriving DecidableEq, Repr

/-- `ExactNumberInfo`. -/
inductive ExactNumberInfo where
  | none
  | precision (precision : ℕ)
  | precisionAndScale (precision : ℕ) (scale : ℤ)
deriving DecidableEq, Repr

/-- Types as they are written. Lengths and display widths, which the binder ignores, are left out. -/
inductive AstDataType where
  | boolean
  | tinyInt
  | smallInt
  | int
  | integer
  | bigInt
  | float
  | real
  | double
  | doublePrecision
  | binary
  | varbinary
  | blob
  | text
  | string
  | varchar
  | char
  | character
  | date
  | time (precision : Option ℕ) (timezone : TimezoneInfo)
  | timestamp (precision : Option ℕ) (timezone : TimezoneInfo)
  | datetime (precision : Option ℕ)
  | decimal (info : ExactNumberInfo)
  | numeric (info : ExactNumberInfo)
  | dec (info : ExactNumberInfo)
  | other (text : String)
deriving DecidableEq, Repr

/-- `ColumnOption`. -/
inductive ColumnOption where
  | notNull
  | primaryKey
  | other (text : String)
deriving DecidableEq, Repr

/-- `ColumnDef`. -/
structure ColumnDef where
  name : Ident
  dataType : AstDataType
  options : List ColumnOption
deriving DecidableEq, Repr

/-- An expression where a column name is expected. -/
inductive ColumnExpr where
  | identifier (ident : Ident)
  | compoundIdentifier (parts : List Ident)
  | other (text : String)
deriving DecidableEq, Repr

/-- `TableConstraint`. -/
inductive TableConstraint where
  | primaryKey (columns : List ColumnExpr)
  | other (text : String)
deriving DecidableEq, Repr

/-- `DISTRIBUTED BY`. -/
structure DistributedBy where
  columns : List Ident
  buckets : Option ℕ
  function : Option Ident
deriving DecidableEq, Repr

/-- `SqlOption`, with the text of a value. -/
inductive SqlOption where
  | keyValue (key : Ident) (value : String)
  | ident (ident : Ident)
  | other (text : String)
deriving DecidableEq, Repr

/-- `CreateTable`. -/
structure CreateTable where
  name : ObjectName
  columns : List ColumnDef
  constraints : List TableConstraint
  partitionedBy : List Ident
  distributedBy : Option DistributedBy
  clusterBy : Option (List ColumnExpr)
  tableOptions : List SqlOption
  location : Option String
deriving DecidableEq, Repr

/-! ## Binding -/

/-- `as u32`. -/
def asU32 (n : ℕ) : ℕ := n % 2 ^ 32

/-- `decimal_precision_scale`. -/
def decimalPrecisionScale : ExactNumberInfo → ℕ × ℕ
  | .none => (38, 0)
  | .precision precision => (asU32 precision, 0)
  | .precisionAndScale precision scale => (asU32 precision, asU32 (max scale 0).toNat)

/-- `timezone_precision`: whatever is written, the default. -/
def timezonePrecision (_timezone : TimezoneInfo) (defaultPrecision : ℕ) : ℕ := defaultPrecision

/-- Whether a time zone is asked for. -/
def TimezoneInfo.hasZone : TimezoneInfo → Bool
  | .none => false
  | .withoutTimeZone => false
  | .withTimeZone => true
  | .tz => true

/-- `bind_data_type`. -/
def bindDataType : AstDataType → Except PlannerError DataType
  | .boolean => .ok .boolean
  | .tinyInt => .ok .int8
  | .smallInt => .ok .int16
  | .int => .ok .int32
  | .integer => .ok .int32
  | .bigInt => .ok .int64
  | .float => .ok .float32
  | .real => .ok .float32
  | .double => .ok .double
  | .doublePrecision => .ok .double
  | .binary => .ok .binary
  | .varbinary => .ok .binary
  | .blob => .ok .binary
  | .text => .ok .string
  | .string => .ok .string
  | .varchar => .ok .string
  | .char => .ok .string
  | .character => .ok .string
  | .date => .ok .date
  | .time _ timezone => .ok (.time (timezonePrecision timezone 0))
  | .timestamp _ timezone => .ok (.timestamp (timezonePrecision timezone 6) timezone.hasZone)
  | .datetime precision => .ok (.timestamp ((precision.map asU32).getD 6) false)
  | .decimal info => .ok (.decimal (decimalPrecisionScale info).1 (decimalPrecisionScale info).2)
  | .numeric info => .ok (.decimal (decimalPrecisionScale info).1 (decimalPrecisionScale info).2)
  | .dec info => .ok (.decimal (decimalPrecisionScale info).1 (decimalPrecisionScale info).2)
  | .other text => .error (.unsupportedPlan ("unsupported data type `" ++ text ++ "`"))

/-- Whether the column itself says that it has no nulls. -/
def ColumnDef.declaresNotNull (column : ColumnDef) : Bool :=
  column.options.any fun option => option = .notNull || option = .primaryKey

/-- `bind_column_def`. -/
def bindColumnDef (column : ColumnDef) : Except PlannerError ColumnField := do
  return ⟨column.name.value, ← bindDataType column.dataType, !column.declaresNotNull⟩

/-- `primary_key_column_name` and `cluster_column_name`. -/
def columnName (clause : String) : ColumnExpr → Except PlannerError String
  | .identifier ident => .ok ident.value
  | .compoundIdentifier [ident] => .ok ident.value
  | .compoundIdentifier parts => .error (.invalidPlan (clause ++ " column must be a simple column name, got `" ++
      ".".intercalate (parts.map Ident.toString) ++ "`"))
  | .other text =>
      .error (.invalidPlan (clause ++ " column must be a simple column name, got `" ++ text ++ "`"))

/-- The check for columns that are named twice. -/
def checkDistinct (clause : String) : List String → List String → Except PlannerError Unit
  | _, [] => .ok ()
  | seen, name :: names =>
      if name ∈ seen then
        .error (.invalidPlan (clause ++ " must not contain duplicate column `" ++ name ++ "`"))
      else checkDistinct clause (name :: seen) names

/-- The check for columns that do not exist. -/
def checkDefined (message : String → String) (columns : List ColumnDef) : List String → Except PlannerError Unit
  | [] => .ok ()
  | name :: names =>
      if columns.any (·.name.value = name) then checkDefined message columns names
      else .error (.invalidPlan (message name))

/-- `validate_column_names`. -/
def validateColumnNames (columns : List ColumnDef) (names : List String) (clause role : String) :
    Except PlannerError Unit := do
  checkDistinct clause [] names
  checkDefined (fun name => clause ++ " " ++ role ++ " column `" ++ name ++ "` is not defined in CREATE TABLE")
    columns names

/-- `validate_primary_keys`. -/
def validatePrimaryKeys (columns : List ColumnDef) (primaryKeys : List String) : Except PlannerError Unit := do
  checkDistinct "PRIMARY KEY" [] primaryKeys
  checkDefined (fun name => "PRIMARY KEY column `" ++ name ++ "` is not defined in CREATE TABLE") columns
    primaryKeys

/-- More than one key. -/
def multiplePrimaryKeys : PlannerError :=
  .invalidPlan "CREATE TABLE must not define multiple PRIMARY KEY constraints"

/-- The options of the columns, in order: each that declares a key, with its column. -/
def columnKeys (columns : List ColumnDef) : List String :=
  columns.flatMap fun column => (column.options.filter (· = .primaryKey)).map fun _ => column.name.value

/-- The keys declared on columns. -/
def bindColumnKeys : List String → List String → Except PlannerError (List String)
  | keys, [] => .ok keys
  | keys, name :: names => if keys ≠ [] then .error multiplePrimaryKeys else bindColumnKeys [name] names

/-- The keys declared as constraints. -/
def bindConstraintKeys : List String → List TableConstraint → Except PlannerError (List String)
  | keys, [] => .ok keys
  | keys, .other _ :: constraints => bindConstraintKeys keys constraints
  | keys, .primaryKey columns :: constraints => do
      if keys ≠ [] then .error multiplePrimaryKeys
      else bindConstraintKeys (← columns.mapM (columnName "PRIMARY KEY")) constraints

/-- `bind_primary_keys`. -/
def bindPrimaryKeys (create : CreateTable) : Except PlannerError (List String) := do
  let keys ← bindColumnKeys [] (columnKeys create.columns)
  let keys ← bindConstraintKeys keys create.constraints
  validatePrimaryKeys create.columns keys
  return keys

/-- `bind_table_partitioning`. -/
def bindTablePartitioning (create : CreateTable) : Except PlannerError (List String) := do
  let names := create.partitionedBy.map Ident.value
  validateColumnNames create.columns names "PARTITIONED BY" "partition"
  return names

/-- `bind_table_clustering`. -/
def bindTableClustering (create : CreateTable) : Except PlannerError (List String) :=
  match create.clusterBy with
  | none => .ok []
  | some columns => do
      let names ← columns.mapM (columnName "CLUSTER BY")
      validateColumnNames create.columns names "CLUSTER BY" "cluster"
      return names

/-- `TableDistribution`. -/
structure TableDistribution where
  bucketKeys : List String
  bucketCount : Option ℕ
  bucketFunction : Option String
deriving DecidableEq, Repr

/-- `u32::try_from`. -/
def bindBucketCount : Option ℕ → Except PlannerError (Option ℕ)
  | none => .ok none
  | some count =>
      if count < 2 ^ 32 then .ok (some count)
      else .error (.invalidPlan ("bucket count `" ++ toString count ++ "` is too large"))

/-- `bind_table_distribution`. -/
def bindTableDistribution (create : CreateTable) : Except PlannerError TableDistribution :=
  match create.distributedBy with
  | none => .ok ⟨[], none, none⟩
  | some distribution => do
      if distribution.columns = [] ∧ distribution.function.isSome then
        .error (.invalidPlan "bucket function requires at least one bucket key")
      else
        let names := distribution.columns.map Ident.value
        validateColumnNames create.columns names "DISTRIBUTED BY" "bucket"
        let count ← bindBucketCount distribution.buckets
        return ⟨names, count, distribution.function.map Ident.value⟩

/-! ## Arrow schemas -/

/-- An Arrow schema with its metadata. -/
structure ArrowSchema where
  fields : List Field
  metadata : BTreeMap String String

/-- `DataType::to_arrow_data_type`. -/
def DataType.toArrowDataType : DataType → Except String ArrowDataType
  | .boolean => .ok .boolean
  | .int8 => .ok .int8
  | .int16 => .ok .int16
  | .int32 => .ok .int32
  | .int64 => .ok .int64
  | .float32 => .ok .float32
  | .double => .ok .float64
  | .binary => .ok .binary
  | .date => .ok .date32
  | .time precision => .ok (if precision ≤ 3 then .time32 .millisecond else .time64 .microsecond)
  | .timestamp precision withTimeZone =>
      let unit : TimeUnit :=
        if precision = 0 then .second else if precision ≤ 3 then .millisecond
        else if precision ≤ 6 then .microsecond else .nanosecond
      .ok (.timestamp unit (if withTimeZone then some "UTC" else none))
  | .decimal precision scale =>
      if 255 < precision then
        .error ("decimal precision `" ++ toString precision ++ "` exceeds Arrow Decimal128 range")
      else if 127 < scale then
        .error ("decimal scale `" ++ toString scale ++ "` exceeds Arrow Decimal128 range")
      else .ok (.decimal128 precision scale)
  | .string => .ok .utf8

/-- The precision of a unit. -/
def unitPrecision : TimeUnit → ℕ
  | .second => 0
  | .millisecond => 3
  | .microsecond => 6
  | .nanosecond => 9

/-- `DataType::from_arrow_data_type`. -/
def DataType.fromArrowDataType : ArrowDataType → Except String DataType
  | .boolean => .ok .boolean
  | .int8 => .ok .int8
  | .int16 => .ok .int16
  | .int32 => .ok .int32
  | .int64 => .ok .int64
  | .float32 => .ok .float32
  | .float64 => .ok .double
  | .binary => .ok .binary
  | .date32 => .ok .date
  | .utf8 => .ok .string
  | .time32 .second => .ok (.time 0)
  | .time32 .millisecond => .ok (.time 3)
  | .time64 .microsecond => .ok (.time 6)
  | .time64 .nanosecond => .ok (.time 9)
  | .time32 _ => .error "unsupported Arrow data type `Time32`"
  | .time64 _ => .error "unsupported Arrow data type `Time64`"
  | .timestamp unit timezone => .ok (.timestamp (unitPrecision unit) timezone.isSome)
  | .decimal128 precision scale => .ok (.decimal precision scale)

/-- `ColumnField::to_arrow_field`. -/
def ColumnField.toArrowField (column : ColumnField) : Except String Field := do
  return ⟨column.name, ← column.dataType.toArrowDataType, column.nullable⟩

/-- `ColumnField::from_arrow_field`. -/
def ColumnField.fromArrowField (field : Field) : Except String ColumnField := do
  return ⟨field.name, ← DataType.fromArrowDataType field.dataType, field.nullable⟩

/-- `insert_list_metadata`. -/
def insertListMetadata (metadata : BTreeMap String String) (key : String) (values : List String) :
    BTreeMap String String :=
  if values = [] then metadata else metadata.insert key (Text.joinComma values)

/-- `metadata_list`. -/
def metadataList (metadata : BTreeMap String String) (key : String) : List String :=
  match metadata.get? key with
  | some value => Text.splitComma value
  | none => []

/-- A value in the metadata, if there is one. -/
def insertMetadata (metadata : BTreeMap String String) (key : String) : Option String → BTreeMap String String
  | some value => metadata.insert key value
  | none => metadata

/-- The metadata of `TableSchema::to_arrow_schema`. -/
def TableSchema.metadata (schema : TableSchema) : BTreeMap String String :=
  let metadata := insertListMetadata .empty "brewdb.table.primary_keys" schema.primaryKeys
  let metadata := insertListMetadata metadata "brewdb.table.partition_keys" schema.partitionKeys
  let metadata := insertListMetadata metadata "brewdb.table.bucket_keys" schema.bucketKeys
  let metadata := insertMetadata metadata "brewdb.table.bucket_count" (schema.bucketCount.map toString)
  let metadata := insertMetadata metadata "brewdb.table.bucket_function" schema.bucketFunction
  insertListMetadata metadata "brewdb.table.cluster_keys" schema.clusterKeys

/-- `TableSchema::to_arrow_schema`. -/
def TableSchema.toArrowSchema (schema : TableSchema) : Except String ArrowSchema := do
  return ⟨← schema.fields.mapM ColumnField.toArrowField, schema.metadata⟩

/-- `TableSchema::from_arrow_schema`. -/
def TableSchema.fromArrowSchema (schema : ArrowSchema) : Except String TableSchema := do
  return {
    fields := ← schema.fields.mapM ColumnField.fromArrowField
    primaryKeys := metadataList schema.metadata "brewdb.table.primary_keys"
    partitionKeys := metadataList schema.metadata "brewdb.table.partition_keys"
    bucketKeys := metadataList schema.metadata "brewdb.table.bucket_keys"
    bucketCount := (schema.metadata.get? "brewdb.table.bucket_count").bind Text.parseU32
    bucketFunction := schema.metadata.get? "brewdb.table.bucket_function"
    clusterKeys := metadataList schema.metadata "brewdb.table.cluster_keys" }

/-! ## The statement -/

/-- `CreateExternalTable`. -/
structure CreateExternalTable where
  name : BrewDB.TablePath
  location : String
  fileType : String
  schema : ArrowSchema
  tablePartitionCols : List String
  options : Options
  /-- The columns of a `Constraint::PrimaryKey`. -/
  constraints : Option (List ℕ)

/-- `sql_option_entry`. -/
def sqlOptionEntry : SqlOption → Option (String × String)
  | .keyValue key value => some (key.value, value)
  | .ident ident => some (ident.value, "true")
  | .other _ => none

/-- `create_table_options`. -/
def createTableOptions (options : List SqlOption) : Options :=
  (options.filterMap sqlOptionEntry).foldl (fun map entry => map.insert entry.1 entry.2) .empty

/-- The positions of the key columns. -/
def keyIndices (fields : List ColumnField) : List String → Except PlannerError (List ℕ)
  | [] => .ok []
  | key :: keys =>
      match fields.findIdx? (·.name = key) with
      | none => .error (.invalidPlan ("PRIMARY KEY column `" ++ key ++ "` is not defined in CREATE TABLE"))
      | some index => do return index :: (← keyIndices fields keys)

/-- `primary_key_constraints`. -/
def primaryKeyConstraints (schema : TableSchema) (primaryKeys : List String) :
    Except PlannerError (Option (List ℕ)) :=
  if primaryKeys = [] then .ok none else do return some (← keyIndices schema.fields primaryKeys)

/-- `DFSchema::try_from`: no column is named twice. -/
def checkFieldNames (schema : ArrowSchema) : Except PlannerError Unit :=
  if (schema.fields.map Field.name).Nodup then .ok ()
  else .error (.invalidPlan "Schema error: Schema contains duplicate unqualified field name")

/-- The schema that `bind_create_table_statement` declares. -/
def bindTableSchema (create : CreateTable) : Except PlannerError TableSchema := do
  let partitionKeys ← bindTablePartitioning create
  let distribution ← bindTableDistribution create
  let primaryKeys ← bindPrimaryKeys create
  let clusterKeys ← bindTableClustering create
  let fields ← create.columns.mapM bindColumnDef
  return ⟨fields, primaryKeys, partitionKeys, distribution.bucketKeys, distribution.bucketCount,
    distribution.bucketFunction, clusterKeys⟩

/-- The location, and the options that are left. -/
def bindLocation (create : CreateTable) : String × Options :=
  let options := createTableOptions create.tableOptions
  match create.location with
  | some location => (location, options)
  | none => ((options.get? "location").getD "", options.remove "location")

/-- `bind_create_table_statement`. -/
def bindCreateTableStatement (service : CatalogService) (session : PlanningSession) (create : CreateTable) :
    Except PlannerError CreateExternalTable := do
  if create.columns = [] then .error (.invalidPlan "CREATE TABLE must define at least one column")
  else
    let name ← qualifyTableName session create.name
    let (catalog, _) ← (service.openCatalog name.catalog).mapError fun error => .invalidPlan error.toString
    let tableSchema ← bindTableSchema create
    let schema ← tableSchema.toArrowSchema.mapError fun reason =>
      .invalidPlan ("schema conversion failed: " ++ reason)
    checkFieldNames schema
    let constraints ← primaryKeyConstraints tableSchema tableSchema.primaryKeys
    return {
      name := name
      location := (bindLocation create).1
      fileType := catalog.entry.storageKind.asStr
      schema := schema
      tablePartitionCols := tableSchema.partitionKeys
      options := (bindLocation create).2
      constraints := constraints }

/-- `primary_key_names`. -/
def primaryKeyNames (schema : ArrowSchema) : Option (List ℕ) → List String
  | some indices => indices.filterMap fun index => (schema.fields[index]?).map Field.name
  | none => []

/-- The schema that `create_table` of the coordinator hands to the catalog. -/
def statementTableSchema (statement : CreateExternalTable) : Except String TableSchema := do
  let schema ← TableSchema.fromArrowSchema statement.schema
  let schema := { schema with primaryKeys := primaryKeyNames statement.schema statement.constraints }
  if schema.partitionKeys = [] then return { schema with partitionKeys := statement.tablePartitionCols }
  else return schema

/-- The request of `create_table` of the coordinator. -/
def createTableRequest (statement : CreateExternalTable) : Except String CreateTableRequest := do
  let schema ← statementTableSchema statement
  return ⟨statement.name.database, statement.name.table, schema,
    if statement.location = "" then none else some statement.location, statement.options⟩

end BrewDB.Catalog

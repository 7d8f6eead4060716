import BrewDB.Planner.CreateTable

/-!
# The declared table

What a `CREATE TABLE` statement declares, read off the statement itself, against the schema that reaches
the catalog. Between the two the schema is an Arrow schema: a time or a timestamp is left with the precision
of its unit, and a list of keys is one string.
-/

namespace BrewDB.Catalog

/-! ## What is declared -/

/-- A type with the parameters that are written. -/
inductive DeclaredType where
  | plain (type : DataType)
  | time (precision : ℕ) (withTimeZone : Bool)
  | timestamp (precision : ℕ) (withTimeZone : Bool)
  | decimal (precision : ℕ) (scale : ℤ)
  | unknown (text : String)
deriving DecidableEq, Repr

/-- The declared number of digits, and of those after the point. -/
def ExactNumberInfo.declared : ExactNumberInfo → DeclaredType
  | .none => .decimal 38 0
  | .precision digits => .decimal digits 0
  | .precisionAndScale digits scale => .decimal digits scale

/-- The declared type. A time has no digits after the second and a timestamp has six, unless it says
otherwise. -/
def AstDataType.declared : AstDataType → DeclaredType
  | .boolean => .plain .boolean
  | .tinyInt => .plain .int8
  | .smallInt => .plain .int16
  | .int => .plain .int32
  | .integer => .plain .int32
  | .bigInt => .plain .int64
  | .float => .plain .float32
  | .real => .plain .float32
  | .double => .plain .double
  | .doublePrecision => .plain .double
  | .binary => .plain .binary
  | .varbinary => .plain .binary
  | .blob => .plain .binary
  | .text => .plain .string
  | .string => .plain .string
  | .varchar => .plain .string
  | .char => .plain .string
  | .character => .plain .string
  | .date => .plain .date
  | .time precision timezone => .time (precision.getD 0) timezone.hasZone
  | .timestamp precision timezone => .timestamp (precision.getD 6) timezone.hasZone
  | .datetime precision => .timestamp (precision.getD 6) false
  | .decimal info => info.declared
  | .numeric info => info.declared
  | .dec info => info.declared
  | .other written => .unknown written

/-- What a type of the catalog declares. -/
def DataType.declared : DataType → DeclaredType
  | .time precision => .time precision false
  | .timestamp precision withTimeZone => .timestamp precision withTimeZone
  | .decimal precision scale => .decimal precision scale
  | .boolean => .plain .boolean
  | .int8 => .plain .int8
  | .int16 => .plain .int16
  | .int32 => .plain .int32
  | .int64 => .plain .int64
  | .float32 => .plain .float32
  | .double => .plain .double
  | .binary => .plain .binary
  | .date => .plain .date
  | .string => .plain .string

/-- The column that an expression names. -/
def ColumnExpr.simpleName : ColumnExpr → Option String
  | .identifier ident => some ident.value
  | .compoundIdentifier [ident] => some ident.value
  | .compoundIdentifier _ => none
  | .other _ => none

/-- The columns of a key. -/
def TableConstraint.keys : TableConstraint → List String
  | .primaryKey columns => columns.filterMap ColumnExpr.simpleName
  | .other _ => []

/-- The declared primary key, on columns or as a constraint. -/
def CreateTable.primaryKeys (create : CreateTable) : List String :=
  columnKeys create.columns ++ create.constraints.flatMap TableConstraint.keys

def CreateTable.partitionKeys (create : CreateTable) : List String := create.partitionedBy.map Ident.value

def CreateTable.bucketKeys (create : CreateTable) : List String :=
  (create.distributedBy.map fun distribution => distribution.columns.map Ident.value).getD []

def CreateTable.bucketCount (create : CreateTable) : Option ℕ := create.distributedBy.bind (·.buckets)

def CreateTable.bucketFunction (create : CreateTable) : Option String :=
  (create.distributedBy.bind (·.function)).map Ident.value

def CreateTable.clusterKeys (create : CreateTable) : List String :=
  (create.clusterBy.map fun columns => columns.filterMap ColumnExpr.simpleName).getD []

/-- A column as declared. Columns of the primary key have no nulls. -/
structure DeliversColumn (primaryKeys : List String) (column : ColumnDef) (field : ColumnField) : Prop where
  name : field.name = column.name.value
  dataType : field.dataType.declared = column.dataType.declared
  nullable : field.nullable = false ↔ column.declaresNotNull = true ∨ column.name.value ∈ primaryKeys

/-- The declared table. -/
structure Delivers (create : CreateTable) (schema : TableSchema) : Prop where
  columns : List.Forall₂ (DeliversColumn create.primaryKeys) create.columns schema.fields
  primaryKeys : schema.primaryKeys = create.primaryKeys
  partitionKeys : schema.partitionKeys = create.partitionKeys
  bucketKeys : schema.bucketKeys = create.bucketKeys
  bucketCount : schema.bucketCount = create.bucketCount
  bucketFunction : schema.bucketFunction = create.bucketFunction
  clusterKeys : schema.clusterKeys = create.clusterKeys

/-! ## What survives -/

/-- Numbers that fit into 32 bits and are not negative. -/
def ExactNumberInfo.Survives : ExactNumberInfo → Prop
  | .none => True
  | .precision digits => digits < 2 ^ 32
  | .precisionAndScale digits scale => digits < 2 ^ 32 ∧ 0 ≤ scale ∧ scale < 2 ^ 32

/-- Types that are bound and carried through Arrow as declared. -/
def AstDataType.Survives : AstDataType → Prop
  | .time precision timezone => precision = some 3 ∧ timezone.hasZone = false
  | .timestamp precision _ => precision = none ∨ precision = some 6
  | .datetime precision => precision ∈ [none, some 0, some 3, some 6, some 9]
  | .decimal info => info.Survives
  | .numeric info => info.Survives
  | .dec info => info.Survives
  | _ => True

/-- The tables that are delivered. -/
structure Deliverable (create : CreateTable) : Prop where
  types : ∀ column ∈ create.columns, column.dataType.Survives
  /-- A column of the key that is declared as a constraint says itself that it has no nulls. -/
  keys : ∀ column ∈ create.columns, column.name.value ∈ create.primaryKeys → column.declaresNotNull = true
  /-- Partition keys of which nothing is left are taken from the statement instead. -/
  partitionKeys : (∀ name ∈ create.partitionKeys, Text.IsPart name) ∨
    ∀ name ∈ create.partitionKeys, Text.IsBlank name
  bucketKeys : ∀ name ∈ create.bucketKeys, Text.IsPart name
  clusterKeys : ∀ name ∈ create.clusterKeys, Text.IsPart name

/-! ## Types -/

/-- A type after the way through Arrow. -/
def DataType.throughArrow : DataType → DataType
  | .time precision => .time (if precision ≤ 3 then 3 else 6)
  | .timestamp precision withTimeZone =>
      .timestamp (if precision = 0 then 0 else if precision ≤ 3 then 3 else if precision ≤ 6 then 6 else 9)
        withTimeZone
  | type => type

theorem DataType.fromArrowDataType_toArrowDataType {type : DataType} {arrow : ArrowDataType}
    (h : type.toArrowDataType = .ok arrow) : DataType.fromArrowDataType arrow = .ok type.throughArrow := by
  cases type with
  | time precision =>
      simp only [DataType.toArrowDataType, Except.ok.injEq] at h
      rw [← h, DataType.throughArrow]
      split_ifs <;> rfl
  | timestamp precision withTimeZone =>
      simp only [DataType.toArrowDataType, Except.ok.injEq] at h
      rw [← h, DataType.throughArrow, DataType.fromArrowDataType]
      have hzone : (if withTimeZone = true then some "UTC" else none).isSome = withTimeZone := by
        cases withTimeZone <;> rfl
      rw [hzone]
      split_ifs <;> rfl
  | decimal precision scale =>
      simp only [DataType.toArrowDataType] at h
      split_ifs at h
      cases h
      rfl
  | _ =>
      cases h
      rfl

theorem asU32_of_lt {n : ℕ} (h : n < 2 ^ 32) : asU32 n = n := Nat.mod_eq_of_lt h

theorem asU32_eq_iff (n : ℕ) : asU32 n = n ↔ n < 2 ^ 32 := by
  constructor
  · intro h
    have := Nat.mod_lt n (show 0 < 2 ^ 32 by decide)
    rw [asU32] at h
    omega
  · exact asU32_of_lt

/-- Decimals keep what fits. -/
theorem decimal_declared_iff (info : ExactNumberInfo) :
    (DataType.decimal (decimalPrecisionScale info).1 (decimalPrecisionScale info).2).throughArrow.declared =
      info.declared ↔ info.Survives := by
  cases info with
  | none => exact iff_of_true rfl trivial
  | precision digits =>
      simp only [decimalPrecisionScale, DataType.throughArrow, DataType.declared, ExactNumberInfo.declared,
        ExactNumberInfo.Survives, DeclaredType.decimal.injEq, Nat.cast_zero, and_true]
      exact asU32_eq_iff digits
  | precisionAndScale digits scale =>
      simp only [decimalPrecisionScale, DataType.throughArrow, DataType.declared, ExactNumberInfo.declared,
        ExactNumberInfo.Survives, DeclaredType.decimal.injEq, asU32_eq_iff]
      refine and_congr_right fun _ => ?_
      simp only [asU32]
      omega

/-- A timestamp keeps just the precisions of the units. -/
theorem unit_eq_iff (precision : ℕ) :
    (if asU32 precision = 0 then 0 else if asU32 precision ≤ 3 then 3 else if asU32 precision ≤ 6 then 6 else 9) =
      precision ↔ precision ∈ [0, 3, 6, 9] := by
  constructor
  · intro h
    rw [← h]
    split_ifs <;> decide
  · intro h
    simp only [List.mem_cons, List.not_mem_nil, or_false] at h
    rcases h with rfl | rfl | rfl | rfl <;> rfl

/-- The type that arrives is the declared one just when it survives. -/
theorem declared_throughArrow_iff {type : AstDataType} {bound : DataType} (h : bindDataType type = .ok bound) :
    bound.throughArrow.declared = type.declared ↔ type.Survives := by
  cases type with
  | time precision timezone =>
      cases h
      simp only [timezonePrecision, DataType.throughArrow, DataType.declared, AstDataType.declared,
        AstDataType.Survives, DeclaredType.time.injEq, Nat.zero_le, if_true, eq_comm (a := false)]
      refine and_congr_left fun _ => ?_
      cases precision with
      | none => decide
      | some precision => simp [eq_comm (a := 3)]
  | timestamp precision timezone =>
      cases h
      simp only [timezonePrecision, DataType.throughArrow, DataType.declared, AstDataType.declared,
        AstDataType.Survives, DeclaredType.timestamp.injEq]
      cases precision <;> simp [eq_comm]
  | datetime precision =>
      cases h
      simp only [DataType.throughArrow, DataType.declared, AstDataType.declared, AstDataType.Survives,
        DeclaredType.timestamp.injEq, and_true]
      cases precision with
      | none => decide
      | some precision =>
          simp only [Option.map_some, Option.getD_some]
          rw [unit_eq_iff]
          simp
  | decimal info =>
      cases h
      exact decimal_declared_iff info
  | numeric info =>
      cases h
      exact decimal_declared_iff info
  | dec info =>
      cases h
      exact decimal_declared_iff info
  | other text => cases h
  | _ =>
      cases h
      simp [DataType.throughArrow, DataType.declared, AstDataType.declared, AstDataType.Survives]

/-! ## Columns and keys -/

/-- A column after the way through Arrow. -/
def ColumnField.throughArrow (field : ColumnField) : ColumnField :=
  ⟨field.name, field.dataType.throughArrow, field.nullable⟩

/-- A list of names after the way through the metadata. -/
def listThroughArrow (names : List String) : List String := Text.splitComma (Text.joinComma names)

theorem ColumnField.fromArrowField_toArrowField {field : ColumnField} {arrow : Field}
    (h : field.toArrowField = .ok arrow) :
    arrow.name = field.name ∧ ColumnField.fromArrowField arrow = .ok field.throughArrow := by
  simp only [ColumnField.toArrowField, ExceptRun.bind_eq_ok, ExceptRun.pure_eq_ok] at h
  obtain ⟨type, htype, rfl⟩ := h
  refine ⟨rfl, ?_⟩
  simp only [ColumnField.fromArrowField, DataType.fromArrowDataType_toArrowDataType htype]
  rfl

theorem get?_insertListMetadata (metadata : BTreeMap String String) (key other : String) (values : List String) :
    (insertListMetadata metadata key values).get? other =
      if other = key ∧ values ≠ [] then some (Text.joinComma values) else metadata.get? other := by
  rw [insertListMetadata]
  by_cases hvalues : values = []
  · simp [hvalues]
  · rw [if_neg hvalues, BTreeMap.get?_insert]
    simp [hvalues]

theorem get?_insertMetadata (metadata : BTreeMap String String) (key other : String) (value : Option String) :
    (insertMetadata metadata key value).get? other =
      if other = key ∧ value.isSome then value else metadata.get? other := by
  cases value with
  | none => simp [insertMetadata]
  | some value =>
      rw [insertMetadata, BTreeMap.get?_insert]
      simp

/-- An empty list is not kept, and is read back as one. -/
theorem metadataList_of_get? {metadata : BTreeMap String String} {key : String} {values : List String}
    (h : metadata.get? key = if values = [] then none else some (Text.joinComma values)) :
    metadataList metadata key = listThroughArrow values := by
  rw [metadataList, h]
  by_cases hvalues : values = []
  · rw [hvalues]
    rfl
  · rw [if_neg hvalues]
    rfl

theorem metadataList_partitionKeys (schema : TableSchema) :
    metadataList schema.metadata "brewdb.table.partition_keys" = listThroughArrow schema.partitionKeys := by
  apply metadataList_of_get?
  simp [TableSchema.metadata, get?_insertListMetadata, get?_insertMetadata]

theorem metadataList_bucketKeys (schema : TableSchema) :
    metadataList schema.metadata "brewdb.table.bucket_keys" = listThroughArrow schema.bucketKeys := by
  apply metadataList_of_get?
  simp [TableSchema.metadata, get?_insertListMetadata, get?_insertMetadata]

theorem metadataList_clusterKeys (schema : TableSchema) :
    metadataList schema.metadata "brewdb.table.cluster_keys" = listThroughArrow schema.clusterKeys := by
  apply metadataList_of_get?
  simp [TableSchema.metadata, get?_insertListMetadata, get?_insertMetadata]

theorem get?_bucketCount (schema : TableSchema) :
    schema.metadata.get? "brewdb.table.bucket_count" = schema.bucketCount.map toString := by
  cases hcount : schema.bucketCount <;>
    simp [TableSchema.metadata, get?_insertListMetadata, get?_insertMetadata, hcount]

theorem get?_bucketFunction (schema : TableSchema) :
    schema.metadata.get? "brewdb.table.bucket_function" = schema.bucketFunction := by
  cases hfunction : schema.bucketFunction <;>
    simp [TableSchema.metadata, get?_insertListMetadata, get?_insertMetadata, hfunction]

/-- The names at the positions of the keys are the keys. -/
theorem primaryKeyNames_keyIndices {fields : List ColumnField} {schema : ArrowSchema}
    (hnames : schema.fields.map Field.name = fields.map ColumnField.name) {keys : List String} {indices : List ℕ}
    (h : keyIndices fields keys = .ok indices) : primaryKeyNames schema (some indices) = keys := by
  induction keys generalizing indices with
  | nil =>
      cases h
      rfl
  | cons key keys ih =>
      rw [keyIndices] at h
      cases hindex : fields.findIdx? (·.name = key) with
      | none =>
          rw [hindex] at h
          cases h
      | some index =>
          rw [hindex] at h
          simp only [ExceptRun.bind_eq_ok, ExceptRun.pure_eq_ok] at h
          obtain ⟨rest, hrest, rfl⟩ := h
          obtain ⟨hlt, hname, -⟩ := List.findIdx?_eq_some_iff_getElem.mp hindex
          have hget : (schema.fields[index]?).map Field.name = some key := by
            rw [← List.getElem?_map, hnames, List.getElem?_map, List.getElem?_eq_getElem hlt, Option.map_some]
            exact congrArg some (by simpa using hname)
          have hrest := ih hrest
          rw [primaryKeyNames] at hrest ⊢
          simp only [List.filterMap_cons, hget, hrest]

/-! ## Binding -/

theorem columnName_eq_ok {clause : String} {expr : ColumnExpr} {name : String}
    (h : columnName clause expr = .ok name) : expr.simpleName = some name := by
  unfold columnName at h
  split at h <;> cases h <;> rfl

theorem mapM_columnName_eq_ok {clause : String} {columns : List ColumnExpr} {names : List String}
    (h : columns.mapM (columnName clause) = .ok names) : names = columns.filterMap ColumnExpr.simpleName := by
  have hnames := ExceptRun.mapM_eq_ok.mp h
  clear h
  induction hnames with
  | nil => rfl
  | cons hname _ ih => rw [List.filterMap_cons_some (columnName_eq_ok hname), ih]

theorem bindColumnKeys_eq_ok {keys names result : List String} (h : bindColumnKeys keys names = .ok result) :
    result = keys ++ names := by
  induction names generalizing keys with
  | nil =>
      cases h
      exact (List.append_nil _).symm
  | cons name names ih =>
      rw [bindColumnKeys] at h
      split_ifs at h with hkeys
      rw [ih h, not_not.mp hkeys]
      rfl

theorem bindConstraintKeys_eq_ok {keys result : List String} {constraints : List TableConstraint}
    (h : bindConstraintKeys keys constraints = .ok result) :
    result = keys ++ constraints.flatMap TableConstraint.keys := by
  induction constraints generalizing keys with
  | nil =>
      cases h
      exact (List.append_nil _).symm
  | cons constraint constraints ih =>
      cases constraint with
      | other text => exact ih h
      | primaryKey columns =>
          rw [bindConstraintKeys] at h
          split_ifs at h with hkeys
          simp only [ExceptRun.bind_eq_ok] at h
          obtain ⟨names, hnames, h⟩ := h
          rw [ih h, mapM_columnName_eq_ok hnames, not_not.mp hkeys]
          rfl

theorem bindPrimaryKeys_eq_ok {create : CreateTable} {keys : List String}
    (h : bindPrimaryKeys create = .ok keys) : keys = create.primaryKeys := by
  simp only [bindPrimaryKeys, ExceptRun.bind_eq_ok, ExceptRun.pure_eq_ok] at h
  obtain ⟨names, hnames, all, hall, _, _, rfl⟩ := h
  rw [bindConstraintKeys_eq_ok hall, bindColumnKeys_eq_ok hnames]
  rfl

theorem bindTableClustering_eq_ok {create : CreateTable} {keys : List String}
    (h : bindTableClustering create = .ok keys) : keys = create.clusterKeys := by
  rw [bindTableClustering] at h
  rw [CreateTable.clusterKeys]
  cases hcluster : create.clusterBy with
  | none =>
      rw [hcluster] at h
      cases h
      rfl
  | some columns =>
      rw [hcluster] at h
      simp only [ExceptRun.bind_eq_ok, ExceptRun.pure_eq_ok] at h
      obtain ⟨names, hnames, _, _, rfl⟩ := h
      exact mapM_columnName_eq_ok hnames

theorem bindBucketCount_eq_ok {count result : Option ℕ} (h : bindBucketCount count = .ok result) :
    result = count ∧ ∀ n ∈ result, n < 2 ^ 32 := by
  cases count with
  | none =>
      cases h
      exact ⟨rfl, by simp⟩
  | some count =>
      rw [bindBucketCount] at h
      split_ifs at h with hcount
      cases h
      refine ⟨rfl, fun n hn => ?_⟩
      cases hn
      exact hcount

theorem bindTableDistribution_eq_ok {create : CreateTable} {distribution : TableDistribution}
    (h : bindTableDistribution create = .ok distribution) :
    distribution = ⟨create.bucketKeys, create.bucketCount, create.bucketFunction⟩ ∧
      ∀ n ∈ distribution.bucketCount, n < 2 ^ 32 := by
  rw [bindTableDistribution] at h
  rw [CreateTable.bucketKeys, CreateTable.bucketCount, CreateTable.bucketFunction]
  cases hdistributed : create.distributedBy with
  | none =>
      rw [hdistributed] at h
      cases h
      exact ⟨rfl, by simp⟩
  | some clause =>
      rw [hdistributed] at h
      simp only at h
      split_ifs at h
      simp only [ExceptRun.bind_eq_ok, ExceptRun.pure_eq_ok] at h
      obtain ⟨_, _, count, hcount, rfl⟩ := h
      obtain ⟨rfl, hlt⟩ := bindBucketCount_eq_ok hcount
      exact ⟨rfl, hlt⟩

/-- The schema that is declared to Arrow. -/
structure Binds (create : CreateTable) (schema : TableSchema) : Prop where
  columns : List.Forall₂ (fun column field => bindColumnDef column = .ok field) create.columns schema.fields
  primaryKeys : schema.primaryKeys = create.primaryKeys
  partitionKeys : schema.partitionKeys = create.partitionKeys
  bucketKeys : schema.bucketKeys = create.bucketKeys
  bucketCount : schema.bucketCount = create.bucketCount
  bucketFunction : schema.bucketFunction = create.bucketFunction
  clusterKeys : schema.clusterKeys = create.clusterKeys
  count_lt : ∀ n ∈ schema.bucketCount, n < 2 ^ 32

theorem bindTableSchema_eq_ok {create : CreateTable} {schema : TableSchema}
    (h : bindTableSchema create = .ok schema) : Binds create schema := by
  simp only [bindTableSchema, bindTablePartitioning, ExceptRun.bind_eq_ok, ExceptRun.pure_eq_ok] at h
  obtain ⟨partitionKeys, ⟨_, _, rfl⟩, distribution, hdistribution, primaryKeys, hprimary, clusterKeys, hcluster,
    fields, hfields, rfl⟩ := h
  obtain ⟨rfl, hlt⟩ := bindTableDistribution_eq_ok hdistribution
  exact ⟨ExceptRun.mapM_eq_ok.mp hfields, bindPrimaryKeys_eq_ok hprimary, rfl, rfl, rfl, rfl,
    bindTableClustering_eq_ok hcluster, hlt⟩

/-! ## Delivery -/

/-- The schema that reaches the catalog. -/
def TableSchema.throughArrow (schema : TableSchema) : TableSchema :=
  { schema with
    fields := schema.fields.map ColumnField.throughArrow
    partitionKeys :=
      if listThroughArrow schema.partitionKeys = [] then schema.partitionKeys
      else listThroughArrow schema.partitionKeys
    bucketKeys := listThroughArrow schema.bucketKeys
    clusterKeys := listThroughArrow schema.clusterKeys }

theorem toArrowSchema_eq_ok {schema : TableSchema} {arrow : ArrowSchema} (h : schema.toArrowSchema = .ok arrow) :
    arrow.metadata = schema.metadata ∧ arrow.fields.map Field.name = schema.fields.map ColumnField.name ∧
      arrow.fields.mapM ColumnField.fromArrowField = .ok (schema.fields.map ColumnField.throughArrow) := by
  simp only [TableSchema.toArrowSchema, ExceptRun.bind_eq_ok, ExceptRun.pure_eq_ok] at h
  obtain ⟨fields, hfields, rfl⟩ := h
  replace hfields := ExceptRun.mapM_eq_ok.mp hfields
  refine ⟨rfl, ?_, ExceptRun.mapM_eq_ok.mpr ?_⟩
  · show fields.map Field.name = schema.fields.map ColumnField.name
    generalize schema.fields = columns at hfields
    induction hfields with
    | nil => rfl
    | cons hfield _ ih =>
        rw [List.map_cons, List.map_cons, ih, (ColumnField.fromArrowField_toArrowField hfield).1]
  · rw [List.forall₂_map_right_iff]
    exact (hfields.imp fun _ _ hfield => (ColumnField.fromArrowField_toArrowField hfield).2).flip

/-- What the coordinator makes of the statement. -/
theorem statementTableSchema_eq_ok {create : CreateTable} {schema : TableSchema} {statement : CreateExternalTable}
    (hbinds : Binds create schema) (harrow : schema.toArrowSchema = .ok statement.schema)
    (hpartition : statement.tablePartitionCols = schema.partitionKeys)
    (hconstraints : primaryKeyConstraints schema schema.primaryKeys = .ok statement.constraints) :
    statementTableSchema statement = .ok schema.throughArrow := by
  obtain ⟨hmetadata, hnames, hfields⟩ := toArrowSchema_eq_ok harrow
  have hkeys : primaryKeyNames statement.schema statement.constraints = schema.primaryKeys := by
    rw [primaryKeyConstraints] at hconstraints
    split_ifs at hconstraints with hempty
    · simp only [Except.ok.injEq] at hconstraints
      rw [← hconstraints, hempty]
      rfl
    · simp only [ExceptRun.bind_eq_ok, ExceptRun.pure_eq_ok] at hconstraints
      obtain ⟨indices, hindices, hconstraints⟩ := hconstraints
      rw [← hconstraints]
      exact primaryKeyNames_keyIndices hnames hindices
  have hcount : (schema.bucketCount.map toString).bind Text.parseU32 = schema.bucketCount := by
    cases hcount : schema.bucketCount with
    | none => rfl
    | some n => exact Text.parseU32_toString (hbinds.count_lt n hcount)
  simp only [statementTableSchema, TableSchema.fromArrowSchema, hfields, hmetadata, hkeys, hpartition,
    metadataList_partitionKeys, metadataList_bucketKeys, metadataList_clusterKeys, get?_bucketCount, hcount,
    get?_bucketFunction, TableSchema.throughArrow, ExceptRun.bind_eq_ok, ExceptRun.pure_eq_ok]
  refine ⟨_, ⟨_, rfl, rfl⟩, ?_⟩
  by_cases hempty : listThroughArrow schema.partitionKeys = []
  · simp only [hempty, if_true]
    rfl
  · simp only [hempty, if_false]
    rfl

theorem bindColumnDef_eq_ok {column : ColumnDef} {field : ColumnField} (h : bindColumnDef column = .ok field) :
    bindDataType column.dataType = .ok field.dataType ∧ field.name = column.name.value ∧
      field.nullable = !column.declaresNotNull := by
  simp only [bindColumnDef, ExceptRun.bind_eq_ok, ExceptRun.pure_eq_ok] at h
  obtain ⟨type, htype, rfl⟩ := h
  exact ⟨htype, rfl, rfl⟩

/-- A column arrives as declared just when its type survives and it says itself that it has no nulls where
it is part of the key. -/
theorem deliversColumn_iff {primaryKeys : List String} {column : ColumnDef} {field : ColumnField}
    (h : bindColumnDef column = .ok field) :
    DeliversColumn primaryKeys column field.throughArrow ↔
      column.dataType.Survives ∧ (column.name.value ∈ primaryKeys → column.declaresNotNull = true) := by
  obtain ⟨htype, hname, hnullable⟩ := bindColumnDef_eq_ok h
  have hsurvives := declared_throughArrow_iff htype
  constructor
  · intro hdelivers
    refine ⟨hsurvives.mp hdelivers.dataType, fun hkey => ?_⟩
    have hnull := hdelivers.nullable.mpr (.inr hkey)
    rw [ColumnField.throughArrow, hnullable] at hnull
    simpa using hnull
  · rintro ⟨htype, hkey⟩
    refine ⟨hname, hsurvives.mpr htype, ?_⟩
    rw [ColumnField.throughArrow, hnullable]
    constructor
    · intro hnull
      exact .inl (by simpa using hnull)
    · rintro (hdeclares | hmem)
      · simp [hdeclares]
      · simp [hkey hmem]

/-- Partition keys arrive when all of them are parts, or when nothing is left of them. -/
theorem partitionKeys_iff (names : List String) :
    (if listThroughArrow names = [] then names else listThroughArrow names) = names ↔
      (∀ name ∈ names, Text.IsPart name) ∨ ∀ name ∈ names, Text.IsBlank name := by
  rw [← Text.splitComma_joinComma_iff, ← Text.splitComma_joinComma_eq_nil_iff]
  change _ ↔ listThroughArrow names = names ∨ listThroughArrow names = []
  by_cases hempty : listThroughArrow names = []
  · simp [hempty]
  · simp [hempty]

theorem delivers_iff {create : CreateTable} {schema : TableSchema} (h : Binds create schema) :
    Delivers create schema.throughArrow ↔ Deliverable create := by
  have hcolumns : List.Forall₂ (DeliversColumn create.primaryKeys) create.columns schema.throughArrow.fields ↔
      ∀ column ∈ create.columns, column.dataType.Survives ∧
        (column.name.value ∈ create.primaryKeys → column.declaresNotNull = true) := by
    show List.Forall₂ _ create.columns (schema.fields.map ColumnField.throughArrow) ↔ _
    rw [List.forall₂_map_right_iff]
    have hbinds := h.columns
    generalize create.columns = columns at hbinds
    generalize schema.fields = fields at hbinds
    generalize create.primaryKeys = primaryKeys
    induction hbinds with
    | nil => simp
    | cons hcolumn _ ih =>
        rw [List.forall₂_cons, List.forall_mem_cons]
        exact and_congr (deliversColumn_iff hcolumn) ih
  constructor
  · intro hdelivers
    have hall := hcolumns.mp hdelivers.columns
    have hpartition := hdelivers.partitionKeys
    have hbucket := hdelivers.bucketKeys
    have hcluster := hdelivers.clusterKeys
    rw [← h.partitionKeys] at hpartition
    rw [← h.bucketKeys] at hbucket
    rw [← h.clusterKeys] at hcluster
    refine ⟨fun column hcolumn => (hall column hcolumn).1, fun column hcolumn => (hall column hcolumn).2, ?_, ?_,
      ?_⟩
    · rw [← h.partitionKeys]
      exact (partitionKeys_iff _).mp hpartition
    · rw [← h.bucketKeys]
      exact (Text.splitComma_joinComma_iff _).mp hbucket
    · rw [← h.clusterKeys]
      exact (Text.splitComma_joinComma_iff _).mp hcluster
  · intro hdeliverable
    refine ⟨hcolumns.mpr fun column hcolumn =>
        ⟨hdeliverable.types column hcolumn, hdeliverable.keys column hcolumn⟩, h.primaryKeys, ?_, ?_,
      h.bucketCount, h.bucketFunction, ?_⟩
    · have hparts := hdeliverable.partitionKeys
      rw [← h.partitionKeys] at hparts ⊢
      exact (partitionKeys_iff _).mpr hparts
    · have hparts := hdeliverable.bucketKeys
      rw [← h.bucketKeys] at hparts ⊢
      exact (Text.splitComma_joinComma_iff _).mpr hparts
    · have hparts := hdeliverable.clusterKeys
      rw [← h.clusterKeys] at hparts ⊢
      exact (Text.splitComma_joinComma_iff _).mpr hparts

/-- Every accepted statement is turned into a request, with its schema carried through Arrow. -/
theorem exists_createTableRequest {service : CatalogService} {session : PlanningSession} {create : CreateTable}
    {statement : CreateExternalTable} (h : bindCreateTableStatement service session create = .ok statement) :
    ∃ schema request, Binds create schema ∧ createTableRequest statement = .ok request ∧
      request.tableSchema = schema.throughArrow := by
  rw [bindCreateTableStatement] at h
  split_ifs at h
  simp only [ExceptRun.bind_eq_ok, ExceptRun.pure_eq_ok] at h
  obtain ⟨name, _, catalog, _, schema, hschema, arrow, harrow, _, _, constraints, hconstraints, hstatement⟩ := h
  have hbinds := bindTableSchema_eq_ok hschema
  have hdelivered : statementTableSchema statement = .ok schema.throughArrow := by
    rw [← hstatement]
    exact statementTableSchema_eq_ok hbinds (ExceptRun.mapError_eq_ok.mp harrow) rfl hconstraints
  refine ⟨schema, ⟨statement.name.database, statement.name.table, schema.throughArrow,
    if statement.location = "" then none else some statement.location, statement.options⟩, hbinds, ?_, rfl⟩
  rw [createTableRequest, hdelivered]
  rfl

/-- The catalog is handed the declared table just when it is deliverable. -/
theorem createTable_delivers_iff {service : CatalogService} {session : PlanningSession} {create : CreateTable}
    {statement : CreateExternalTable} (h : bindCreateTableStatement service session create = .ok statement) :
    (∃ request, createTableRequest statement = .ok request ∧ Delivers create request.tableSchema) ↔
      Deliverable create := by
  obtain ⟨schema, request, hbinds, hrequest, hschema⟩ := exists_createTableRequest h
  rw [← delivers_iff hbinds, ← hschema]
  constructor
  · rintro ⟨other, hother, hdelivers⟩
    rw [hrequest, Except.ok.injEq] at hother
    rw [hother]
    exact hdelivers
  · intro hdelivers
    exact ⟨request, hrequest, hdelivers⟩

/-- A service with one catalog. -/
def prodService : CatalogService :=
  ((CatalogService.fresh ⟨.empty⟩).createCatalog (CatalogService.catalogEntry 0 CatalogService.prod)).2

/-- An identifier without quotes. -/
def plainIdent (value : String) : Ident := ⟨value, none⟩

/-- `CREATE TABLE events (id BIGINT NOT NULL, day DATE NOT NULL, at TIMESTAMP, PRIMARY KEY (id, day))
PARTITIONED BY (day) DISTRIBUTED BY HASH(id) INTO 4 BUCKETS CLUSTER BY at`. -/
def eventsTable : CreateTable where
  name := ObjectName.ofIdents [plainIdent "events"]
  columns := [⟨plainIdent "id", .bigInt, [.notNull]⟩, ⟨plainIdent "day", .date, [.notNull]⟩,
    ⟨plainIdent "at", .timestamp none .none, []⟩]
  constraints := [.primaryKey [.identifier (plainIdent "id"), .identifier (plainIdent "day")]]
  partitionedBy := [plainIdent "day"]
  distributedBy := some ⟨[plainIdent "id"], some 4, some (plainIdent "hash")⟩
  clusterBy := some [.identifier (plainIdent "at")]
  tableOptions := []
  location := none

theorem deliverable_eventsTable : Deliverable eventsTable where
  types := by
    intro column hcolumn
    simp only [eventsTable, List.mem_cons, List.not_mem_nil, or_false] at hcolumn
    rcases hcolumn with rfl | rfl | rfl
    · trivial
    · trivial
    · exact .inl rfl
  keys := by decide +kernel
  partitionKeys := .inl (by decide +kernel)
  bucketKeys := by decide +kernel
  clusterKeys := by decide +kernel

theorem createTable_delivers_events :
    ∃ statement, bindCreateTableStatement prodService ⟨"prod", "default"⟩ eventsTable = .ok statement ∧
      ∃ request, createTableRequest statement = .ok request ∧ Delivers eventsTable request.tableSchema := by
  obtain ⟨statement, hstatement⟩ := ExceptRun.exists_of_isOk
    (show (bindCreateTableStatement prodService ⟨"prod", "default"⟩ eventsTable).isOk = true by decide +kernel)
  exact ⟨statement, hstatement, (createTable_delivers_iff hstatement).mpr deliverable_eventsTable⟩

/-- `CREATE TABLE users (id INT, PRIMARY KEY (id))`. -/
def usersTable : CreateTable where
  name := ObjectName.ofIdents [plainIdent "users"]
  columns := [⟨plainIdent "id", .int, []⟩]
  constraints := [.primaryKey [.identifier (plainIdent "id")]]
  partitionedBy := []
  distributedBy := none
  clusterBy := none
  tableOptions := []
  location := none

/-- The column of a key that is declared as a constraint stays nullable. -/
theorem not_createTable_delivers_users :
    ∃ statement, bindCreateTableStatement prodService ⟨"prod", "default"⟩ usersTable = .ok statement ∧
      ¬ ∃ request, createTableRequest statement = .ok request ∧ Delivers usersTable request.tableSchema := by
  obtain ⟨statement, hstatement⟩ := ExceptRun.exists_of_isOk
    (show (bindCreateTableStatement prodService ⟨"prod", "default"⟩ usersTable).isOk = true by decide +kernel)
  refine ⟨statement, hstatement, ?_⟩
  rintro ⟨other, hother, hdelivers⟩
  obtain ⟨schema, request, hbinds, hrequest, hschema⟩ := exists_createTableRequest hstatement
  rw [hrequest, Except.ok.injEq] at hother
  rw [← hother, hschema] at hdelivers
  have hkeys := ((delivers_iff hbinds).mp hdelivers).keys ⟨plainIdent "id", .int, []⟩ (by decide) (by decide)
  exact absurd hkeys (by decide)

end BrewDB.Catalog

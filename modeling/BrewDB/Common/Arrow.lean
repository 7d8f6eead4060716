import Mathlib

/-!
# Arrow values, fields and record batches

The part of the Arrow data model that planning and exchange routing look at. A batch is its schema
and its rows; column arrays are read off the rows.
-/

namespace BrewDB

/-- Time resolutions of Arrow's temporal types. -/
inductive TimeUnit where
  | second
  | millisecond
  | microsecond
  | nanosecond
deriving DecidableEq, Repr

/-- Arrow physical types (`arrow::datatypes::DataType`), as BrewDB's type mapping uses them. -/
inductive ArrowDataType where
  | boolean
  | int8
  | int16
  | int32
  | int64
  | float32
  | float64
  | binary
  | utf8
  | date32
  | time32 (unit : TimeUnit)
  | time64 (unit : TimeUnit)
  | timestamp (unit : TimeUnit) (timezone : Option String)
  | decimal128 (precision scale : ℕ)
deriving DecidableEq, Repr

/-- One cell. Floats, decimals and temporal values are carried by their integer encoding. -/
inductive Value where
  | null
  | boolean (value : Bool)
  | integer (value : Int)
  | string (value : String)
deriving DecidableEq, Repr

/-- One row: its cells in column order. -/
abbrev Row := List Value

/-- A named, typed column of an Arrow schema. -/
structure Field where
  name : String
  dataType : ArrowDataType
  nullable : Bool
deriving DecidableEq, Repr

/-- A cell value of this field's type. -/
def Field.admits (field : Field) : Value → Bool
  | .null => field.nullable
  | .boolean _ => field.dataType = .boolean
  | .integer _ => field.dataType ≠ .boolean && field.dataType ≠ .utf8 && field.dataType ≠ .binary
  | .string _ => field.dataType = .utf8 || field.dataType = .binary

/-- A row under a schema: one cell of the right type for every field. -/
def RowOf (schema : List Field) (row : Row) : Prop :=
  List.Forall₂ (fun field value => field.admits value = true) schema row

/-- Every field has a value. -/
theorem Field.exists_admits (field : Field) : ∃ value, field.admits value = true := by
  cases htype : field.dataType with
  | boolean => exact ⟨.boolean false, by simp [admits, htype]⟩
  | utf8 => exact ⟨.string "", by simp [admits, htype]⟩
  | binary => exact ⟨.string "", by simp [admits, htype]⟩
  | _ => exact ⟨.integer 0, by simp [admits, htype]⟩

/-- Every schema has a row. -/
theorem exists_rowOf (schema : List Field) : ∃ row, RowOf schema row := by
  induction schema with
  | nil => exact ⟨[], .nil⟩
  | cons field schema ih =>
      obtain ⟨value, hvalue⟩ := field.exists_admits
      obtain ⟨row, hrow⟩ := ih
      exact ⟨value :: row, .cons hvalue hrow⟩

/-- A record batch: a schema and the rows under it. -/
structure RecordBatch where
  schema : List Field
  rows : List Row
deriving DecidableEq, Repr

namespace RecordBatch

/-- The number of rows. -/
def numRows (batch : RecordBatch) : ℕ := batch.rows.length

/-- `Schema::index_of`: the position of the first field with this name. -/
def indexOf (schema : List Field) (name : String) : Option ℕ :=
  schema.findIdx? (·.name = name)

/-- A name has a position exactly when it is a field. -/
theorem exists_indexOf_iff {schema : List Field} {name : String} :
    (∃ index, indexOf schema name = some index) ↔ ∃ field ∈ schema, field.name = name := by
  rw [← Option.isSome_iff_exists, indexOf, List.findIdx?_isSome]
  simp

/-- The type and value of column `index` in one row. -/
def typedCell (schema : List Field) (index : ℕ) (row : Row) : Option ArrowDataType × Value :=
  ((schema[index]?).map (·.dataType), row.getD index .null)

/-- `filter_record_batch` with a per-row predicate. -/
def filterRows (batch : RecordBatch) (keep : Row → Bool) : RecordBatch :=
  { batch with rows := batch.rows.filter keep }

end RecordBatch

end BrewDB

import BrewDB.Common.Kleene
import BrewDB.Common.Arrow

/-!
# Filter pushdown to Paimon

Reference: `brewdb-storage/src/paimon/predicate.rs`.

A filter over a table is translated to a Paimon predicate, or left to DataFusion. Both are read under
SQL's three-valued logic, over values that forget the encoding: an integer, an unsigned or a decimal
is its number, a timestamp of any unit its nanoseconds. Floats are members of a linear order `F`, with
widening as the identity. Paimon's predicate functions and DataFusion's casts are parameters.
-/

namespace BrewDB

/-! ## Values -/

/-- What a scalar or a datum stands for. -/
inductive SqlValue (F : Type) where
  | boolean (value : Bool)
  | number (value : ℚ)
  | float (value : F)
  | string (value : String)
  | bytes (value : List UInt8)
  /-- Milliseconds since the epoch. -/
  | date (millis : ℤ)
  /-- Nanoseconds since midnight. -/
  | time (nanos : ℤ)
  /-- Nanoseconds since the epoch. -/
  | timestamp (nanos : ℤ)
deriving DecidableEq

/-- The order of two values of one kind; values of different kinds are not compared. -/
def SqlValue.compare {F : Type} [LinearOrder F] : SqlValue F → SqlValue F → Option Ordering
  | .boolean v, .boolean w => some (cmp v w)
  | .number v, .number w => some (cmp v w)
  | .float v, .float w => some (cmp v w)
  | .string v, .string w => some (cmp v w)
  | .bytes v, .bytes w => some (cmp (v.map UInt8.toNat) (w.map UInt8.toNat))
  | .date v, .date w => some (cmp v w)
  | .time v, .time w => some (cmp v w)
  | .timestamp v, .timestamp w => some (cmp v w)
  | _, _ => none

/-- DataFusion's `ScalarValue`; `other` stands for intervals, durations, nested and encoded values. -/
inductive ScalarValue (F : Type) where
  | null
  | boolean (value : Option Bool)
  | int8 (value : Option Int8)
  | int16 (value : Option Int16)
  | int32 (value : Option Int32)
  | int64 (value : Option Int64)
  | uint8 (value : Option UInt8)
  | uint16 (value : Option UInt16)
  | uint32 (value : Option UInt32)
  | uint64 (value : Option UInt64)
  | float16 (value : Option F)
  | float32 (value : Option F)
  | float64 (value : Option F)
  | decimal32 (value : Option Int32) (precision : UInt8) (scale : Int8)
  | decimal64 (value : Option Int64) (precision : UInt8) (scale : Int8)
  | decimal128 (value : Option (BitVec 128)) (precision : UInt8) (scale : Int8)
  | decimal256 (value : Option (BitVec 256)) (precision : UInt8) (scale : Int8)
  | utf8 (value : Option String)
  | utf8View (value : Option String)
  | largeUtf8 (value : Option String)
  | binary (value : Option (List UInt8))
  | binaryView (value : Option (List UInt8))
  | fixedSizeBinary (size : ℕ) (value : Option (List UInt8))
  | largeBinary (value : Option (List UInt8))
  | date32 (value : Option Int32)
  | date64 (value : Option Int64)
  | time32Second (value : Option Int32)
  | time32Millisecond (value : Option Int32)
  | time64Microsecond (value : Option Int64)
  | time64Nanosecond (value : Option Int64)
  | timestampSecond (value : Option Int64) (tz : Option String)
  | timestampMillisecond (value : Option Int64) (tz : Option String)
  | timestampMicrosecond (value : Option Int64) (tz : Option String)
  | timestampNanosecond (value : Option Int64) (tz : Option String)
  | other (value : Option (SqlValue F))

/-- The number an unscaled decimal stands for. -/
def decimalValue (unscaled scale : ℤ) : ℚ := unscaled * (10 : ℚ) ^ (-scale)

/-- The value of a scalar; `none` is NULL. -/
def ScalarValue.denote {F : Type} : ScalarValue F → Option (SqlValue F)
  | .null => none
  | .boolean value => value.map .boolean
  | .int8 value => value.map fun v => .number v.toInt
  | .int16 value => value.map fun v => .number v.toInt
  | .int32 value => value.map fun v => .number v.toInt
  | .int64 value => value.map fun v => .number v.toInt
  | .uint8 value => value.map fun v => .number v.toNat
  | .uint16 value => value.map fun v => .number v.toNat
  | .uint32 value => value.map fun v => .number v.toNat
  | .uint64 value => value.map fun v => .number v.toNat
  | .float16 value => value.map .float
  | .float32 value => value.map .float
  | .float64 value => value.map .float
  | .decimal32 value _ scale => value.map fun v => .number (decimalValue v.toInt scale.toInt)
  | .decimal64 value _ scale => value.map fun v => .number (decimalValue v.toInt scale.toInt)
  | .decimal128 value _ scale => value.map fun v => .number (decimalValue v.toInt scale.toInt)
  | .decimal256 value _ scale => value.map fun v => .number (decimalValue v.toInt scale.toInt)
  | .utf8 value => value.map .string
  | .utf8View value => value.map .string
  | .largeUtf8 value => value.map .string
  | .binary value => value.map .bytes
  | .binaryView value => value.map .bytes
  | .fixedSizeBinary _ value => value.map .bytes
  | .largeBinary value => value.map .bytes
  | .date32 value => value.map fun v => .date (v.toInt * 86400000)
  | .date64 value => value.map fun v => .date v.toInt
  | .time32Second value => value.map fun v => .time (v.toInt * 1000000000)
  | .time32Millisecond value => value.map fun v => .time (v.toInt * 1000000)
  | .time64Microsecond value => value.map fun v => .time (v.toInt * 1000)
  | .time64Nanosecond value => value.map fun v => .time v.toInt
  | .timestampSecond value _ => value.map fun v => .timestamp (v.toInt * 1000000000)
  | .timestampMillisecond value _ => value.map fun v => .timestamp (v.toInt * 1000000)
  | .timestampMicrosecond value _ => value.map fun v => .timestamp (v.toInt * 1000)
  | .timestampNanosecond value _ => value.map fun v => .timestamp v.toInt
  | .other value => value

/-- Paimon's `Datum`, its integers by their value. -/
inductive Datum (F : Type) where
  | bool (value : Bool)
  | tinyInt (value : ℤ)
  | smallInt (value : ℤ)
  | int (value : ℤ)
  | long (value : ℤ)
  | float (value : F)
  | double (value : F)
  | string (value : String)
  | date (days : ℤ)
  | time (millis : ℤ)
  | timestamp (millis nanos : ℤ)
  | decimal (unscaled : ℤ) (precision scale : ℕ)
  | bytes (value : List UInt8)

/-- The value of a datum. -/
def Datum.denote {F : Type} : Datum F → SqlValue F
  | .bool value => .boolean value
  | .tinyInt value => .number value
  | .smallInt value => .number value
  | .int value => .number value
  | .long value => .number value
  | .float value => .float value
  | .double value => .float value
  | .string value => .string value
  | .date days => .date (days * 86400000)
  | .time millis => .time (millis * 1000000)
  | .timestamp millis nanos => .timestamp (millis * 1000000 + nanos)
  | .decimal unscaled _ scale => .number (decimalValue unscaled scale)
  | .bytes value => .bytes value

/-- `as i32`, and `i32` arithmetic that wraps. -/
def asI32 (value : ℤ) : ℤ := value.bmod (2 ^ 32)

/-- A decimal datum; a negative scale has none. -/
def decimalDatum {F : Type} (unscaled : ℤ) (precision : UInt8) (scale : Int8) : Option (Datum F) :=
  if 0 ≤ scale.toInt then some (.decimal unscaled precision.toNat scale.toInt.toNat) else none

/-- `scalar_to_datum`. Rust's `/` and `%` round towards zero. -/
def scalarToDatum {F : Type} : ScalarValue F → Option (Datum F)
  | .boolean (some v) => some (.bool v)
  | .int8 (some v) => some (.tinyInt v.toInt)
  | .int16 (some v) => some (.smallInt v.toInt)
  | .int32 (some v) => some (.int v.toInt)
  | .int64 (some v) => some (.long v.toInt)
  | .uint8 (some v) => some (.long v.toNat)
  | .uint16 (some v) => some (.long v.toNat)
  | .uint32 (some v) => some (.long v.toNat)
  | .uint64 (some v) => if v.toNat < 2 ^ 63 then some (.long v.toNat) else none
  | .utf8 (some v) => some (.string v)
  | .utf8View (some v) => some (.string v)
  | .largeUtf8 (some v) => some (.string v)
  | .binary (some v) => some (.bytes v)
  | .binaryView (some v) => some (.bytes v)
  | .largeBinary (some v) => some (.bytes v)
  | .date32 (some v) => some (.date v.toInt)
  | .time32Millisecond (some v) => some (.time v.toInt)
  | .timestampMillisecond (some v) _ => some (.timestamp v.toInt 0)
  | .timestampMicrosecond (some v) _ =>
      some (.timestamp (v.toInt.tdiv 1000) (asI32 (v.toInt.tmod 1000 * 1000)))
  | .timestampNanosecond (some v) _ =>
      some (.timestamp (v.toInt.tdiv 1000000) (asI32 (v.toInt.tmod 1000000 * 1000)))
  | .decimal128 (some v) precision scale => decimalDatum v.toInt precision scale
  | .float16 (some v) => some (.double v)
  | .float32 (some v) => some (.float v)
  | .float64 (some v) => some (.double v)
  | .decimal32 (some v) precision scale => decimalDatum v.toInt precision scale
  | .decimal64 (some v) precision scale => decimalDatum v.toInt precision scale
  | .date64 (some v) => some (.date (asI32 (v.toInt.tdiv 86400000)))
  | .time32Second (some v) => some (.time (asI32 (v.toInt * 1000)))
  | .time64Microsecond (some v) => some (.time (asI32 (v.toInt.tdiv 1000)))
  | .time64Nanosecond (some v) => some (.time (asI32 (v.toInt.tdiv 1000000)))
  | .fixedSizeBinary _ (some v) => some (.bytes v)
  | _ => none

/-- The scalars whose datum has the same value: what is below the unit of the datum is zero, and the
datum's 32 bits suffice. -/
def ScalarValue.Representable {F : Type} : ScalarValue F → Prop
  | .date64 (some v) => (86400000 ∣ v.toInt) ∧
      -2 ^ 31 ≤ v.toInt.tdiv 86400000 ∧ v.toInt.tdiv 86400000 < 2 ^ 31
  | .time32Second (some v) => -2 ^ 31 ≤ v.toInt * 1000 ∧ v.toInt * 1000 < 2 ^ 31
  | .time64Microsecond (some v) => (1000 ∣ v.toInt) ∧
      -2 ^ 31 ≤ v.toInt.tdiv 1000 ∧ v.toInt.tdiv 1000 < 2 ^ 31
  | .time64Nanosecond (some v) => (1000000 ∣ v.toInt) ∧
      -2 ^ 31 ≤ v.toInt.tdiv 1000000 ∧ v.toInt.tdiv 1000000 < 2 ^ 31
  | .timestampNanosecond (some v) _ => 1000000 ∣ v.toInt
  | _ => True

/-! ## Filters -/

/-- The operators of a binary filter expression. -/
inductive FilterOperator where
  | and
  | or
  | eq
  | notEq
  | lt
  | ltEq
  | gt
  | gtEq
  | other (name : String)
deriving DecidableEq, Repr

/-- The values of a row by column name; `none` is NULL. -/
abbrev FilterRow (F : Type) := String → Option (SqlValue F)

/-- Filter expressions. `other` stands for every variant the translation does not look into, by its
meaning (`none` where it fails). -/
inductive FilterExpr (F : Type) where
  | column (relation : Option String) (name : String)
  | literal (value : ScalarValue F)
  | binaryExpr (left : FilterExpr F) (op : FilterOperator) (right : FilterExpr F)
  | not (expr : FilterExpr F)
  | isNull (expr : FilterExpr F)
  | isNotNull (expr : FilterExpr F)
  | between (expr : FilterExpr F) (negated : Bool) (low high : FilterExpr F)
  | inList (expr : FilterExpr F) (list : List (FilterExpr F)) (negated : Bool)
  | cast (expr : FilterExpr F) (dataType : ArrowDataType)
  | tryCast (expr : FilterExpr F) (dataType : ArrowDataType)
  | other (meaning : FilterRow F → Option (Option (SqlValue F)))

/-- Whether an order of two values satisfies a comparison. -/
def FilterOperator.holds : FilterOperator → Ordering → Bool
  | .eq, order => order == .eq
  | .notEq, order => order != .eq
  | .lt, order => order == .lt
  | .ltEq, order => order != .gt
  | .gt, order => order == .gt
  | .gtEq, order => order != .lt
  | _, _ => false

section Evaluation

variable {F : Type} [LinearOrder F]

/-- A comparison is unknown when a side is NULL. -/
def compareValues (op : FilterOperator) (left right : Option (SqlValue F)) : Kleene.Truth := do
  let order ← (← left).compare (← right)
  return op.holds order

/-- The truth of a value. -/
def truthOf : Option (SqlValue F) → Kleene.Truth
  | some (.boolean b) => some b
  | _ => none

/-- A truth value as a value. -/
def ofTruth (truth : Kleene.Truth) : Option (SqlValue F) := truth.map .boolean

omit [LinearOrder F] in
@[simp] theorem truthOf_ofTruth (truth : Kleene.Truth) :
    truthOf (ofTruth truth : Option (SqlValue F)) = truth := by
  cases truth <;> rfl

/-- Negate if asked. -/
def negateIf (negated : Bool) (truth : Kleene.Truth) : Kleene.Truth :=
  if negated then Kleene.neg truth else truth

/-- A binary operator on two values; the operators outside the list are not evaluated here. -/
def FilterOperator.apply (op : FilterOperator) (left right : Option (SqlValue F)) :
    Option (Option (SqlValue F)) :=
  match op with
  | .and => some (ofTruth (Kleene.conj (truthOf left) (truthOf right)))
  | .or => some (ofTruth (Kleene.disj (truthOf left) (truthOf right)))
  | .other _ => none
  | comparison => some (ofTruth (compareValues comparison left right))

/-- What a cast does to a value: `CAST` fails (`none`) or `TRY_CAST` yields NULL where a value has no
counterpart. -/
structure CastSemantics (F : Type) where
  cast : ArrowDataType → Option (SqlValue F) → Option (Option (SqlValue F))
  tryCast : ArrowDataType → Option (SqlValue F) → Option (SqlValue F)

variable (casts : CastSemantics F) (row : FilterRow F)

mutual
/-- The value of a filter expression on a row; `none` if the evaluation fails. -/
def FilterExpr.eval : FilterExpr F → Option (Option (SqlValue F))
  | .column _ name => some (row name)
  | .literal value => some value.denote
  | .binaryExpr left op right => do op.apply (← left.eval) (← right.eval)
  | .not expr => do return ofTruth (Kleene.neg (truthOf (← expr.eval)))
  | .isNull expr => do return ofTruth (some (← expr.eval).isNone)
  | .isNotNull expr => do return ofTruth (some (← expr.eval).isSome)
  | .between expr negated low high => do
      let value ← expr.eval
      let lower := compareValues .gtEq value (← low.eval)
      let upper := compareValues .ltEq value (← high.eval)
      return ofTruth (negateIf negated (Kleene.conj lower upper))
  | .inList expr list negated => do
      let value ← expr.eval
      let values ← FilterExpr.evalList list
      return ofTruth (negateIf negated (Kleene.any (values.map (compareValues .eq value))))
  | .cast expr dataType => do casts.cast dataType (← expr.eval)
  | .tryCast expr dataType => do return casts.tryCast dataType (← expr.eval)
  | .other meaning => meaning row

/-- The values of a list of expressions. -/
def FilterExpr.evalList : List (FilterExpr F) → Option (List (Option (SqlValue F)))
  | [] => some []
  | expr :: rest => do return (← expr.eval) :: (← evalList rest)
end

/-- The filter is TRUE on the row. -/
def FilterExpr.IsTrue (expr : FilterExpr F) : Prop :=
  ∃ value, expr.eval casts row = some value ∧ truthOf value = some true

end Evaluation

/-! ## Predicates -/

/-- The operators of Paimon's leaf predicates that the translation uses. -/
inductive PredicateOperator where
  | eq
  | notEq
  | lt
  | ltEq
  | gt
  | gtEq
  | isNull
  | isNotNull
  | isIn
  | isNotIn
deriving DecidableEq, Repr

/-- Paimon's `Predicate`. -/
inductive Predicate (F : Type) where
  | leaf (column : String) (op : PredicateOperator) (literals : List (Datum F))
  | and (children : List (Predicate F))
  | or (children : List (Predicate F))
  | not (child : Predicate F)
  | alwaysTrue
  | alwaysFalse

/-- The usual meaning of a leaf on the value of its column. A comparison has one literal. -/
def PredicateOperator.meaning {F : Type} [LinearOrder F] (op : PredicateOperator)
    (value : Option (SqlValue F)) (literals : List (Option (SqlValue F))) : Kleene.Truth :=
  let compareAll (comparison : FilterOperator) :=
    Kleene.all (literals.map (compareValues comparison value))
  let oneOf := Kleene.any (literals.map (compareValues .eq value))
  match op with
  | .eq => compareAll .eq
  | .notEq => compareAll .notEq
  | .lt => compareAll .lt
  | .ltEq => compareAll .ltEq
  | .gt => compareAll .gt
  | .gtEq => compareAll .gtEq
  | .isNull => some value.isNone
  | .isNotNull => some value.isSome
  | .isIn => oneOf
  | .isNotIn => Kleene.neg oneOf

/-- Paimon's predicate functions. A leaf is refused (`none`) for a column that is not a field or a
literal that does not suit it; otherwise leaves have their usual meaning, and `negate` is the SQL
negation. -/
structure PredicateApi (F : Type) [LinearOrder F] where
  DataField : Type
  /-- The methods of `PredicateBuilder`, with `.ok()`. -/
  leaf : List DataField → String → PredicateOperator → List (Datum F) → Option (Predicate F)
  and : List (Predicate F) → Predicate F
  or : List (Predicate F) → Predicate F
  negate : Predicate F → Predicate F
  eval : Predicate F → FilterRow F → Kleene.Truth
  eval_leaf : ∀ {fields column op literals predicate row},
    leaf fields column op literals = some predicate →
      eval predicate row = op.meaning (row column) (literals.map fun d => some d.denote)
  eval_and : ∀ {children row}, eval (and children) row = Kleene.all (children.map (eval · row))
  eval_or : ∀ {children row}, eval (or children) row = Kleene.any (children.map (eval · row))
  eval_negate : ∀ {child row}, eval (negate child) row = Kleene.neg (eval child row)

/-- The predicate accepts the row. -/
def PredicateApi.Accepts {F : Type} [LinearOrder F] (api : PredicateApi F) (predicate : Predicate F)
    (row : FilterRow F) : Prop :=
  api.eval predicate row = some true

/-! ## The translation -/

section Translation

variable {F : Type}

/-- `column_name`. -/
def columnName : FilterExpr F → Option String
  | .column _ name => some name
  | .cast expr _ => columnName expr
  | .tryCast expr _ => columnName expr
  | _ => none

/-- `literal_value`. -/
def literalValue : FilterExpr F → Option (Datum F)
  | .literal value => scalarToDatum value
  | .cast expr _ => literalValue expr
  | .tryCast expr _ => literalValue expr
  | _ => none

/-- `operator_to_predicate_operator`; it is called for comparisons only. -/
def operatorToPredicateOperator : FilterOperator → Option PredicateOperator
  | .eq => some .eq
  | .notEq => some .notEq
  | .lt => some .lt
  | .ltEq => some .ltEq
  | .gt => some .gt
  | .gtEq => some .gtEq
  | _ => none

/-- `reverse_operator`. -/
def reverseOperator : FilterOperator → Option PredicateOperator
  | .lt => some .gt
  | .ltEq => some .gtEq
  | .gt => some .lt
  | .gtEq => some .ltEq
  | op => operatorToPredicateOperator op

/-- A column on the first side and a literal on the second. -/
def columnAndLiteral (first second : FilterExpr F) (op : Option PredicateOperator) :
    Option (String × Datum F × PredicateOperator) := do
  return (← columnName first, ← literalValue second, ← op)

/-- `binary_comparison`. The source tries both sides once more for `=` and `<>`, with the same
outcome. -/
def binaryComparison (left : FilterExpr F) (op : FilterOperator) (right : FilterExpr F) :
    Option (String × Datum F × PredicateOperator) :=
  (columnAndLiteral left right (operatorToPredicateOperator op)).or <|
    (columnAndLiteral right left (reverseOperator op)).or <|
      if op = .eq ∨ op = .notEq then
        (columnAndLiteral left right (operatorToPredicateOperator op)).or
          (columnAndLiteral right left (reverseOperator op))
      else none

variable [LinearOrder F] (api : PredicateApi F) (fields : List api.DataField)

/-- `expr_to_predicate`. -/
def exprToPredicate : FilterExpr F → Option (Predicate F)
  | .binaryExpr left .and right => do
      return api.and [← exprToPredicate left, ← exprToPredicate right]
  | .binaryExpr left .or right => do
      return api.or [← exprToPredicate left, ← exprToPredicate right]
  | .binaryExpr _ (.other _) _ => none
  | .binaryExpr left op right => do
      let (field, literal, op) ← binaryComparison left op right
      api.leaf fields field op [literal]
  | .not expr => (exprToPredicate expr).map api.negate
  | .isNull expr => do api.leaf fields (← columnName expr) .isNull []
  | .isNotNull expr => do api.leaf fields (← columnName expr) .isNotNull []
  | .between expr negated low high => do
      let field ← columnName expr
      let lower ← literalValue low
      let upper ← literalValue high
      let lowerPred ← api.leaf fields field .gtEq [lower]
      let upperPred ← api.leaf fields field .ltEq [upper]
      let predicate := api.and [lowerPred, upperPred]
      return if negated then api.negate predicate else predicate
  | .inList expr list negated => do
      let field ← columnName expr
      let literals ← list.mapM literalValue
      api.leaf fields field (if negated then .isNotIn else .isIn) literals
  | .cast expr _ => exprToPredicate expr
  | .tryCast expr _ => exprToPredicate expr
  | _ => none

end Translation

mutual
/-- `predicate_uses_only_partition_keys`. -/
def predicateUsesOnlyPartitionKeys {F : Type} (partitionKeys : List String) : Predicate F → Bool
  | .leaf column _ _ => partitionKeys.any (· == column)
  | .and children => allUseOnlyPartitionKeys partitionKeys children
  | .or children => allUseOnlyPartitionKeys partitionKeys children
  | .not child => predicateUsesOnlyPartitionKeys partitionKeys child
  | .alwaysTrue => true
  | .alwaysFalse => true

/-- All predicates of a list do. -/
def allUseOnlyPartitionKeys {F : Type} (partitionKeys : List String) : List (Predicate F) → Bool
  | [] => true
  | predicate :: rest =>
      predicateUsesOnlyPartitionKeys partitionKeys predicate &&
        allUseOnlyPartitionKeys partitionKeys rest
end

/-- `filter_pushdown_status`. -/
def filterPushdownStatus {F : Type} [LinearOrder F] (api : PredicateApi F)
    (fields : List api.DataField) (partitionKeys : List String) (filter : FilterExpr F) :
    Option (Predicate F × Bool) := do
  let predicate ← exprToPredicate api fields filter
  return (predicate, predicateUsesOnlyPartitionKeys partitionKeys predicate)

/-! ## Soundness -/

section Literals

variable {F : Type}

theorem asI32_eq {value : ℤ} (hlow : -2 ^ 31 ≤ value) (hhigh : value < 2 ^ 31) : asI32 value = value :=
  Int.bmod_eq_of_le (by omega) (by omega)

theorem asI32_bounds (value : ℤ) : -2 ^ 31 ≤ asI32 value ∧ asI32 value < 2 ^ 31 := by
  have hlow := Int.le_bmod (x := value) (m := 2 ^ 32) (by decide)
  have hhigh := Int.bmod_lt (x := value) (m := 2 ^ 32) (by decide)
  rw [asI32]
  omega

/-- Rounding to a larger unit keeps a value exactly when nothing is lost. -/
theorem asI32_tdiv_mul_eq_iff {value unit : ℤ} (hunit : 0 < unit) :
    asI32 (value.tdiv unit) * unit = value ↔
      unit ∣ value ∧ -2 ^ 31 ≤ value.tdiv unit ∧ value.tdiv unit < 2 ^ 31 := by
  constructor
  · intro h
    have hdvd : unit ∣ value := ⟨_, by rw [mul_comm]; exact h.symm⟩
    have hdiv : value.tdiv unit = asI32 (value.tdiv unit) := by
      conv_lhs => rw [← h, Int.mul_tdiv_cancel _ hunit.ne']
    rw [hdiv]
    exact ⟨hdvd, asI32_bounds _⟩
  · rintro ⟨hdvd, hlow, hhigh⟩
    rw [asI32_eq hlow hhigh, Int.tdiv_mul_cancel hdvd]

theorem decimalDatum_denote {unscaled : ℤ} {precision : UInt8} {scale : Int8} {datum : Datum F}
    (h : decimalDatum unscaled precision scale = some datum) :
    datum.denote = .number (decimalValue unscaled scale.toInt) := by
  rw [decimalDatum, Option.ite_none_right_eq_some] at h
  obtain ⟨hscale, hdatum⟩ := h
  rw [← Option.some.inj hdatum, Datum.denote, Int.toNat_of_nonneg hscale]

/-- A timestamp in microseconds is split without loss. -/
theorem timestampMicrosecond_datum (value : ℤ) :
    value.tdiv 1000 * 1000000 + asI32 (value.tmod 1000 * 1000) = value * 1000 := by
  have hlow := Int.lt_tmod_of_pos value (b := 1000) (by decide)
  have hhigh := Int.tmod_lt_of_pos value (b := 1000) (by decide)
  have hsplit := Int.mul_tdiv_add_tmod value 1000
  rw [asI32_eq (by omega) (by omega)]
  omega

/-- The rest below a millisecond is taken for microseconds. -/
theorem timestampNanosecond_datum (value : ℤ) :
    value.tdiv 1000000 * 1000000 + asI32 (value.tmod 1000000 * 1000) = value ↔ 1000000 ∣ value := by
  have hlow := Int.lt_tmod_of_pos value (b := 1000000) (by decide)
  have hhigh := Int.tmod_lt_of_pos value (b := 1000000) (by decide)
  have hsplit := Int.mul_tdiv_add_tmod value 1000000
  rw [asI32_eq (by omega) (by omega), Int.dvd_iff_tmod_eq_zero]
  omega

/-- A literal keeps its value exactly when it is representable. -/
theorem denote_eq_iff_representable {value : ScalarValue F} {datum : Datum F}
    (h : scalarToDatum value = some datum) :
    value.denote = some datum.denote ↔ value.Representable := by
  cases value with
  | null => cases h
  | other v => cases h
  | timestampSecond v tz => cases h
  | decimal256 v precision scale => cases h
  -- the kinds that are rounded or narrowed
  | date64 v =>
      obtain - | v := v
      · cases h
      · obtain rfl := Option.some.inj h
        simp only [ScalarValue.denote, Datum.denote, Option.map_some, Option.some.injEq,
          SqlValue.date.injEq, ScalarValue.Representable]
        rw [eq_comm, asI32_tdiv_mul_eq_iff (by decide)]
  | time32Second v =>
      obtain - | v := v
      · cases h
      · obtain rfl := Option.some.inj h
        simp only [ScalarValue.denote, Datum.denote, Option.map_some, Option.some.injEq,
          SqlValue.time.injEq, ScalarValue.Representable]
        have hbounds := asI32_bounds (v.toInt * 1000)
        constructor
        · intro heq
          omega
        · rintro ⟨hlow, hhigh⟩
          rw [asI32_eq hlow hhigh]
          omega
  | time64Microsecond v =>
      obtain - | v := v
      · cases h
      · obtain rfl := Option.some.inj h
        simp only [ScalarValue.denote, Datum.denote, Option.map_some, Option.some.injEq,
          SqlValue.time.injEq, ScalarValue.Representable]
        rw [← asI32_tdiv_mul_eq_iff (by decide)]
        omega
  | time64Nanosecond v =>
      obtain - | v := v
      · cases h
      · obtain rfl := Option.some.inj h
        simp only [ScalarValue.denote, Datum.denote, Option.map_some, Option.some.injEq,
          SqlValue.time.injEq, ScalarValue.Representable]
        rw [eq_comm, asI32_tdiv_mul_eq_iff (by decide)]
  | timestampNanosecond v tz =>
      obtain - | v := v
      · cases h
      · obtain rfl := Option.some.inj h
        simp only [ScalarValue.denote, Datum.denote, Option.map_some, Option.some.injEq,
          SqlValue.timestamp.injEq, ScalarValue.Representable]
        rw [eq_comm, timestampNanosecond_datum]
  -- the kinds that keep their value
  | uint64 v =>
      obtain - | v := v
      · cases h
      · obtain ⟨-, hdatum⟩ := Option.ite_none_right_eq_some.mp h
        obtain rfl := Option.some.inj hdatum
        exact iff_of_true rfl trivial
  | decimal32 v precision scale =>
      obtain - | v := v
      · cases h
      · exact iff_of_true (congrArg some (decimalDatum_denote h).symm) trivial
  | decimal64 v precision scale =>
      obtain - | v := v
      · cases h
      · exact iff_of_true (congrArg some (decimalDatum_denote h).symm) trivial
  | decimal128 v precision scale =>
      obtain - | v := v
      · cases h
      · exact iff_of_true (congrArg some (decimalDatum_denote h).symm) trivial
  | timestampMillisecond v tz =>
      obtain - | v := v
      · cases h
      · obtain rfl := Option.some.inj h
        exact iff_of_true (by simp [ScalarValue.denote, Datum.denote]) trivial
  | timestampMicrosecond v tz =>
      obtain - | v := v
      · cases h
      · obtain rfl := Option.some.inj h
        refine iff_of_true ?_ trivial
        simp only [ScalarValue.denote, Datum.denote, Option.map_some, timestampMicrosecond_datum]
  | _ =>
      rename_i v
      obtain - | v := v
      · cases h
      · obtain rfl := Option.some.inj h
        exact iff_of_true rfl trivial

end Literals

section Conditions

variable {F : Type} [LinearOrder F] (casts : CastSemantics F) (row : FilterRow F)

mutual
/-- On the row, every cast leaves the value of its operand as it is. -/
def FilterExpr.CastsKeep : FilterExpr F → Prop
  | .column _ _ => True
  | .literal _ => True
  | .binaryExpr left _ right => left.CastsKeep ∧ right.CastsKeep
  | .not expr => expr.CastsKeep
  | .isNull expr => expr.CastsKeep
  | .isNotNull expr => expr.CastsKeep
  | .between expr _ low high => expr.CastsKeep ∧ low.CastsKeep ∧ high.CastsKeep
  | .inList expr list _ => expr.CastsKeep ∧ FilterExpr.AllCastsKeep list
  | .cast expr dataType => expr.CastsKeep ∧
      ∀ value, expr.eval casts row = some value → casts.cast dataType value = some value
  | .tryCast expr dataType => expr.CastsKeep ∧
      ∀ value, expr.eval casts row = some value → casts.tryCast dataType value = value
  | .other _ => True

/-- In every expression of a list. -/
def FilterExpr.AllCastsKeep : List (FilterExpr F) → Prop
  | [] => True
  | expr :: rest => expr.CastsKeep ∧ FilterExpr.AllCastsKeep rest
end

mutual
/-- Every literal is representable as a datum. -/
def FilterExpr.LiteralsRepresentable {F : Type} : FilterExpr F → Prop
  | .column _ _ => True
  | .literal value => value.Representable
  | .binaryExpr left _ right => left.LiteralsRepresentable ∧ right.LiteralsRepresentable
  | .not expr => expr.LiteralsRepresentable
  | .isNull expr => expr.LiteralsRepresentable
  | .isNotNull expr => expr.LiteralsRepresentable
  | .between expr _ low high =>
      expr.LiteralsRepresentable ∧ low.LiteralsRepresentable ∧ high.LiteralsRepresentable
  | .inList expr list _ => expr.LiteralsRepresentable ∧ FilterExpr.AllLiteralsRepresentable list
  | .cast expr _ => expr.LiteralsRepresentable
  | .tryCast expr _ => expr.LiteralsRepresentable
  | .other _ => True

/-- In every expression of a list. -/
def FilterExpr.AllLiteralsRepresentable {F : Type} : List (FilterExpr F) → Prop
  | [] => True
  | expr :: rest => expr.LiteralsRepresentable ∧ FilterExpr.AllLiteralsRepresentable rest
end

end Conditions

section Soundness

variable {F : Type} [LinearOrder F] {casts : CastSemantics F} {row : FilterRow F}

/-- What the translation of an expression to a predicate is to mean. -/
def SameTruth (casts : CastSemantics F) (row : FilterRow F) (expr : FilterExpr F)
    (truth : Kleene.Truth) : Prop :=
  ∃ value, expr.eval casts row = some value ∧ truthOf value = truth

variable {api : PredicateApi F} {fields : List api.DataField}

end Soundness

/-! ## A small table -/

mutual
/-- Predicates under three-valued logic. -/
def Predicate.truth {F : Type} [LinearOrder F] (row : FilterRow F) : Predicate F → Kleene.Truth
  | .leaf column op literals => op.meaning (row column) (literals.map fun d => some d.denote)
  | .and children => Kleene.all (Predicate.truths row children)
  | .or children => Kleene.any (Predicate.truths row children)
  | .not child => Kleene.neg (child.truth row)
  | .alwaysTrue => some true
  | .alwaysFalse => some false

/-- The truth values of a list of predicates. -/
def Predicate.truths {F : Type} [LinearOrder F] (row : FilterRow F) :
    List (Predicate F) → List Kleene.Truth
  | [] => []
  | predicate :: rest => predicate.truth row :: Predicate.truths row rest
end

theorem Predicate.truths_eq_map {F : Type} [LinearOrder F] (row : FilterRow F)
    (predicates : List (Predicate F)) :
    Predicate.truths row predicates = predicates.map (Predicate.truth row) := by
  induction predicates with
  | nil => simp [Predicate.truths]
  | cons predicate predicates ih => simp [Predicate.truths, ih]

/-- Predicates as they are written, over fields known by name. -/
def Sample.predicateApi : PredicateApi ℤ where
  DataField := String
  leaf fields column op literals :=
    if column ∈ fields then some (.leaf column op literals) else none
  and := .and
  or := .or
  negate := .not
  eval predicate row := predicate.truth row
  eval_leaf {fields column op literals predicate row} h := by
    obtain ⟨-, hpredicate⟩ := Option.ite_none_right_eq_some.mp h
    rw [← Option.some.inj hpredicate, Predicate.truth]
  eval_and {children row} := by rw [Predicate.truth, Predicate.truths_eq_map]
  eval_or {children row} := by rw [Predicate.truth, Predicate.truths_eq_map]
  eval_negate {child row} := by rw [Predicate.truth]

/-- Casts between number types that keep the number. -/
def Sample.casts : CastSemantics ℤ where
  cast _ value := some value
  tryCast _ value := value

/-- `ts = <nanoseconds>`. -/
def Sample.atNanosecond (nanos : Int64) : FilterExpr ℤ :=
  .binaryExpr (.column none "ts") .eq (.literal (.timestampNanosecond (some nanos) none))

/-- A row whose `ts` is so many nanoseconds after the epoch. -/
def Sample.rowAt (nanos : ℤ) : FilterRow ℤ :=
  fun name => if name = "ts" then some (.timestamp nanos) else none

end BrewDB

import BrewDB.Frontend.Wire

/-!
# The text of a cell

Reference: `array_value_as_text`, `oid_for_type` and `write_query_result` of `brewdb-frontend/src/pgwire.rs`, on the
columns of `DataType::to_arrow_data_type` and on lists of them.

A client takes the text of a cell for its value, in the way that the announced type reads it. What PostgreSQL reads
is written down here for the types that are ever announced; how it reads a double is a parameter, and so is
everything that Arrow prints.
-/

namespace BrewDB.PgWire

/-! ## Columns -/

/-- The type of a column: one that a table can have, or a list of one, as aggregate functions return it. -/
inductive ColumnType where
  | scalar (type : ArrowDataType)
  | list (element : ArrowDataType)
deriving DecidableEq, Repr

/-- What stands in a cell; the items of a list may be null, and so may a list. -/
def ColumnType.Cell : ColumnType → Type
  | .scalar _ => Value
  | .list _ => Option (List Value)

/-- The null cell. -/
def ColumnType.null : (type : ColumnType) → type.Cell
  | .scalar _ => Value.null
  | .list _ => (none : Option (List Value))

/-- The bits of a number of this type, where two's complement says all. -/
def numberBits : ArrowDataType → Option ℕ
  | .int8 => some 8
  | .int16 => some 16
  | .int32 => some 32
  | .int64 => some 64
  | .date32 => some 32
  | .time32 _ => some 32
  | .time64 _ => some 64
  | .timestamp _ _ => some 64
  | .decimal128 _ _ => some 128
  | .boolean => none
  | .float32 => none
  | .float64 => none
  | .binary => none
  | .utf8 => none

/-- A number of so many bits. -/
def InBits (bits : ℕ) (n : ℤ) : Prop := -2 ^ (bits - 1) ≤ n ∧ n < 2 ^ (bits - 1)

instance (bits : ℕ) (n : ℤ) : Decidable (InBits bits n) := inferInstanceAs (Decidable (_ ∧ _))

/-- The encoding of a float; what is not a number is one value, and has one encoding. -/
def IsFloat (exponent mantissa : ℕ) (n : ℤ) : Prop :=
  (0 ≤ n ∧ n < 2 ^ (1 + exponent + mantissa)) ∧
    (n / 2 ^ mantissa % 2 ^ exponent = 2 ^ exponent - 1 ∧ n % 2 ^ mantissa ≠ 0 →
      n = (2 ^ exponent - 1) * 2 ^ mantissa + 2 ^ (mantissa - 1))

instance (exponent mantissa : ℕ) (n : ℤ) : Decidable (IsFloat exponent mantissa n) :=
  inferInstanceAs (Decidable (_ ∧ (_ → _)))

/-- An integer that a column of this type can hold. -/
def HoldsInteger (type : ArrowDataType) (n : ℤ) : Prop :=
  if type = .float32 then IsFloat 8 23 n
  else if type = .float64 then IsFloat 11 52 n
  else ∃ bits ∈ numberBits type, InBits bits n

/-- A value that a column of this type can hold. -/
def HoldsValue (type : ArrowDataType) : Value → Prop
  | .null => True
  | .boolean _ => type = .boolean
  | .integer n => HoldsInteger type n
  | .string _ => type = .utf8 ∨ type = .binary

/-- A cell that a column of this type can hold. -/
def Holds : (type : ColumnType) → type.Cell → Prop
  | .scalar type, (value : Value) => HoldsValue type value
  | .list element, (items : Option (List Value)) => ∀ values ∈ items, ∀ value ∈ values, HoldsValue element value

/-! ## The server -/

/-- How Arrow prints, lists included. -/
structure ArrowPrinter extends ArrowText where
  /-- `DataType::to_string`, of a list. -/
  listType : ArrowDataType → String
  /-- The debug form of an array of lists. -/
  debugLists : ArrowDataType → List (Option (List Value)) → String

section

variable (printer : ArrowPrinter)

/-- `DataType::to_string`. -/
def ArrowPrinter.typeName : ColumnType → String
  | .scalar type => printer.dataType type
  | .list element => printer.listType element

/-- `array_value_as_text`; no array of lists is one of the five that it knows. -/
def cellText : (type : ColumnType) → List type.Cell → ℕ → Option String
  | .scalar type, column, row => arrayValueAsText printer.toArrowText type column row
  | .list element, column, row =>
      match column.getD row (none : Option (List Value)) with
      | none => none
      | some _ => some (printer.debugLists element column)

/-! ## PostgreSQL -/

/-- `boolin`. -/
def booleanInput (text : String) : Option Bool :=
  if text.toLower ∈ ["t", "tr", "tru", "true", "y", "ye", "yes", "on", "1"] then some true
  else if text.toLower ∈ ["f", "fa", "fal", "fals", "false", "n", "no", "of", "off", "0"] then some false
  else none

/-- `int4in` and `int8in`, of decimal digits. -/
def integerInput (bits : ℕ) (text : String) : Option ℤ := text.toInt?.filter fun n => decide (InBits bits n)

/-- The value that the type with this OID reads. -/
def postgresInput (float8 : String → Option ℤ) (oid : Int32) (text : String) : Option Value :=
  if oid = 16 then (booleanInput text).map .boolean
  else if oid = 20 then (integerInput 64 text).map .integer
  else if oid = 23 then (integerInput 32 text).map .integer
  else if oid = 701 then (float8 text).map .integer
  else if oid = 25 then some (.string text)
  else none

/-- What was read is the cell; none of these types reads a list. -/
def ReadsAs : (type : ColumnType) → Option Value → type.Cell → Prop
  | .scalar _, value, (cell : Value) => value = some cell
  | .list _, _, _ => False

/-! ## Text and value -/

/-- The text of a cell stands for its value, in all columns of this type. -/
structure TextIsValue (float8 : String → Option ℤ) (type : ColumnType) : Prop where
  /-- Two cells have one text if and only if they have one value. -/
  same : ∀ (first second : List type.Cell), (∀ cell ∈ first, Holds type cell) → (∀ cell ∈ second, Holds type cell) →
    ∀ (i j : ℕ) (hi : i < first.length) (hj : j < second.length),
      cellText printer type first i = cellText printer type second j ↔ first[i] = second[j]
  /-- The announced type reads the text of a cell as its value. -/
  accepted : ∀ column : List type.Cell, (∀ cell ∈ column, Holds type cell) →
    ∀ (i : ℕ) (hi : i < column.length) (text : String), cellText printer type column i = some text →
      ReadsAs type (postgresInput float8 (oidForType (printer.typeName type)) text) column[i]

/-- The names that Arrow has for the types that `array_value_as_text` knows. -/
structure ArrowNames : Prop where
  boolean : printer.dataType .boolean = "Boolean"
  int32 : printer.dataType .int32 = "Int32"
  int64 : printer.dataType .int64 = "Int64"
  float64 : printer.dataType .float64 = "Float64"
  utf8 : printer.dataType .utf8 = "Utf8"

/-- The types of the arrays that `array_value_as_text` knows. -/
def knownTypes : List ArrowDataType := [.int32, .int64, .boolean, .float64, .utf8]

variable {printer}

/-! ### The types it knows -/

theorem integerInput_toString {bits : ℕ} {n : ℤ} (h : InBits bits n) : integerInput bits (toString n) = some n := by
  have hparse : (toString n).toInt? = some n := Int.toInt?_repr n
  rw [integerInput, hparse, Option.filter_some, if_pos (decide_eq_true h)]

/-- What a known type holds. -/
inductive KnownValue : ArrowDataType → Value → Prop
  | int32 (n : ℤ) (h : InBits 32 n) : KnownValue .int32 (.integer n)
  | int64 (n : ℤ) (h : InBits 64 n) : KnownValue .int64 (.integer n)
  | boolean (b : Bool) : KnownValue .boolean (.boolean b)
  | float64 (n : ℤ) (h : IsFloat 11 52 n) : KnownValue .float64 (.integer n)
  | utf8 (s : String) : KnownValue .utf8 (.string s)

theorem knownValue_of_holds {type : ArrowDataType} (htype : type ∈ knownTypes) {value : Value}
    (hvalue : HoldsValue type value) (hnull : value ≠ .null) : KnownValue type value := by
  rw [knownTypes] at htype
  simp only [List.mem_cons, List.not_mem_nil, or_false] at htype
  cases value with
  | null => exact absurd rfl hnull
  | boolean b =>
      obtain rfl : type = .boolean := hvalue
      exact .boolean b
  | integer n =>
      rcases htype with rfl | rfl | rfl | rfl | rfl
      · obtain ⟨bits, hbits, hn⟩ := hvalue
        cases hbits
        exact .int32 n hn
      · obtain ⟨bits, hbits, hn⟩ := hvalue
        cases hbits
        exact .int64 n hn
      · obtain ⟨bits, hbits, -⟩ := hvalue
        cases hbits
      · exact .float64 n hvalue
      · obtain ⟨bits, hbits, -⟩ := hvalue
        cases hbits
  | string s =>
      have htext : type = .utf8 ∨ type = .binary := hvalue
      rcases htext with rfl | rfl
      · exact .utf8 s
      · simp at htype

theorem booleanInput_toString (b : Bool) : booleanInput (toString b) = some b := by
  cases b with
  | true => decide +kernel
  | false => decide +kernel

/-- A value of a known type has a text that does not depend on the column, and that its announced type reads. -/
theorem arrayValueAsText_of_known (hnames : ArrowNames printer) {float8 : String → Option ℤ}
    (hfloat : ∀ bits, IsFloat 11 52 bits → float8 (printer.float64 bits) = some bits) {type : ArrowDataType}
    {value : Value} (hvalue : KnownValue type value) :
    ∃ text, (∀ (column : List Value) (row : ℕ), column.getD row .null = value →
        arrayValueAsText printer.toArrowText type column row = some text) ∧
      postgresInput float8 (oidForType (printer.dataType type)) text = some value := by
  cases hvalue with
  | int32 n h =>
      have hoid : oidForType "Int32" = 23 := by decide +kernel
      have hread : postgresInput float8 23 (toString n) = (integerInput 32 (toString n)).map .integer := rfl
      refine ⟨toString n, fun column row hrow => ?_, ?_⟩
      · unfold arrayValueAsText
        rw [hrow]
      · rw [hnames.int32, hoid, hread, integerInput_toString h, Option.map_some]
  | int64 n h =>
      have hoid : oidForType "Int64" = 20 := by decide +kernel
      have hread : postgresInput float8 20 (toString n) = (integerInput 64 (toString n)).map .integer := rfl
      refine ⟨toString n, fun column row hrow => ?_, ?_⟩
      · unfold arrayValueAsText
        rw [hrow]
      · rw [hnames.int64, hoid, hread, integerInput_toString h, Option.map_some]
  | boolean b =>
      have hoid : oidForType "Boolean" = 16 := by decide +kernel
      have hread : postgresInput float8 16 (toString b) = (booleanInput (toString b)).map .boolean := rfl
      refine ⟨toString b, fun column row hrow => ?_, ?_⟩
      · unfold arrayValueAsText
        rw [hrow]
      · rw [hnames.boolean, hoid, hread, booleanInput_toString, Option.map_some]
  | float64 n h =>
      have hoid : oidForType "Float64" = 701 := by decide +kernel
      have hread : postgresInput float8 701 (printer.float64 n) = (float8 (printer.float64 n)).map .integer := rfl
      refine ⟨printer.float64 n, fun column row hrow => ?_, ?_⟩
      · unfold arrayValueAsText
        rw [hrow]
      · rw [hnames.float64, hoid, hread, hfloat n h, Option.map_some]
  | utf8 s =>
      have hoid : oidForType "Utf8" = 25 := by decide +kernel
      refine ⟨s, fun column row hrow => ?_, ?_⟩
      · unfold arrayValueAsText
        rw [hrow]
      · rw [hnames.utf8, hoid]
        rfl

/-- A null has no text. -/
theorem arrayValueAsText_null {text : ArrowText} {type : ArrowDataType} {column : List Value} {row : ℕ}
    (h : column.getD row .null = .null) : arrayValueAsText text type column row = none := by
  unfold arrayValueAsText
  rw [h]

/-- What is read back tells two texts apart. -/
theorem textIsValue_of_known (hnames : ArrowNames printer) {float8 : String → Option ℤ}
    (hfloat : ∀ bits, IsFloat 11 52 bits → float8 (printer.float64 bits) = some bits) {type : ArrowDataType}
    (htype : type ∈ knownTypes) : TextIsValue printer float8 (.scalar type) where
  same := by
    intro (first : List Value) (second : List Value) hfirst hsecond i j (hi : i < first.length)
      (hj : j < second.length)
    show arrayValueAsText _ _ _ _ = arrayValueAsText _ _ _ _ ↔ first[i] = second[j]
    have hrow : first.getD i .null = first[i] := List.getD_eq_getElem _ _ hi
    have hrow' : second.getD j .null = second[j] := List.getD_eq_getElem _ _ hj
    -- A null has no text, and any other value is read back from its own.
    by_cases hnull : first[i] = .null
    · rw [arrayValueAsText_null (hrow.trans hnull), hnull]
      by_cases hnull' : second[j] = .null
      · rw [arrayValueAsText_null (hrow'.trans hnull'), hnull']
        exact iff_of_true rfl rfl
      · obtain ⟨text, htext, -⟩ := arrayValueAsText_of_known hnames hfloat
          (knownValue_of_holds htype (hsecond _ (List.getElem_mem hj)) hnull')
        rw [htext second j hrow']
        exact iff_of_false nofun (Ne.symm hnull')
    · obtain ⟨text, htext, hread⟩ := arrayValueAsText_of_known hnames hfloat
        (knownValue_of_holds htype (hfirst _ (List.getElem_mem hi)) hnull)
      rw [htext first i hrow]
      constructor
      · intro heq
        by_cases hnull' : second[j] = .null
        · rw [arrayValueAsText_null (hrow'.trans hnull')] at heq
          cases heq
        · obtain ⟨text', htext', hread'⟩ := arrayValueAsText_of_known hnames hfloat
            (knownValue_of_holds htype (hsecond _ (List.getElem_mem hj)) hnull')
          rw [htext' second j hrow'] at heq
          rw [Option.some.inj heq, hread'] at hread
          exact (Option.some.inj hread).symm
      · intro heq
        exact (htext second j (hrow'.trans heq.symm)).symm
  accepted := by
    intro (column : List Value) hcolumn i (hi : i < column.length) text htext
    show postgresInput _ _ _ = some column[i]
    have hrow : column.getD i .null = column[i] := List.getD_eq_getElem _ _ hi
    have hcell : arrayValueAsText printer.toArrowText type column i = some text := htext
    by_cases hnull : column[i] = .null
    · rw [arrayValueAsText_null (hrow.trans hnull)] at hcell
      cases hcell
    · obtain ⟨text', htext', hread⟩ := arrayValueAsText_of_known hnames hfloat
        (knownValue_of_holds htype (hcolumn _ (List.getElem_mem hi)) hnull)
      rw [htext' column i hrow] at hcell
      rw [← Option.some.inj hcell]
      exact hread

/-! ### All other types -/

/-- Two values of a type, neither of which is null. -/
theorem exists_two_values {type : ArrowDataType} (htype : type ∉ knownTypes) :
    ∃ first second : Value, first ≠ second ∧ first ≠ .null ∧ second ≠ .null ∧ HoldsValue type first ∧
      HoldsValue type second := by
  have hnumbers (h : HoldsInteger type 0) (h' : HoldsInteger type 1) :
      ∃ first second : Value, first ≠ second ∧ first ≠ .null ∧ second ≠ .null ∧ HoldsValue type first ∧
        HoldsValue type second := ⟨.integer 0, .integer 1, by decide, nofun, nofun, h, h'⟩
  cases type with
  | int8 => exact hnumbers ⟨8, rfl, by decide⟩ ⟨8, rfl, by decide⟩
  | int16 => exact hnumbers ⟨16, rfl, by decide⟩ ⟨16, rfl, by decide⟩
  | float32 =>
      have hzero : IsFloat 8 23 0 := by decide
      have hone : IsFloat 8 23 1 := by decide
      exact hnumbers hzero hone
  | binary => exact ⟨.string "", .string "a", by decide, nofun, nofun, .inr rfl, .inr rfl⟩
  | date32 => exact hnumbers ⟨32, rfl, by decide⟩ ⟨32, rfl, by decide⟩
  | time32 unit => exact hnumbers ⟨32, rfl, by decide⟩ ⟨32, rfl, by decide⟩
  | time64 unit => exact hnumbers ⟨64, rfl, by decide⟩ ⟨64, rfl, by decide⟩
  | timestamp unit timezone => exact hnumbers ⟨64, rfl, by decide⟩ ⟨64, rfl, by decide⟩
  | decimal128 precision scale => exact hnumbers ⟨128, rfl, by decide⟩ ⟨128, rfl, by decide⟩
  | int32 => exact absurd (by decide) htype
  | int64 => exact absurd (by decide) htype
  | boolean => exact absurd (by decide) htype
  | float64 => exact absurd (by decide) htype
  | utf8 => exact absurd (by decide) htype

/-- The text of a cell of any other type is that of the whole array. -/
theorem arrayValueAsText_of_unknown {text : ArrowText} {type : ArrowDataType} (htype : type ∉ knownTypes)
    {column : List Value} {row : ℕ} (h : column.getD row .null ≠ .null) :
    arrayValueAsText text type column row = some (text.debug type column) := by
  unfold arrayValueAsText
  split
  · rename_i hrow
    exact absurd hrow h
  · exact absurd (by decide) htype
  · exact absurd (by decide) htype
  · exact absurd (by decide) htype
  · exact absurd (by decide) htype
  · exact absurd (by decide) htype
  · rfl

/-- Two rows of one array have one text. -/
theorem not_textIsValue_of_unknown {float8 : String → Option ℤ} {type : ArrowDataType} (htype : type ∉ knownTypes) :
    ¬ TextIsValue printer float8 (.scalar type) := by
  intro h
  obtain ⟨first, second, hne, hfirst, hsecond, hholds, hholds'⟩ := exists_two_values htype
  have hcolumn : ∀ cell ∈ [first, second], HoldsValue type cell := by
    intro cell hcell
    simp only [List.mem_cons, List.not_mem_nil, or_false] at hcell
    rcases hcell with rfl | rfl
    · exact hholds
    · exact hholds'
  refine hne ((h.same [first, second] [first, second] hcolumn hcolumn 0 1 Nat.two_pos Nat.one_lt_two).mp ?_)
  have htext : cellText printer (.scalar type) [first, second] 0 = some (printer.debug type [first, second]) :=
    arrayValueAsText_of_unknown htype hfirst
  have htext' : cellText printer (.scalar type) [first, second] 1 = some (printer.debug type [first, second]) :=
    arrayValueAsText_of_unknown htype hsecond
  exact htext.trans htext'.symm

/-- Two lists of one array have one text. -/
theorem not_textIsValue_list {float8 : String → Option ℤ} (element : ArrowDataType) :
    ¬ TextIsValue printer float8 (.list element) := by
  intro h
  have hcolumn : ∀ cell ∈ ([some [], some [.null]] : List (Option (List Value))),
      Holds (.list element) cell := by
    intro cell hcell items hitems value hvalue
    simp only [List.mem_cons, List.not_mem_nil, or_false] at hcell
    rcases hcell with rfl | rfl
    · cases hitems
      cases hvalue
    · cases hitems
      obtain rfl := List.mem_singleton.mp hvalue
      exact trivial
  have hsame := (h.same [some [], some [.null]] [some [], some [.null]] hcolumn hcolumn 0 1 Nat.two_pos
    Nat.one_lt_two).mp rfl
  have hlists : (some [] : Option (List Value)) = some [.null] := hsame
  exact absurd hlists (by decide)

/-! ### Which columns are read back -/

/-- The text of a cell stands for its value in the columns that `array_value_as_text` knows, and in no others. -/
theorem textIsValue_iff (hnames : ArrowNames printer) {float8 : String → Option ℤ}
    (hfloat : ∀ bits, IsFloat 11 52 bits → float8 (printer.float64 bits) = some bits) (type : ColumnType) :
    TextIsValue printer float8 type ↔ ∃ known ∈ knownTypes, type = .scalar known := by
  constructor
  · intro h
    cases type with
    | scalar type =>
        by_cases htype : type ∈ knownTypes
        · exact ⟨type, htype, rfl⟩
        · exact absurd h (not_textIsValue_of_unknown htype)
    | list element => exact absurd h (not_textIsValue_list element)
  · rintro ⟨known, hknown, rfl⟩
    exact textIsValue_of_known hnames hfloat hknown

end

/-! ### A column of small integers -/

namespace Sample

/-- The name of a type, as Arrow prints it, without the details of units. -/
def typeName : ArrowDataType → String
  | .boolean => "Boolean"
  | .int8 => "Int8"
  | .int16 => "Int16"
  | .int32 => "Int32"
  | .int64 => "Int64"
  | .float32 => "Float32"
  | .float64 => "Float64"
  | .binary => "Binary"
  | .utf8 => "Utf8"
  | .date32 => "Date32"
  | .time32 _ => "Time32"
  | .time64 _ => "Time64"
  | .timestamp _ _ => "Timestamp"
  | .decimal128 _ _ => "Decimal128"

/-- An item in the debug form of an array. -/
def debugItem : Value → String
  | .null => "  null,\n"
  | .boolean b => "  " ++ toString b ++ ",\n"
  | .integer n => "  " ++ toString n ++ ",\n"
  | .string s => "  " ++ s ++ ",\n"

/-- The double 1.0 and the integer 1 change places, so that the first is printed as the second. -/
def one : Equiv.Perm ℤ := Equiv.swap 1 4607182418800017408

/-- A printer for short arrays; of the doubles, 1.0 is printed as it is. -/
def printer : ArrowPrinter where
  dataType := typeName
  float64 n := toString (one n)
  debug type column :=
    "PrimitiveArray<" ++ typeName type ++ ">\n[\n" ++ String.join (column.map debugItem) ++ "]"
  listType element := "List(" ++ typeName element ++ ")"
  debugLists _ column := "ListArray\n[\n" ++ String.join (column.map fun _ => "  list,\n") ++ "]"

/-- The reader that goes with it. -/
def float8 (text : String) : Option ℤ := text.toInt?.map one

end Sample

/-- The condition at a column of doubles. -/
theorem textIsValue_iff_float64 :
    TextIsValue Sample.printer Sample.float8 (.scalar .float64) ↔
      ∃ known ∈ knownTypes, ColumnType.scalar .float64 = .scalar known := by
  refine textIsValue_iff ⟨rfl, rfl, rfl, rfl, rfl⟩ (fun bits _ => ?_) (.scalar .float64)
  have hparse : (toString (Sample.one bits)).toInt? = some (Sample.one bits) := Int.toInt?_repr _
  show (toString (Sample.one bits)).toInt?.map Sample.one = some bits
  rw [hparse, Option.map_some, Sample.one, Equiv.swap_apply_self]

/-- The rows 1 and 2 of a column of 16-bit integers both have the text of the whole column. -/
theorem not_textIsValue_int16 :
    cellText Sample.printer (.scalar .int16) [Value.integer 1, Value.integer 2] 0 =
        some "PrimitiveArray<Int16>\n[\n  1,\n  2,\n]" ∧
      cellText Sample.printer (.scalar .int16) [Value.integer 1, Value.integer 2] 1 =
        some "PrimitiveArray<Int16>\n[\n  1,\n  2,\n]" ∧
      ¬ ∀ type : ColumnType, TextIsValue Sample.printer Sample.float8 type := by
  refine ⟨by decide +kernel, by decide +kernel, fun h => ?_⟩
  have htype : ArrowDataType.int16 ∉ knownTypes := by decide
  exact not_textIsValue_of_unknown htype (h (.scalar .int16))

end BrewDB.PgWire

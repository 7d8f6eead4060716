import BrewDB.Common.Arrow

/-!
# Names, plan schemas and expressions

The DataFusion types that BrewDB's distributed planner reads: table references, qualified columns,
qualified schemas and scalar expressions with their column references.
-/

namespace BrewDB

/-- A possibly qualified table name (`datafusion_common::TableReference`). -/
inductive TableReference where
  | bare (table : String)
  | qualified (schema table : String)
  | full (catalog schema table : String)
deriving DecidableEq, Repr

namespace TableReference

/-- The last name part. -/
def table : TableReference → String
  | bare table => table
  | qualified _ table => table
  | full _ _ table => table

/-- `Display`: the parts joined by dots. -/
def toString : TableReference → String
  | bare table => table
  | qualified schema table => schema ++ "." ++ table
  | full catalog schema table => catalog ++ "." ++ schema ++ "." ++ table

end TableReference

/-- A column reference: an optional relation and a name. -/
structure Column where
  relation : Option TableReference
  name : String
deriving DecidableEq, Repr

/-- A qualified schema: every field with its optional relation. -/
structure DFSchema where
  qualifiedFields : List (Option TableReference × Field)
deriving DecidableEq, Repr

namespace DFSchema

/-- The columns of the schema, in order. -/
def columns (schema : DFSchema) : List Column :=
  schema.qualifiedFields.map fun f => ⟨f.1, f.2.name⟩

/-- The Arrow schema underneath: the fields without their relations. -/
def asArrow (schema : DFSchema) : List Field := schema.qualifiedFields.map Prod.snd

/-- Some field has this name, whatever its relation. -/
def HasName (schema : DFSchema) (name : String) : Prop := ∃ f ∈ schema.asArrow, f.name = name

/-- Resolution of a column reference: a qualified reference matches relation and name, an
unqualified one the name alone; the first match is taken. -/
def indexOfColumn (schema : DFSchema) (column : Column) : Option ℕ :=
  schema.qualifiedFields.findIdx? fun f =>
    f.2.name = column.name && (column.relation.isNone || f.1 = column.relation)

end DFSchema

/-- Binary operators that occur in keys and predicates. -/
inductive Operator where
  | eq
  | lt
  | and
  | plus
  | minus
  | other (name : String)
deriving DecidableEq, Repr

/-- Scalar expressions. `function` stands for every variant whose column references are those of its
arguments: scalar, aggregate and window functions, `CASE`, `BETWEEN`, `IN` lists and so on. -/
inductive Expr where
  | column (column : Column)
  | outerReferenceColumn (column : Column)
  | literal (value : Value)
  | aliasExpr (expr : Expr) (name : String)
  | cast (expr : Expr) (dataType : ArrowDataType)
  | binaryExpr (left : Expr) (op : Operator) (right : Expr)
  | function (name : String) (args : List Expr)
deriving Repr

namespace Expr

mutual
/-- The column references of an expression, left to right with repetitions. References to the outer
query are not columns of the input and are not collected. -/
def columnOccurrences : Expr → List Column
  | .column c => [c]
  | .outerReferenceColumn _ => []
  | .literal _ => []
  | .aliasExpr expr _ => columnOccurrences expr
  | .cast expr _ => columnOccurrences expr
  | .binaryExpr left _ right => columnOccurrences left ++ columnOccurrences right
  | .function _ args => columnOccurrencesOfArgs args

/-- The column references of an argument list. -/
def columnOccurrencesOfArgs : List Expr → List Column
  | [] => []
  | expr :: rest => columnOccurrences expr ++ columnOccurrencesOfArgs rest
end

/-- `Expr::column_refs`: the set of referenced columns, each listed once. -/
def columnRefs (expr : Expr) : List Column := expr.columnOccurrences.dedup

end Expr

/-! ## Evaluation

DataFusion evaluates expressions; where results do not depend on how, evaluation is a parameter. For
concrete queries the following covers columns, literals and simple operators. -/

/-- A simple operator on two values; null if a side is null or the operator does not apply. -/
def Operator.apply : Operator → Value → Value → Value
  | .eq, .null, _ => .null
  | .eq, _, .null => .null
  | .eq, v, w => .boolean (v = w)
  | .lt, .integer v, .integer w => .boolean (v < w)
  | .and, .boolean v, .boolean w => .boolean (v && w)
  | .plus, .integer v, .integer w => .integer (v + w)
  | .minus, .integer v, .integer w => .integer (v - w)
  | _, _, _ => .null

/-- The value of an expression on a row. -/
def Expr.evaluate (schema : DFSchema) (row : Row) : Expr → Value
  | .column c => ((schema.indexOfColumn c).map fun index => row.getD index .null).getD .null
  | .outerReferenceColumn _ => .null
  | .literal value => value
  | .aliasExpr expr _ => evaluate schema row expr
  | .cast expr _ => evaluate schema row expr
  | .binaryExpr left op right => op.apply (evaluate schema row left) (evaluate schema row right)
  | .function _ _ => .null

/-- The iteration order of the hash sets of one planner call: the `i`-th set is listed in an
arbitrary order, each of its members once. -/
structure SetOrder where
  iter : ℕ → List Column → List Column
  perm : ∀ i columns, (iter i columns).Perm columns

namespace SetOrder

/-- The order in which the members were found. -/
def listed : SetOrder := ⟨fun _ columns => columns, fun _ _ => List.Perm.refl _⟩

/-- The `i`-th set holds exactly its members. -/
@[simp] theorem mem_iter (order : SetOrder) (i : ℕ) (columns : List Column) (column : Column) :
    column ∈ order.iter i columns ↔ column ∈ columns :=
  (order.perm i columns).mem_iff

end SetOrder

end BrewDB

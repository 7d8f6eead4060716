import BrewDB.Planner.Fragment

/-!
# The syntax of queries

Reference: `brewdb-parser/src/ast/mod.rs`, `query.rs`, `value.rs` and `dml.rs`.

The syntax is generic in the type of the queries nested in it, and queries are built up by nesting
depth: a query of depth `n + 1` has queries of depth `n` in its expressions, tables and `WITH` clause.
Every query has a depth, and functions over queries recurse on it. Clauses that the planner never looks
into are kept as their text.
-/

namespace BrewDB

/-! ## Names -/

/-- An identifier. -/
structure Ident where
  value : String
  quoteStyle : Option Char
deriving DecidableEq, Repr

namespace Ident

/-- `escape_quoted_string`: a quote is doubled unless it is escaped already. -/
def escapeQuoted (quote : Char) : Char → List Char → List Char
  | _, [] => []
  | previous, c :: rest =>
      if c = quote then
        if previous = '\\' then c :: escapeQuoted quote previous rest
        else
          match rest with
          | [] => [c, c]
          | next :: rest' =>
              if next = quote then c :: next :: escapeQuoted quote c rest'
              else c :: c :: escapeQuoted quote c (next :: rest')
      else c :: escapeQuoted quote c rest

/-- `Display`: with its quotes. -/
def toString (ident : Ident) : String :=
  match ident.quoteStyle with
  | none => ident.value
  | some '[' => "[" ++ ident.value ++ "]"
  | some quote =>
      String.singleton quote ++ String.ofList (escapeQuoted quote (Char.ofNat 0) ident.value.toList) ++
        String.singleton quote

/-- `identifier_table_reference_part`: unquoted identifiers are lower-cased. -/
def tableReferencePart (ident : Ident) : String :=
  if ident.quoteStyle.isSome then ident.value else ident.value.toLower

end Ident

/-- A part of a name: an identifier, or a function that computes it. -/
inductive ObjectNamePart where
  | identifier (ident : Ident)
  | function (text : String)
deriving DecidableEq, Repr

namespace ObjectNamePart

/-- `as_ident`. -/
def asIdent : ObjectNamePart → Option Ident
  | identifier ident => some ident
  | function _ => none

def toString : ObjectNamePart → String
  | identifier ident => ident.toString
  | function text => text

end ObjectNamePart

/-- A possibly qualified name. -/
structure ObjectName where
  parts : List ObjectNamePart
deriving DecidableEq, Repr

namespace ObjectName

/-- `Display`: the parts joined by dots. -/
def toString (name : ObjectName) : String := ".".intercalate (name.parts.map ObjectNamePart.toString)

/-- The name made of these identifiers. -/
def ofIdents (idents : List Ident) : ObjectName := ⟨idents.map .identifier⟩

end ObjectName

/-! ## Expressions -/

/-- Expressions whose planning is that of their operands: operators, `IS NULL`, `BETWEEN`, `IN` lists,
`LIKE`, `EXTRACT`, `SUBSTRING`, `CASE` and parentheses. -/
inductive ExprKind where
  | nested
  | binaryOp (op : String)
  | unaryOp (op : String)
  | isNull (negated : Bool)
  | between (negated : Bool)
  | inList (negated : Bool)
  | like (negated caseInsensitive : Bool) (escapeChar : Option String)
  | extract (field : String)
  | substring (hasFrom hasFor : Bool)
  | case (hasOperand : Bool) (conditions : ℕ) (hasElse : Bool)
deriving DecidableEq, Repr

/-- Sort direction and place of the nulls. -/
structure OrderByOptions where
  asc : Option Bool
  nullsFirst : Option Bool
deriving DecidableEq, Repr

/-- Treatment of nulls in a function call. -/
inductive NullTreatment where
  | ignoreNulls
  | respectNulls
deriving DecidableEq, Repr

/-- The clauses of a function call without expressions of their own. -/
structure FunctionHead where
  name : ObjectName
  distinct : Bool
  nullTreatment : Option NullTreatment
  /-- `OVER`. -/
  overClause : Option String
  /-- A second parameter list. -/
  parameters : Option String
deriving DecidableEq, Repr

/-- Expressions. -/
inductive AstExpr (Q : Type) where
  | identifier (idents : List Ident)
  | value (text : String)
  | interval (value : AstExpr Q)
  | compound (kind : ExprKind) (args : List (AstExpr Q))
  | inSubquery (expr : AstExpr Q) (subquery : Q) (negated : Bool)
  | existsSubquery (subquery : Q) (negated : Bool)
  | subquery (subquery : Q)
  /-- A call: arguments with their names, `FILTER`, `ORDER BY` among the arguments, `WITHIN GROUP`. -/
  | function (head : FunctionHead) (args : List (Option Ident × AstExpr Q)) (filter : Option (AstExpr Q))
      (orderBy withinGroup : List (AstExpr Q × OrderByOptions))
  /-- `*` or `t.*` as an argument. -/
  | wildcard (qualifier : Option ObjectName)
  | unsupported (text : String)

/-! ## Tables -/

/-- A column of an alias list. -/
structure TableAliasColumnDef where
  name : Ident
  dataType : Option String
deriving DecidableEq, Repr

/-- An alias with an optional column list. -/
structure TableAlias where
  name : Ident
  columns : List TableAliasColumnDef
deriving DecidableEq, Repr

/-- How two tables are joined. -/
inductive JoinKind where
  | join
  | inner
  | left
  | leftOuter
  | right
  | rightOuter
  | fullOuter
  | crossJoin
  | semi
  | leftSemi
  | rightSemi
  | anti
  | leftAnti
  | rightAnti
  | other (text : String)
deriving DecidableEq, Repr

/-- The condition of a join. -/
inductive AstJoinConstraint (Q : Type) where
  | onExpr (expr : AstExpr Q)
  | usingColumns (columns : List ObjectName)
  | natural
  | absent

mutual
/-- A table in a `FROM` clause. `extensions` is the text of table arguments, hints, versions, samples and
so on, if there are any. -/
inductive TableFactor (Q : Type) where
  | table (name : ObjectName) (tableAlias : Option TableAlias) (extensions : Option String)
  | derived (lateral : Bool) (subquery : Q) (tableAlias : Option TableAlias) (sample : Option String)
  | nestedJoin (relation : TableFactor Q) (joins : List (AstJoin Q)) (tableAlias : Option TableAlias)
  | other (text : String)

/-- One more table of a join. -/
inductive AstJoin (Q : Type) where
  | mk (relation : TableFactor Q) (isGlobal : Bool) (kind : JoinKind) (constraint : AstJoinConstraint Q)
end

/-- A table with the tables joined to it. -/
structure TableWithJoins (Q : Type) where
  relation : TableFactor Q
  joins : List (AstJoin Q)

/-! ## Queries -/

/-- What `*` leaves out, replaces or renames, as text. -/
abbrev WildcardOptions := Option String

/-- An item of a select list. -/
inductive SelectItem (Q : Type) where
  | unnamedExpr (expr : AstExpr Q)
  | exprWithAlias (expr : AstExpr Q) (aliasName : Ident)
  | exprWithAliases (expr : AstExpr Q) (aliases : List Ident)
  | qualifiedWildcard (name : ObjectName) (options : WildcardOptions)
  | wildcard (options : WildcardOptions)

/-- `DISTINCT`, `ALL` or `DISTINCT ON`. -/
inductive Distinct (Q : Type) where
  | all
  | distinct
  | distinctOn (exprs : List (AstExpr Q))

/-- `GROUP BY`. -/
inductive GroupByExpr (Q : Type) where
  | all (modifiers : List String)
  | expressions (exprs : List (AstExpr Q)) (modifiers : List String)

/-- A `SELECT`. The last fields are those the planner rejects. -/
structure Select (Q : Type) where
  distinct : Option (Distinct Q)
  top : Option String
  projection : List (SelectItem Q)
  exclude : Option String
  into : Option String
  fromTables : List (TableWithJoins Q)
  selection : Option (AstExpr Q)
  groupBy : GroupByExpr Q
  having : Option (AstExpr Q)
  valueTableMode : Option String
  prewhere : Option String
  lateralViews : List String
  connectBy : List String
  clusterBy : List String
  distributeBy : List String
  sortBy : List String
  namedWindow : List String
  qualify : Option String

/-- Set operators. -/
inductive SetOperator where
  | union
  | except
  | intersect
  | minus
deriving DecidableEq, Repr

/-- Set quantifiers. -/
inductive SetQuantifier where
  | all
  | distinct
  | byName
  | absent
deriving DecidableEq, Repr

/-- The body of a query. -/
inductive SetExpr (Q : Type) where
  | select (select : Select Q)
  | query (query : Q)
  | setOperation (left : SetExpr Q) (op : SetOperator) (quantifier : SetQuantifier) (right : SetExpr Q)
  | values (rows : List (List (AstExpr Q))) (valueKeyword : Bool)
  | other (text : String)

/-- A sort key. -/
structure OrderByExpr (Q : Type) where
  expr : AstExpr Q
  options : OrderByOptions
  withFill : Option String

/-- The keys of an `ORDER BY`. -/
inductive OrderByKind (Q : Type) where
  | all (options : OrderByOptions)
  | expressions (exprs : List (OrderByExpr Q))

/-- `ORDER BY`. -/
structure OrderBy (Q : Type) where
  kind : OrderByKind Q
  interpolate : Option String

/-- `LIMIT` and `OFFSET`. -/
inductive LimitClause (Q : Type) where
  | limitOffset (limit offset : Option (AstExpr Q)) (limitBy : List (AstExpr Q))
  | offsetCommaLimit (offset limit : AstExpr Q)

/-- A table of a `WITH` clause. -/
structure Cte (Q : Type) where
  tableAlias : TableAlias
  query : Q
  fromName : Option Ident

/-- A `WITH` clause. -/
structure With (Q : Type) where
  recursive : Bool
  cteTables : List (Cte Q)

/-- A query over nested queries `Q`. The last fields are those nothing looks at. -/
structure QueryOver (Q : Type) where
  withClause : Option (With Q)
  body : SetExpr Q
  orderBy : Option (OrderBy Q)
  limitClause : Option (LimitClause Q)
  fetch : Option String
  locks : List String
  forClause : Option String
  settings : Option String
  formatClause : Option String
  pipeOperators : List String

/-- Queries of nesting depth at most `n`. -/
def Query : ℕ → Type
  | 0 => Empty
  | n + 1 => QueryOver (Query n)

end BrewDB

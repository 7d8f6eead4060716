import BrewDB.Common.Climbing

/-!
# Expressions

Reference: `parse_subexpr`, `parse_prefix`, `parse_infix`, `parse_not` and `parse_between` of
`brewdb-parser/src/parser/mod.rs`, and the precedences of `brewdb-parser/src/dialect/postgresql.rs`.

Operators and their precedence, as PostgreSQL's dialect has them, over identifiers and values. Where an input goes on
with something else that the parser reads (a call, a subscript, a subquery, a cast, `IN`, `ANY`), the model stops with
an error of its own. The depth is what the recursion counter has left. Locations are left out.
-/

namespace BrewDB.Parser

open Climbing

/-! ## Tokens -/

/-- The keywords that the operators are written with. -/
inductive Keyword
  | AND | OR | XOR | NOT | IS | NULL | TRUE | FALSE | UNKNOWN | DISTINCT | FROM | BETWEEN | LIKE | ILIKE | NOTNULL
  deriving DecidableEq, Repr

/-- The tokens of operators that are not words. -/
inductive OperatorToken
  | spaceship | doubleEq | assignment | eq | neq | gt | gtEq | lt | ltEq | plus | minus | mul | div | mod | stringConcat
  | pipe | caret | ampersand | shiftLeft | shiftRight | sharp | overlap | caretAt
  | tilde | tildeAsterisk | exclamationMarkTilde | exclamationMarkTildeAsterisk
  | doubleTilde | doubleTildeAsterisk | exclamationMarkDoubleTilde | exclamationMarkDoubleTildeAsterisk
  | arrow | longArrow | hashArrow | hashLongArrow | atArrow | arrowAt | hashMinus
  | atQuestion | atAt | question | questionAnd | questionPipe
  | doubleSharp | ampersandLeftAngleBracket | ampersandRightAngleBracket | questionMarkDash
  | ampersandLeftAngleBracketVerticalBar | verticalBarAmpersandRightAngleBracket | twoWayArrow
  | leftAngleBracketCaret | rightAngleBracketCaret | questionMarkSharp | questionMarkDoubleVerticalBar
  | questionMarkDashVerticalBar | tildeEqual | shiftLeftVerticalBar | verticalBarShiftRight | atSign
  | doubleExclamationMark | pgSquareRoot | pgCubeRoot | atDashAt
  deriving DecidableEq, Repr

inductive Token
  /-- A word that is no keyword. -/
  | word (value : String)
  | keyword (keyword : Keyword)
  | number (value : String)
  | singleQuotedString (value : String)
  | lParen
  | rParen
  | operator (operator : OperatorToken)
  deriving DecidableEq, Repr

inductive BinaryOperator
  | spaceship | assignment | eq | notEq | gt | gtEq | lt | ltEq | plus | minus | multiply | divide | modulo
  | stringConcat | bitwiseOr | pgExp | bitwiseAnd | pgBitwiseShiftLeft | pgBitwiseShiftRight | pgBitwiseXor
  | pgOverlap | pgStartsWith
  | pgRegexMatch | pgRegexIMatch | pgRegexNotMatch | pgRegexNotIMatch
  | pgLikeMatch | pgILikeMatch | pgNotLikeMatch | pgNotILikeMatch
  | arrow | longArrow | hashArrow | hashLongArrow | atArrow | arrowAt | hashMinus
  | atQuestion | atAt | question | questionAnd | questionPipe
  | doubleHash | andLt | andGt | questionDash | andLtPipe | pipeAndGt | ltDashGt | ltCaret | gtCaret | questionHash
  | questionDoublePipe | questionDashPipe | tildeEq | ltLtPipe | pipeGtGt | at
  | and | or | xor
  deriving DecidableEq, Repr

inductive UnaryOperator
  | not | plus | minus | bitwiseNot | pgPrefixFactorial | pgSquareRoot | pgCubeRoot | pgAbs
  | hash | atDashAt | doubleAt | questionDash | questionPipe
  deriving DecidableEq, Repr

/-! ## Precedence -/

/-- `Precedence`, as far as these operators have one. -/
inductive Precedence
  | mulDivModOp | plusMinus | xor | ampersand | caret | pipe | between | eq | like | is | pgOther | unaryNot | and | or
  deriving DecidableEq, Repr

/-- `PostgreSqlDialect::prec_value`. -/
def precValue : Precedence → ℕ
  | .mulDivModOp => 90
  | .plusMinus => 80
  | .xor => 75
  | .ampersand => 70
  | .caret => 100
  | .pipe => 70
  | .between => 60
  | .eq => 50
  | .like => 60
  | .is => 40
  | .pgOther => 70
  | .unaryNot => 30
  | .and => 20
  | .or => 10

/-- `prec_unknown`. -/
def precUnknown : ℕ := 0

/-- `get_next_precedence` for a token, first as PostgreSQL's dialect overrides it. -/
def OperatorToken.precedence : OperatorToken → ℕ
  | .arrow | .longArrow | .hashArrow | .hashLongArrow | .atArrow | .arrowAt | .hashMinus | .atQuestion | .atAt
  | .question | .questionAnd | .questionPipe | .overlap | .caretAt | .stringConcat | .sharp | .shiftRight
  | .shiftLeft => precValue .pgOther
  | .assignment | .eq | .lt | .ltEq | .neq | .gt | .gtEq | .doubleEq | .tilde | .tildeAsterisk | .exclamationMarkTilde
  | .exclamationMarkTildeAsterisk | .doubleTilde | .doubleTildeAsterisk | .exclamationMarkDoubleTilde
  | .exclamationMarkDoubleTildeAsterisk | .spaceship => precValue .eq
  | .pipe | .questionMarkDash | .doubleSharp | .ampersandLeftAngleBracket | .ampersandRightAngleBracket
  | .questionMarkDashVerticalBar | .ampersandLeftAngleBracketVerticalBar | .verticalBarAmpersandRightAngleBracket
  | .twoWayArrow | .leftAngleBracketCaret | .rightAngleBracketCaret | .questionMarkSharp
  | .questionMarkDoubleVerticalBar | .tildeEqual | .atSign | .shiftLeftVerticalBar
  | .verticalBarShiftRight => precValue .pipe
  | .caret => precValue .caret
  | .ampersand => precValue .ampersand
  | .plus | .minus => precValue .plusMinus
  | .mul | .div | .mod => precValue .mulDivModOp
  | .doubleExclamationMark | .pgSquareRoot | .pgCubeRoot | .atDashAt => precUnknown

/-- `get_next_precedence`. -/
def getNextPrecedence : List Token → ℕ
  | .operator operator :: _ => operator.precedence
  | .keyword .OR :: _ => precValue .or
  | .keyword .AND :: _ => precValue .and
  | .keyword .XOR :: _ => precValue .xor
  -- behind a left operand, `NOT` binds as the word that follows it
  | .keyword .NOT :: .keyword .BETWEEN :: _ => precValue .between
  | .keyword .NOT :: .keyword .LIKE :: _ => precValue .like
  | .keyword .NOT :: .keyword .ILIKE :: _ => precValue .like
  | .keyword .NOT :: .keyword .NULL :: _ => precValue .is
  | .keyword .NOTNULL :: _ => precValue .is
  | .keyword .IS :: _ => precValue .is
  | .keyword .BETWEEN :: _ => precValue .between
  | .keyword .LIKE :: _ => precValue .like
  | .keyword .ILIKE :: _ => precValue .like
  | _ => precUnknown

/-- The regular binary operator of a token in `parse_infix`. -/
def OperatorToken.binary : OperatorToken → Option BinaryOperator
  | .spaceship => some .spaceship
  | .doubleEq => some .eq
  | .assignment => some .assignment
  | .eq => some .eq
  | .neq => some .notEq
  | .gt => some .gt
  | .gtEq => some .gtEq
  | .lt => some .lt
  | .ltEq => some .ltEq
  | .plus => some .plus
  | .minus => some .minus
  | .mul => some .multiply
  | .mod => some .modulo
  | .stringConcat => some .stringConcat
  | .pipe => some .bitwiseOr
  | .caret => some .pgExp
  | .ampersand => some .bitwiseAnd
  | .div => some .divide
  | .shiftLeft => some .pgBitwiseShiftLeft
  | .shiftRight => some .pgBitwiseShiftRight
  | .sharp => some .pgBitwiseXor
  | .overlap => some .pgOverlap
  | .caretAt => some .pgStartsWith
  | .tilde => some .pgRegexMatch
  | .tildeAsterisk => some .pgRegexIMatch
  | .exclamationMarkTilde => some .pgRegexNotMatch
  | .exclamationMarkTildeAsterisk => some .pgRegexNotIMatch
  | .doubleTilde => some .pgLikeMatch
  | .doubleTildeAsterisk => some .pgILikeMatch
  | .exclamationMarkDoubleTilde => some .pgNotLikeMatch
  | .exclamationMarkDoubleTildeAsterisk => some .pgNotILikeMatch
  | .arrow => some .arrow
  | .longArrow => some .longArrow
  | .hashArrow => some .hashArrow
  | .hashLongArrow => some .hashLongArrow
  | .atArrow => some .atArrow
  | .arrowAt => some .arrowAt
  | .hashMinus => some .hashMinus
  | .atQuestion => some .atQuestion
  | .atAt => some .atAt
  | .question => some .question
  | .questionAnd => some .questionAnd
  | .questionPipe => some .questionPipe
  | .doubleSharp => some .doubleHash
  | .ampersandLeftAngleBracket => some .andLt
  | .ampersandRightAngleBracket => some .andGt
  | .questionMarkDash => some .questionDash
  | .ampersandLeftAngleBracketVerticalBar => some .andLtPipe
  | .verticalBarAmpersandRightAngleBracket => some .pipeAndGt
  | .twoWayArrow => some .ltDashGt
  | .leftAngleBracketCaret => some .ltCaret
  | .rightAngleBracketCaret => some .gtCaret
  | .questionMarkSharp => some .questionHash
  | .questionMarkDoubleVerticalBar => some .questionDoublePipe
  | .questionMarkDashVerticalBar => some .questionDashPipe
  | .tildeEqual => some .tildeEq
  | .shiftLeftVerticalBar => some .ltLtPipe
  | .verticalBarShiftRight => some .pipeGtGt
  | .atSign => some .at
  | .doubleExclamationMark | .pgSquareRoot | .pgCubeRoot | .atDashAt => none

/-- The operator of a token in `parse_prefix`. -/
def OperatorToken.unary : OperatorToken → Option UnaryOperator
  | .minus => some .minus
  | .plus => some .plus
  | .doubleExclamationMark => some .pgPrefixFactorial
  | .pgSquareRoot => some .pgSquareRoot
  | .pgCubeRoot => some .pgCubeRoot
  | .atSign => some .pgAbs
  | .tilde => some .bitwiseNot
  | .sharp => some .hash
  | .atDashAt => some .atDashAt
  | .atAt => some .doubleAt
  | .questionMarkDash => some .questionDash
  | .questionPipe => some .questionPipe
  | _ => none

/-- The precedence that a prefix operator reads its operand at. -/
def UnaryOperator.power : UnaryOperator → ℕ
  | .not => precValue .unaryNot
  | .plus | .minus => precValue .mulDivModOp
  | _ => precValue .plusMinus

/-! ## Expressions -/

inductive Value
  | number (value : String)
  | singleQuotedString (value : String)
  | boolean (value : Bool)
  | null
  deriving DecidableEq, Repr

/-- The tests `IS [NOT] ..` that take no operand. -/
inductive IsTest
  | isNull | isNotNull | isTrue | isNotTrue | isFalse | isNotFalse | isUnknown | isNotUnknown
  deriving DecidableEq, Repr

inductive Expr
  | identifier (name : String)
  /-- A keyword in the place of an operand is read as an identifier. -/
  | keywordIdentifier (keyword : Keyword)
  | value (value : Value)
  | nested (expr : Expr)
  | unaryOp (op : UnaryOperator) (expr : Expr)
  | binaryOp (left : Expr) (op : BinaryOperator) (right : Expr)
  | isTest (expr : Expr) (test : IsTest)
  | isDistinctFrom (left : Expr) (negated : Bool) (right : Expr)
  | between (expr : Expr) (negated : Bool) (low high : Expr)
  /-- `Like`, or `ILike` where the case does not matter. -/
  | like (expr : Expr) (negated insensitive : Bool) (pattern : Expr)
  deriving DecidableEq, Repr

inductive ParserError
  | recursionLimitExceeded
  | expected (what : String) (found : Option Token)
  | noInfixParser (token : Option Token)
  /-- The parser would go on with something that is not modelled. -/
  | outside
  deriving DecidableEq, Repr

/-- What was parsed, and what is left. -/
abbrev Parsed := Except ParserError (Expr × List Token)

/-- A node around what was parsed. -/
def Parsed.node (node : Expr → Expr) (parsed : Parsed) : Parsed :=
  match parsed with
  | .error e => .error e
  | .ok (expr, rest) => .ok (node expr, rest)

section Parsing

-- `parse_subexpr`, one level deeper
variable (sub : ℕ → List Token → Parsed)

/-- A word in the place of an operand that has no meaning of its own. -/
def parseUnreservedWord (expr : Expr) (rest : List Token) : Parsed :=
  if rest.head? = some .lParen then .error .outside else .ok (expr, rest)

/-- `parse_prefix`. -/
def parsePrefix : List Token → Parsed
  | .word value :: .singleQuotedString text :: rest =>
      -- a string introducer
      if value.front = '_' then .error .outside else .ok (.identifier value, .singleQuotedString text :: rest)
  | .word value :: rest => parseUnreservedWord (.identifier value) rest
  | .keyword .TRUE :: rest => .ok (.value (.boolean true), rest)
  | .keyword .FALSE :: rest => .ok (.value (.boolean false), rest)
  | .keyword .NULL :: rest => .ok (.value .null, rest)
  | .keyword .NOT :: rest =>
      match sub (precValue .unaryNot) rest with
      | .ok (expr, rest) => .ok (.unaryOp .not expr, rest)
      | .error .outside => .error .outside
      -- without an operand `NOT` is an identifier
      | .error _ => parseUnreservedWord (.keywordIdentifier .NOT) rest
  | .keyword keyword :: rest => parseUnreservedWord (.keywordIdentifier keyword) rest
  | .number value :: rest => .ok (.value (.number value), rest)
  | .singleQuotedString _ :: .singleQuotedString _ :: _ => .error .outside
  | .singleQuotedString value :: rest => .ok (.value (.singleQuotedString value), rest)
  | .lParen :: rest =>
      match sub precUnknown rest with
      | .error e => .error e
      | .ok (expr, .rParen :: rest) => .ok (.nested expr, rest)
      | .ok (_, rest) => .error (.expected ")" rest.head?)
  | .operator operator :: rest =>
      match operator.unary with
      | some op => (sub op.power rest).node (.unaryOp op)
      | none => .error (.expected "an expression" (some (.operator operator)))
  | .rParen :: _ => .error (.expected "an expression" (some .rParen))
  | [] => .error (.expected "an expression" none)

/-- The tests behind `IS`. -/
def parseIs (expr : Expr) : List Token → Parsed
  | .keyword .NULL :: rest => .ok (.isTest expr .isNull, rest)
  | .keyword .NOT :: .keyword .NULL :: rest => .ok (.isTest expr .isNotNull, rest)
  | .keyword .TRUE :: rest => .ok (.isTest expr .isTrue, rest)
  | .keyword .NOT :: .keyword .TRUE :: rest => .ok (.isTest expr .isNotTrue, rest)
  | .keyword .FALSE :: rest => .ok (.isTest expr .isFalse, rest)
  | .keyword .NOT :: .keyword .FALSE :: rest => .ok (.isTest expr .isNotFalse, rest)
  | .keyword .UNKNOWN :: rest => .ok (.isTest expr .isUnknown, rest)
  | .keyword .NOT :: .keyword .UNKNOWN :: rest => .ok (.isTest expr .isNotUnknown, rest)
  -- the operand is a whole expression here, whatever binds more loosely than `IS`
  | .keyword .DISTINCT :: .keyword .FROM :: rest => (sub precUnknown rest).node (.isDistinctFrom expr false)
  | .keyword .NOT :: .keyword .DISTINCT :: .keyword .FROM :: rest =>
      (sub precUnknown rest).node (.isDistinctFrom expr true)
  | rest => .error (.expected "[NOT] NULL | TRUE | FALSE | DISTINCT | [form] NORMALIZED FROM after IS" rest.head?)

/-- `parse_between`. -/
def parseBetween (expr : Expr) (negated : Bool) (input : List Token) : Parsed :=
  match sub (precValue .between) input with
  | .error e => .error e
  | .ok (low, .keyword .AND :: rest) => (sub (precValue .between) rest).node (.between expr negated low)
  | .ok (_, rest) => .error (.expected "AND" rest.head?)

/-- A pattern behind `LIKE` or `ILIKE`. -/
def parseLike (expr : Expr) (negated insensitive : Bool) (input : List Token) : Parsed :=
  (sub (precValue .like) input).node (.like expr negated insensitive)

/-- `parse_infix`. -/
def parseInfix (expr : Expr) : List Token → Parsed
  | .operator operator :: rest =>
      match operator.binary with
      | some op => (sub operator.precedence rest).node (.binaryOp expr op)
      | none => .error (.noInfixParser (some (.operator operator)))
  | .keyword .AND :: rest => (sub (precValue .and) rest).node (.binaryOp expr .and)
  | .keyword .OR :: rest => (sub (precValue .or) rest).node (.binaryOp expr .or)
  | .keyword .XOR :: rest => (sub (precValue .xor) rest).node (.binaryOp expr .xor)
  | .keyword .IS :: rest => parseIs sub expr rest
  | .keyword .NOTNULL :: rest => .ok (.isTest expr .isNotNull, rest)
  | .keyword .NOT :: .keyword .NULL :: rest => .ok (.isTest expr .isNotNull, rest)
  | .keyword .NOT :: .keyword .BETWEEN :: rest => parseBetween sub expr true rest
  | .keyword .BETWEEN :: rest => parseBetween sub expr false rest
  | .keyword .NOT :: .keyword .LIKE :: rest => parseLike sub expr true false rest
  | .keyword .LIKE :: rest => parseLike sub expr false false rest
  | .keyword .NOT :: .keyword .ILIKE :: rest => parseLike sub expr true true rest
  | .keyword .ILIKE :: rest => parseLike sub expr false true rest
  | .keyword .NOT :: rest => .error (.expected "IN or BETWEEN after NOT" rest.head?)
  | input => .error (.noInfixParser input.head?)

end Parsing

/-- `parse_subexpr`, with so much left of the recursion counter. -/
def parseSubexpr : ℕ → ℕ → List Token → Parsed
  | 0, _, _ => .error .recursionLimitExceeded
  | depth + 1, precedence, input =>
      match parsePrefix (parseSubexpr depth) input with
      | .error e => .error e
      | .ok (expr, rest) =>
          climb getNextPrecedence (parseInfix (parseSubexpr depth)) precedence rest.length expr rest

end BrewDB.Parser

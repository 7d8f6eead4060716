import BrewDB.Parser.Expression

/-!
# Grouping by precedence

Reference: `parse_subexpr` of `brewdb-parser/src/parser/mod.rs` and the `Display` of `brewdb-parser/src/ast/mod.rs`.

Which groupings of a token sequence the parser gives. An operator takes the operands that the precedences leave it, the
loosest on its right edge included, so that an expression is read back from its own tokens exactly if it is grouped in
this way. `IS DISTINCT FROM` reads everything to its right as its operand.
-/

namespace BrewDB.Parser

open Climbing

/-! ## The tokens of an expression -/

/-- The token of a binary operator. -/
def BinaryOperator.token : BinaryOperator → Token
  | .spaceship => .operator .spaceship
  | .assignment => .operator .assignment
  | .eq => .operator .eq
  | .notEq => .operator .neq
  | .gt => .operator .gt
  | .gtEq => .operator .gtEq
  | .lt => .operator .lt
  | .ltEq => .operator .ltEq
  | .plus => .operator .plus
  | .minus => .operator .minus
  | .multiply => .operator .mul
  | .divide => .operator .div
  | .modulo => .operator .mod
  | .stringConcat => .operator .stringConcat
  | .bitwiseOr => .operator .pipe
  | .pgExp => .operator .caret
  | .bitwiseAnd => .operator .ampersand
  | .pgBitwiseShiftLeft => .operator .shiftLeft
  | .pgBitwiseShiftRight => .operator .shiftRight
  | .pgBitwiseXor => .operator .sharp
  | .pgOverlap => .operator .overlap
  | .pgStartsWith => .operator .caretAt
  | .pgRegexMatch => .operator .tilde
  | .pgRegexIMatch => .operator .tildeAsterisk
  | .pgRegexNotMatch => .operator .exclamationMarkTilde
  | .pgRegexNotIMatch => .operator .exclamationMarkTildeAsterisk
  | .pgLikeMatch => .operator .doubleTilde
  | .pgILikeMatch => .operator .doubleTildeAsterisk
  | .pgNotLikeMatch => .operator .exclamationMarkDoubleTilde
  | .pgNotILikeMatch => .operator .exclamationMarkDoubleTildeAsterisk
  | .arrow => .operator .arrow
  | .longArrow => .operator .longArrow
  | .hashArrow => .operator .hashArrow
  | .hashLongArrow => .operator .hashLongArrow
  | .atArrow => .operator .atArrow
  | .arrowAt => .operator .arrowAt
  | .hashMinus => .operator .hashMinus
  | .atQuestion => .operator .atQuestion
  | .atAt => .operator .atAt
  | .question => .operator .question
  | .questionAnd => .operator .questionAnd
  | .questionPipe => .operator .questionPipe
  | .doubleHash => .operator .doubleSharp
  | .andLt => .operator .ampersandLeftAngleBracket
  | .andGt => .operator .ampersandRightAngleBracket
  | .questionDash => .operator .questionMarkDash
  | .andLtPipe => .operator .ampersandLeftAngleBracketVerticalBar
  | .pipeAndGt => .operator .verticalBarAmpersandRightAngleBracket
  | .ltDashGt => .operator .twoWayArrow
  | .ltCaret => .operator .leftAngleBracketCaret
  | .gtCaret => .operator .rightAngleBracketCaret
  | .questionHash => .operator .questionMarkSharp
  | .questionDoublePipe => .operator .questionMarkDoubleVerticalBar
  | .questionDashPipe => .operator .questionMarkDashVerticalBar
  | .tildeEq => .operator .tildeEqual
  | .ltLtPipe => .operator .shiftLeftVerticalBar
  | .pipeGtGt => .operator .verticalBarShiftRight
  | .at => .operator .atSign
  | .and => .keyword .AND
  | .or => .keyword .OR
  | .xor => .keyword .XOR

/-- How tightly a binary operator binds. -/
def BinaryOperator.power (op : BinaryOperator) : ℕ := getNextPrecedence [op.token]

/-- The token of a prefix operator. -/
def UnaryOperator.token : UnaryOperator → Token
  | .not => .keyword .NOT
  | .plus => .operator .plus
  | .minus => .operator .minus
  | .bitwiseNot => .operator .tilde
  | .pgPrefixFactorial => .operator .doubleExclamationMark
  | .pgSquareRoot => .operator .pgSquareRoot
  | .pgCubeRoot => .operator .pgCubeRoot
  | .pgAbs => .operator .atSign
  | .hash => .operator .sharp
  | .atDashAt => .operator .atDashAt
  | .doubleAt => .operator .atAt
  | .questionDash => .operator .questionMarkDash
  | .questionPipe => .operator .questionPipe

/-- The words behind `IS`. -/
def IsTest.tokens : IsTest → List Token
  | .isNull => [.keyword .NULL]
  | .isNotNull => [.keyword .NOT, .keyword .NULL]
  | .isTrue => [.keyword .TRUE]
  | .isNotTrue => [.keyword .NOT, .keyword .TRUE]
  | .isFalse => [.keyword .FALSE]
  | .isNotFalse => [.keyword .NOT, .keyword .FALSE]
  | .isUnknown => [.keyword .UNKNOWN]
  | .isNotUnknown => [.keyword .NOT, .keyword .UNKNOWN]

/-- `NOT`, where it is negated. -/
def notTokens (negated : Bool) : List Token := if negated then [.keyword .NOT] else []

namespace Expr

/-- The tokens of its display. -/
def tokens : Expr → List Token
  | identifier name => [.word name]
  | keywordIdentifier keyword => [.keyword keyword]
  | value (.number text) => [.number text]
  | value (.singleQuotedString text) => [.singleQuotedString text]
  | value (.boolean truth) => [.keyword (if truth then .TRUE else .FALSE)]
  | value .null => [.keyword .NULL]
  | nested expr => .lParen :: (expr.tokens ++ [.rParen])
  | unaryOp op expr => op.token :: expr.tokens
  | binaryOp left op right => left.tokens ++ op.token :: right.tokens
  | isTest expr test => expr.tokens ++ .keyword .IS :: test.tokens
  | isDistinctFrom left negated right =>
      left.tokens ++ .keyword .IS :: (notTokens negated ++ .keyword .DISTINCT :: .keyword .FROM :: right.tokens)
  | between expr negated low high =>
      expr.tokens ++ (notTokens negated ++ .keyword .BETWEEN :: (low.tokens ++ .keyword .AND :: high.tokens))
  | like expr negated insensitive pattern =>
      expr.tokens ++ (notTokens negated ++ .keyword (if insensitive then .ILIKE else .LIKE) :: pattern.tokens)

/-- Some tokens it is read from: its own, up to operators that are written in several ways. -/
inductive Spells : Expr → List Token → Prop
  | identifier (name : String) : Spells (identifier name) [.word name]
  | keywordIdentifier (keyword : Keyword) : Spells (keywordIdentifier keyword) [.keyword keyword]
  | value (literal : Value) : Spells (value literal) (value literal).tokens
  | nested {expr : Expr} {front : List Token} (h : Spells expr front) :
      Spells (nested expr) (.lParen :: (front ++ [.rParen]))
  | unaryOp (op : UnaryOperator) {expr : Expr} {front : List Token} (h : Spells expr front) :
      Spells (unaryOp op expr) (op.token :: front)
  | binaryOp (op : BinaryOperator) {left right : Expr} {front back : List Token} (hleft : Spells left front)
      (hright : Spells right back) : Spells (binaryOp left op right) (front ++ op.token :: back)
  | doubleEq {left right : Expr} {front back : List Token} (hleft : Spells left front) (hright : Spells right back) :
      Spells (binaryOp left .eq right) (front ++ .operator .doubleEq :: back)
  | isTest (test : IsTest) {expr : Expr} {front : List Token} (h : Spells expr front) :
      Spells (isTest expr test) (front ++ .keyword .IS :: test.tokens)
  | notNull {expr : Expr} {front : List Token} (h : Spells expr front) :
      Spells (isTest expr .isNotNull) (front ++ [.keyword .NOT, .keyword .NULL])
  | notnull {expr : Expr} {front : List Token} (h : Spells expr front) :
      Spells (isTest expr .isNotNull) (front ++ [.keyword .NOTNULL])
  | isDistinctFrom (negated : Bool) {left right : Expr} {front back : List Token} (hleft : Spells left front)
      (hright : Spells right back) :
      Spells (isDistinctFrom left negated right)
        (front ++ .keyword .IS :: (notTokens negated ++ .keyword .DISTINCT :: .keyword .FROM :: back))
  | between (negated : Bool) {expr low high : Expr} {front middle back : List Token} (hexpr : Spells expr front)
      (hlow : Spells low middle) (hhigh : Spells high back) :
      Spells (between expr negated low high)
        (front ++ (notTokens negated ++ .keyword .BETWEEN :: (middle ++ .keyword .AND :: back)))
  | like (negated insensitive : Bool) {expr pattern : Expr} {front back : List Token} (hexpr : Spells expr front)
      (hpattern : Spells pattern back) :
      Spells (like expr negated insensitive pattern)
        (front ++ (notTokens negated ++ .keyword (if insensitive then .ILIKE else .LIKE) :: back))

/-- No operand on its right edge takes an operator that binds this tightly. -/
def Stops (next : ℕ) : Expr → Prop
  | unaryOp op expr => next ≤ op.power ∧ expr.Stops next
  | binaryOp _ op right => next ≤ op.power ∧ right.Stops next
  | isDistinctFrom _ _ right => next ≤ precUnknown ∧ right.Stops next
  | between _ _ _ high => next ≤ precValue .between ∧ high.Stops next
  | like _ _ _ pattern => next ≤ precValue .like ∧ pattern.Stops next
  | _ => True

/-- Grouped as the precedences say, as an operand read at a level: every operator binds more tightly than the level,
what stands left of it ends before it, and what stands right of it is an operand at its own level. -/
def Fits (level : ℕ) : Expr → Prop
  | nested expr => expr.Fits precUnknown
  | unaryOp op expr => expr.Fits op.power
  | binaryOp left op right => level < op.power ∧ left.Fits level ∧ left.Stops op.power ∧ right.Fits op.power
  | isTest expr _ => level < precValue .is ∧ expr.Fits level ∧ expr.Stops (precValue .is)
  | isDistinctFrom left _ right =>
      level < precValue .is ∧ left.Fits level ∧ left.Stops (precValue .is) ∧ right.Fits precUnknown
  | between expr _ low high =>
      level < precValue .between ∧ expr.Fits level ∧ expr.Stops (precValue .between) ∧
        low.Fits (precValue .between) ∧ low.Stops (precValue .and) ∧ high.Fits (precValue .between)
  | like expr _ _ pattern =>
      level < precValue .like ∧ expr.Fits level ∧ expr.Stops (precValue .like) ∧ pattern.Fits (precValue .like)
  | _ => True

/-- How deep the recursion goes that reads it. -/
def depth : Expr → ℕ
  | nested expr => expr.depth + 1
  | unaryOp _ expr => expr.depth + 1
  | binaryOp left _ right => max left.depth (right.depth + 1)
  | isTest expr _ => expr.depth
  | isDistinctFrom left _ right => max left.depth (right.depth + 1)
  | between expr _ low high => max expr.depth (max low.depth high.depth + 1)
  | like expr _ _ pattern => max expr.depth (pattern.depth + 1)
  | _ => 1

/-- No keyword that means something as an operand stands for an identifier. -/
def Readable : Expr → Prop
  | keywordIdentifier keyword => keyword ≠ .NOT ∧ keyword ≠ .TRUE ∧ keyword ≠ .FALSE ∧ keyword ≠ .NULL
  | nested expr => expr.Readable
  | unaryOp _ expr => expr.Readable
  | binaryOp left _ right => left.Readable ∧ right.Readable
  | isTest expr _ => expr.Readable
  | isDistinctFrom left _ right => left.Readable ∧ right.Readable
  | between expr _ low high => expr.Readable ∧ low.Readable ∧ high.Readable
  | like expr _ _ pattern => expr.Readable ∧ pattern.Readable
  | _ => True

end Expr

/-! ## What is parsed is grouped by precedence -/

variable {sub : ℕ → List Token → Parsed} {depth level : ℕ} {expr left : Expr} {input rest : List Token}

theorem exists_of_node_eq_ok {node : Expr → Expr} {parsed : Parsed} (h : parsed.node node = .ok (expr, rest)) :
    ∃ inner, parsed = .ok (inner, rest) ∧ expr = node inner := by
  cases parsed with
  | error e => cases h
  | ok result =>
      obtain ⟨rfl, rfl⟩ := Prod.mk.inj (Except.ok.inj h)
      exact ⟨result.1, rfl, rfl⟩

theorem BinaryOperator.power_of_binary {operator : OperatorToken} {op : BinaryOperator}
    (h : operator.binary = some op) : op.power = operator.precedence := by
  cases operator <;> cases h <;> rfl

theorem BinaryOperator.token_of_binary {operator : OperatorToken} {op : BinaryOperator}
    (h : operator.binary = some op) :
    op.token = .operator operator ∨ op = .eq ∧ operator = .doubleEq := by
  cases operator <;> cases h
  case doubleEq => exact .inr ⟨rfl, rfl⟩
  all_goals exact .inl rfl

theorem UnaryOperator.token_of_unary {operator : OperatorToken} {op : UnaryOperator} (h : operator.unary = some op) :
    op.token = .operator operator := by
  cases operator <;> cases h <;> rfl

theorem getNextPrecedence_between (negated : Bool) (rest : List Token) :
    getNextPrecedence (notTokens negated ++ .keyword .BETWEEN :: rest) = precValue .between := by
  cases negated <;> rfl

theorem getNextPrecedence_like (negated insensitive : Bool) (rest : List Token) :
    getNextPrecedence (notTokens negated ++ .keyword (if insensitive then .ILIKE else .LIKE) :: rest)
      = precValue .like := by
  cases negated <;> cases insensitive <;> rfl

/-- An operand that was read at a level. -/
structure Operand (depth level : ℕ) (expr : Expr) (input rest : List Token) : Prop where
  fits : expr.Fits level
  stops : expr.Stops (getNextPrecedence rest)
  ends : getNextPrecedence rest ≤ level
  deep : expr.depth ≤ depth
  spelled : ∃ front, input = front ++ rest ∧ expr.Spells front

/-- Every operand is read so. -/
def ReadsOperands (depth : ℕ) (sub : ℕ → List Token → Parsed) : Prop :=
  ∀ ⦃level input expr rest⦄, sub level input = .ok (expr, rest) → Operand depth level expr input rest

/-- What a prefix gives, at whatever level it is read. -/
structure Headed (depth : ℕ) (expr : Expr) (input rest : List Token) : Prop where
  fits : ∀ level, expr.Fits level
  stops : expr.Stops (getNextPrecedence rest)
  deep : expr.depth ≤ depth + 1
  spelled : ∃ front, input = front ++ rest ∧ expr.Spells front

theorem headed_identifier (depth : ℕ) (name : String) (rest : List Token) :
    Headed depth (.identifier name) (.word name :: rest) rest :=
  ⟨fun _ => trivial, trivial, Nat.le_add_left 1 depth, _, rfl, .identifier name⟩

theorem headed_keywordIdentifier (depth : ℕ) (keyword : Keyword) (rest : List Token) :
    Headed depth (.keywordIdentifier keyword) (.keyword keyword :: rest) rest :=
  ⟨fun _ => trivial, trivial, Nat.le_add_left 1 depth, _, rfl, .keywordIdentifier keyword⟩

theorem headed_value (depth : ℕ) (literal : Value) (rest : List Token) :
    Headed depth (.value literal) ((Expr.value literal).tokens ++ rest) rest :=
  ⟨fun _ => trivial, trivial, Nat.le_add_left 1 depth, _, rfl, .value literal⟩

theorem Operand.headed_unaryOp {op : UnaryOperator} (h : Operand depth op.power expr input rest) :
    Headed depth (.unaryOp op expr) (op.token :: input) rest := by
  obtain ⟨front, rfl, hfront⟩ := h.spelled
  exact ⟨fun _ => h.fits, ⟨h.ends, h.stops⟩, Nat.succ_le_succ h.deep, _, rfl, .unaryOp op hfront⟩

theorem Operand.headed_nested (h : Operand depth precUnknown expr input (.rParen :: rest)) :
    Headed depth (.nested expr) (.lParen :: input) rest := by
  obtain ⟨front, rfl, hfront⟩ := h.spelled
  refine ⟨fun _ => h.fits, trivial, Nat.succ_le_succ h.deep, _, ?_, .nested hfront⟩
  rw [List.cons_append, List.append_assoc, List.singleton_append]

theorem eq_of_parseUnreservedWord (h : parseUnreservedWord left input = .ok (expr, rest)) :
    left = expr ∧ input = rest := by
  rw [parseUnreservedWord] at h
  split_ifs at h
  exact Prod.mk.inj (Except.ok.inj h)

theorem headed_of_parsePrefix (hsub : ReadsOperands depth sub) (h : parsePrefix sub input = .ok (expr, rest)) :
    Headed depth expr input rest := by
  unfold parsePrefix at h
  split at h
  case h_1 value text tail =>
    split_ifs at h
    obtain ⟨rfl, rfl⟩ := Prod.mk.inj (Except.ok.inj h)
    exact headed_identifier _ _ _
  case h_2 value tail _ =>
    obtain ⟨rfl, rfl⟩ := eq_of_parseUnreservedWord h
    exact headed_identifier _ _ _
  case h_3 tail =>
    obtain ⟨rfl, rfl⟩ := Prod.mk.inj (Except.ok.inj h)
    exact headed_value _ (.boolean true) _
  case h_4 tail =>
    obtain ⟨rfl, rfl⟩ := Prod.mk.inj (Except.ok.inj h)
    exact headed_value _ (.boolean false) _
  case h_5 tail =>
    obtain ⟨rfl, rfl⟩ := Prod.mk.inj (Except.ok.inj h)
    exact headed_value _ .null _
  case h_6 tail =>
    split at h
    case h_1 operand tail hread =>
      obtain ⟨rfl, rfl⟩ := Prod.mk.inj (Except.ok.inj h)
      exact Operand.headed_unaryOp (hsub hread)
    case h_2 => cases h
    case h_3 =>
      obtain ⟨rfl, rfl⟩ := eq_of_parseUnreservedWord h
      exact headed_keywordIdentifier _ _ _
  case h_7 keyword tail _ _ _ _ =>
    obtain ⟨rfl, rfl⟩ := eq_of_parseUnreservedWord h
    exact headed_keywordIdentifier _ _ _
  case h_8 value tail =>
    obtain ⟨rfl, rfl⟩ := Prod.mk.inj (Except.ok.inj h)
    exact headed_value _ (.number value) _
  case h_9 => cases h
  case h_10 value tail _ =>
    obtain ⟨rfl, rfl⟩ := Prod.mk.inj (Except.ok.inj h)
    exact headed_value _ (.singleQuotedString value) _
  case h_11 tail =>
    split at h
    case h_1 => cases h
    case h_2 operand tail hread =>
      obtain ⟨rfl, rfl⟩ := Prod.mk.inj (Except.ok.inj h)
      exact Operand.headed_nested (hsub hread)
    case h_3 => cases h
  case h_12 operator tail =>
    split at h
    case h_1 op hop =>
      obtain ⟨operand, hread, rfl⟩ := exists_of_node_eq_ok h
      rw [← UnaryOperator.token_of_unary hop]
      exact Operand.headed_unaryOp (hsub hread)
    case h_2 => cases h
  case h_13 => cases h
  case h_14 => cases h

/-- What a round gives. -/
structure Extended (depth level : ℕ) (expr : Expr) (rest : List Token) : Prop where
  fits : expr.Fits level
  stops : expr.Stops (getNextPrecedence rest)
  deep : expr.depth ≤ depth + 1

/-- A round keeps a left operand grouped, and takes the tokens that the operator is written with. -/
structure RoundOf (depth : ℕ) (left expr : Expr) (input rest : List Token) : Prop where
  grouped : ∀ level, level < getNextPrecedence input → Extended depth level left input → Extended depth level expr rest
  spelled : ∃ back, back ≠ [] ∧ input = back ++ rest ∧ ∀ front, left.Spells front → expr.Spells (front ++ back)

theorem grouped_binaryOp {op : BinaryOperator} {right : Expr} {tail : List Token}
    (hnext : getNextPrecedence input = op.power) (hright : Operand depth op.power right tail rest) (level : ℕ)
    (hlevel : level < getNextPrecedence input) (hleft : Extended depth level left input) :
    Extended depth level (.binaryOp left op right) rest := by
  have hstops := hleft.stops
  rw [hnext] at hlevel hstops
  exact ⟨⟨hlevel, hleft.fits, hstops, hright.fits⟩, ⟨hright.ends, hright.stops⟩,
    max_le hleft.deep (Nat.succ_le_succ hright.deep)⟩

theorem roundOf_binaryOp {token : Token} {op : BinaryOperator} {right : Expr}
    (hnext : getNextPrecedence (token :: input) = op.power)
    (htoken : op.token = token ∨ op = .eq ∧ token = .operator .doubleEq)
    (hright : Operand depth op.power right input rest) :
    RoundOf depth left (.binaryOp left op right) (token :: input) rest := by
  refine ⟨grouped_binaryOp hnext hright, ?_⟩
  obtain ⟨back, rfl, hback⟩ := hright.spelled
  refine ⟨token :: back, List.cons_ne_nil _ _, rfl, fun front hfront => ?_⟩
  rcases htoken with rfl | ⟨rfl, rfl⟩
  · exact .binaryOp op hfront hback
  · exact .doubleEq hfront hback

theorem grouped_isTest {test : IsTest} (hnext : getNextPrecedence input = precValue .is) (rest : List Token)
    (level : ℕ) (hlevel : level < getNextPrecedence input) (hleft : Extended depth level left input) :
    Extended depth level (.isTest left test) rest := by
  have hstops := hleft.stops
  rw [hnext] at hlevel hstops
  exact ⟨⟨hlevel, hleft.fits, hstops⟩, trivial, hleft.deep⟩

theorem roundOf_isTest (depth : ℕ) (left : Expr) (test : IsTest) (rest : List Token) :
    RoundOf depth left (.isTest left test) (.keyword .IS :: (test.tokens ++ rest)) rest :=
  ⟨grouped_isTest rfl rest, _, List.cons_ne_nil _ _, rfl, fun _ hfront => .isTest test hfront⟩

theorem roundOf_isDistinctFrom {negated : Bool} {right : Expr} (hright : Operand depth precUnknown right input rest) :
    RoundOf depth left (.isDistinctFrom left negated right)
      (.keyword .IS :: (notTokens negated ++ .keyword .DISTINCT :: .keyword .FROM :: input)) rest := by
  obtain ⟨back, rfl, hback⟩ := hright.spelled
  refine ⟨fun level hlevel hleft => ?_, _, List.cons_ne_nil _ _, ?_,
    fun _ hfront => .isDistinctFrom negated hfront hback⟩
  · exact ⟨⟨hlevel, hleft.fits, hleft.stops, hright.fits⟩, ⟨hright.ends, hright.stops⟩,
      max_le hleft.deep (Nat.succ_le_succ hright.deep)⟩
  · rw [List.cons_append, List.append_assoc, List.cons_append, List.cons_append]

theorem roundOf_parseIs {tail : List Token} (hsub : ReadsOperands depth sub)
    (h : parseIs sub left tail = .ok (expr, rest)) : RoundOf depth left expr (.keyword .IS :: tail) rest := by
  unfold parseIs at h
  split at h
  case h_9 =>
    obtain ⟨right, hread, rfl⟩ := exists_of_node_eq_ok h
    exact @roundOf_isDistinctFrom depth left _ rest false right (hsub hread)
  case h_10 =>
    obtain ⟨right, hread, rfl⟩ := exists_of_node_eq_ok h
    exact @roundOf_isDistinctFrom depth left _ rest true right (hsub hread)
  case h_11 => cases h
  all_goals
    obtain ⟨rfl, rfl⟩ := Prod.mk.inj (Except.ok.inj h)
    exact roundOf_isTest depth left _ _

theorem roundOf_parseBetween {negated : Bool} (hsub : ReadsOperands depth sub)
    (h : parseBetween sub left negated input = .ok (expr, rest)) :
    RoundOf depth left expr (notTokens negated ++ .keyword .BETWEEN :: input) rest := by
  rw [parseBetween] at h
  split at h
  case h_1 => cases h
  case h_3 => cases h
  case h_2 low tail hlow =>
    obtain ⟨high, hhigh, rfl⟩ := exists_of_node_eq_ok h
    have hlow := hsub hlow
    have hhigh := hsub hhigh
    obtain ⟨middle, rfl, hmiddle⟩ := hlow.spelled
    obtain ⟨back, rfl, hback⟩ := hhigh.spelled
    refine ⟨fun level hlevel hleft => ?_, _, ?_, ?_, fun _ hfront => .between negated hfront hmiddle hback⟩
    · have hstops := hleft.stops
      rw [getNextPrecedence_between] at hlevel hstops
      exact ⟨⟨hlevel, hleft.fits, hstops, hlow.fits, hlow.stops, hhigh.fits⟩, ⟨hhigh.ends, hhigh.stops⟩,
        max_le hleft.deep (Nat.succ_le_succ (max_le hlow.deep hhigh.deep))⟩
    · simp
    · rw [List.append_assoc, List.cons_append, List.append_assoc, List.cons_append]

theorem roundOf_parseLike {negated insensitive : Bool} (hsub : ReadsOperands depth sub)
    (h : parseLike sub left negated insensitive input = .ok (expr, rest)) :
    RoundOf depth left expr (notTokens negated ++ .keyword (if insensitive then .ILIKE else .LIKE) :: input) rest := by
  obtain ⟨pattern, hread, rfl⟩ := exists_of_node_eq_ok h
  have hpattern := hsub hread
  obtain ⟨back, rfl, hback⟩ := hpattern.spelled
  refine ⟨fun level hlevel hleft => ?_, _, ?_, ?_, fun _ hfront => .like negated insensitive hfront hback⟩
  · have hstops := hleft.stops
    rw [getNextPrecedence_like] at hlevel hstops
    exact ⟨⟨hlevel, hleft.fits, hstops, hpattern.fits⟩, ⟨hpattern.ends, hpattern.stops⟩,
      max_le hleft.deep (Nat.succ_le_succ hpattern.deep)⟩
  · simp
  · rw [List.append_assoc, List.cons_append]

theorem roundOf_parseInfix (hsub : ReadsOperands depth sub) (h : parseInfix sub left input = .ok (expr, rest)) :
    RoundOf depth left expr input rest := by
  unfold parseInfix at h
  split at h
  case h_1 operator tail =>
    split at h
    case h_1 op hop =>
      obtain ⟨right, hread, rfl⟩ := exists_of_node_eq_ok h
      have hpower := BinaryOperator.power_of_binary hop
      have htoken : op.token = .operator operator ∨ op = .eq ∧ Token.operator operator = .operator .doubleEq :=
        (BinaryOperator.token_of_binary hop).imp_right fun heq => ⟨heq.1, congrArg _ heq.2⟩
      exact roundOf_binaryOp hpower.symm htoken (hpower ▸ hsub hread)
    case h_2 => cases h
  case h_2 tail =>
    obtain ⟨right, hread, rfl⟩ := exists_of_node_eq_ok h
    exact roundOf_binaryOp rfl (.inl rfl) (hsub hread)
  case h_3 tail =>
    obtain ⟨right, hread, rfl⟩ := exists_of_node_eq_ok h
    exact roundOf_binaryOp rfl (.inl rfl) (hsub hread)
  case h_4 tail =>
    obtain ⟨right, hread, rfl⟩ := exists_of_node_eq_ok h
    exact roundOf_binaryOp rfl (.inl rfl) (hsub hread)
  case h_5 tail => exact roundOf_parseIs hsub h
  case h_6 tail =>
    obtain ⟨rfl, rfl⟩ := Prod.mk.inj (Except.ok.inj h)
    exact ⟨grouped_isTest rfl _, [_], List.cons_ne_nil _ _, rfl, fun _ hfront => .notnull hfront⟩
  case h_7 tail =>
    obtain ⟨rfl, rfl⟩ := Prod.mk.inj (Except.ok.inj h)
    exact ⟨grouped_isTest rfl _, [_, _], List.cons_ne_nil _ _, rfl, fun _ hfront => .notNull hfront⟩
  case h_8 tail => exact @roundOf_parseBetween _ _ _ _ _ _ true hsub h
  case h_9 tail => exact @roundOf_parseBetween _ _ _ _ _ _ false hsub h
  case h_10 tail => exact @roundOf_parseLike _ _ _ _ _ _ true false hsub h
  case h_11 tail => exact @roundOf_parseLike _ _ _ _ _ _ false false hsub h
  case h_12 tail => exact @roundOf_parseLike _ _ _ _ _ _ true true hsub h
  case h_13 tail => exact @roundOf_parseLike _ _ _ _ _ _ false true hsub h
  case h_14 => cases h
  case h_15 => cases h

theorem RoundOf.length_lt (h : RoundOf depth left expr input rest) : rest.length < input.length := by
  obtain ⟨back, hback, rfl, -⟩ := h.spelled
  rw [List.length_append]
  exact Nat.lt_add_of_pos_left (List.length_pos_iff.mpr hback)

/-- The whole recursion reads operands: by induction on the depth, and in it over the rounds. -/
theorem readsOperands_parseSubexpr (depth : ℕ) : ReadsOperands depth (parseSubexpr depth) := by
  induction depth with
  | zero =>
      intro level input expr rest h
      cases h
  | succ depth ih =>
      intro level input expr rest h
      rw [parseSubexpr] at h
      split at h
      case h_1 => cases h
      case h_2 first tail hprefix =>
        have hhead := headed_of_parsePrefix ih hprefix
        have hrounds : Consumes (parseInfix (parseSubexpr depth)) :=
          fun _ _ _ _ hround => (roundOf_parseInfix ih hround).length_lt
        obtain ⟨⟨hextended, hspelled⟩, hends⟩ := invariant_of_climb rfl hrounds
          (fun expr rest => Extended depth level expr rest ∧ ∃ front, input = front ++ rest ∧ expr.Spells front)
          (fun _ _ _ _ hheld hlevel hround => by
            have hnext := roundOf_parseInfix ih hround
            obtain ⟨hextended, front, hinput, hfront⟩ := hheld
            obtain ⟨back, -, rfl, hback⟩ := hnext.spelled
            exact ⟨hnext.grouped level hlevel hextended, front ++ back, by rw [hinput, List.append_assoc],
              hback front hfront⟩)
          ⟨⟨hhead.fits level, hhead.stops, hhead.deep⟩, hhead.spelled⟩ h
        exact ⟨hextended.fits, hextended.stops, hends, hextended.deep, hspelled⟩

/-! ## What is grouped by precedence is parsed -/

/-- What follows is not read together with an operand: no call, no string. -/
def Closed (rest : List Token) : Prop :=
  rest.head? ≠ some .lParen ∧ ∀ text, rest.head? ≠ some (.singleQuotedString text)

theorem Expr.depth_pos (expr : Expr) : 0 < expr.depth := by
  induction expr with
  | identifier | keywordIdentifier | value => exact Nat.one_pos
  | nested | unaryOp => exact Nat.succ_pos _
  | isTest _ _ ih => exact ih
  | binaryOp | isDistinctFrom | between | like => exact lt_max_of_lt_right (Nat.succ_pos _)

/-- Go on behind a left operand. -/
abbrev resume (depth level : ℕ) (left : Expr) (rest : List Token) : Parsed :=
  climb getNextPrecedence (parseInfix (parseSubexpr depth)) level rest.length left rest

theorem parseSubexpr_of_prefix (h : parsePrefix (parseSubexpr depth) input = .ok (expr, rest)) :
    parseSubexpr (depth + 1) level input = resume depth level expr rest := by
  rw [parseSubexpr, h]

theorem resume_of_infix (h : parseInfix (parseSubexpr depth) left input = .ok (expr, rest))
    (hlevel : level < getNextPrecedence input) : resume depth level left input = resume depth level expr rest :=
  climb_step rfl (fun _ _ _ _ hround => (roundOf_parseInfix (readsOperands_parseSubexpr depth) hround).length_lt)
    hlevel h

theorem BinaryOperator.getNextPrecedence_token (op : BinaryOperator) (rest : List Token) :
    getNextPrecedence (op.token :: rest) = op.power := by
  cases op <;> rfl

theorem BinaryOperator.closed_token (op : BinaryOperator) (rest : List Token) : Closed (op.token :: rest) := by
  cases op <;> exact ⟨nofun, fun _ => nofun⟩

theorem closed_keyword (keyword : Keyword) (rest : List Token) : Closed (.keyword keyword :: rest) :=
  ⟨nofun, fun _ => nofun⟩

theorem closed_notTokens (negated : Bool) (keyword : Keyword) (rest : List Token) :
    Closed (notTokens negated ++ .keyword keyword :: rest) := by
  cases negated <;> exact closed_keyword _ _

theorem parseInfix_binaryOp {op : BinaryOperator} {right : Expr} (h : sub op.power input = .ok (right, rest)) :
    parseInfix sub left (op.token :: input) = .ok (.binaryOp left op right, rest) := by
  have hnode : (sub op.power input).node (.binaryOp left op) = .ok (.binaryOp left op right, rest) := by
    rw [h, Parsed.node]
  rw [← hnode]
  cases op <;> rfl

theorem parsePrefix_unaryOp {op : UnaryOperator} (h : sub op.power input = .ok (expr, rest)) :
    parsePrefix sub (op.token :: input) = .ok (.unaryOp op expr, rest) := by
  have hnode : (sub op.power input).node (.unaryOp op) = .ok (.unaryOp op expr, rest) := by
    rw [h, Parsed.node]
  cases op
  case not =>
    have hnot : sub (precValue .unaryNot) input = .ok (expr, rest) := h
    rw [UnaryOperator.token, parsePrefix, hnot]
  all_goals exact hnode

theorem parseIs_isTest (test : IsTest) (rest : List Token) :
    parseIs sub left (test.tokens ++ rest) = .ok (.isTest left test, rest) := by
  cases test <;> rfl

theorem parseIs_isDistinctFrom {negated : Bool} {right : Expr} (h : sub precUnknown input = .ok (right, rest)) :
    parseIs sub left (notTokens negated ++ .keyword .DISTINCT :: .keyword .FROM :: input)
      = .ok (.isDistinctFrom left negated right, rest) := by
  have hnode : (sub precUnknown input).node (.isDistinctFrom left negated)
      = .ok (.isDistinctFrom left negated right, rest) := by rw [h, Parsed.node]
  cases negated <;> exact hnode

theorem parseBetween_eq {negated : Bool} {low high : Expr} {tail : List Token}
    (hlow : sub (precValue .between) input = .ok (low, .keyword .AND :: tail))
    (hhigh : sub (precValue .between) tail = .ok (high, rest)) :
    parseInfix sub left (notTokens negated ++ .keyword .BETWEEN :: input) =
      .ok (.between left negated low high, rest) := by
  have hparse : parseBetween sub left negated input = .ok (.between left negated low high, rest) := by
    rw [parseBetween, hlow]
    simp only [hhigh, Parsed.node]
  cases negated <;> exact hparse

theorem parseInfix_like {negated insensitive : Bool} {pattern : Expr}
    (h : sub (precValue .like) input = .ok (pattern, rest)) :
    parseInfix sub left (notTokens negated ++ .keyword (if insensitive then .ILIKE else .LIKE) :: input)
      = .ok (.like left negated insensitive pattern, rest) := by
  have hparse : parseLike sub left negated insensitive input = .ok (.like left negated insensitive pattern, rest) := by
    rw [parseLike, h, Parsed.node]
  cases negated <;> cases insensitive <;> exact hparse

/-- Behind its tokens, the parser has the expression as its left operand. -/
def Resumes (expr : Expr) : Prop :=
  ∀ ⦃depth level rest⦄, expr.Fits level → expr.Stops (getNextPrecedence rest) → Closed rest → expr.depth ≤ depth + 1 →
    parseSubexpr (depth + 1) level (expr.tokens ++ rest) = resume depth level expr rest

/-- Where nothing more binds, it is read. -/
theorem Resumes.operand (h : Resumes expr) (hfits : expr.Fits level) (hstops : expr.Stops (getNextPrecedence rest))
    (hclosed : Closed rest) (hends : getNextPrecedence rest ≤ level) (hdepth : expr.depth ≤ depth) :
    parseSubexpr depth level (expr.tokens ++ rest) = .ok (expr, rest) := by
  cases depth with
  | zero => exact absurd hdepth (Nat.not_le.mpr expr.depth_pos)
  | succ depth => rw [h hfits hstops hclosed hdepth, resume, climb_of_le _ _ hends]

theorem resumes_unaryOp {op : UnaryOperator} (ih : Resumes expr) : Resumes (.unaryOp op expr) := by
  intro depth level rest hfits hstops hclosed hdepth
  have hoperand := ih.operand hfits hstops.2 hclosed hstops.1 (Nat.le_of_succ_le_succ hdepth)
  exact parseSubexpr_of_prefix (parsePrefix_unaryOp hoperand)

theorem Expr.stops_zero (expr : Expr) : expr.Stops 0 := by
  induction expr with
  | identifier | keywordIdentifier | value | nested | isTest => trivial
  | unaryOp _ _ ih => exact ⟨Nat.zero_le _, ih⟩
  | binaryOp _ _ _ _ ih => exact ⟨Nat.zero_le _, ih⟩
  | isDistinctFrom _ _ _ _ ih => exact ⟨Nat.zero_le _, ih⟩
  | between _ _ _ _ _ _ ih => exact ⟨Nat.zero_le _, ih⟩
  | like _ _ _ _ _ ih => exact ⟨Nat.zero_le _, ih⟩

theorem resumes_nested (ih : Resumes expr) : Resumes (.nested expr) := by
  intro depth level rest hfits hstops hclosed hdepth
  have hoperand : parseSubexpr depth precUnknown (expr.tokens ++ .rParen :: rest) = .ok (expr, .rParen :: rest) :=
    ih.operand hfits expr.stops_zero ⟨nofun, fun _ => nofun⟩ le_rfl (Nat.le_of_succ_le_succ hdepth)
  have hprefix : parsePrefix (parseSubexpr depth) (.lParen :: (expr.tokens ++ .rParen :: rest))
      = .ok (.nested expr, rest) := by
    rw [parsePrefix, hoperand]
  rw [Expr.tokens, List.cons_append, List.append_assoc]
  exact parseSubexpr_of_prefix hprefix

theorem resumes_leaf {token : Token} (htokens : expr.tokens = [token])
    (h : ∀ ⦃depth rest⦄, Closed rest → parsePrefix (parseSubexpr depth) (token :: rest) = .ok (expr, rest)) :
    Resumes expr := by
  intro depth level rest hfits hstops hclosed hdepth
  rw [htokens, List.singleton_append]
  exact parseSubexpr_of_prefix (h hclosed)

theorem resumes_binaryOp {op : BinaryOperator} {right : Expr} (ihleft : Resumes left) (ihright : Resumes right) :
    Resumes (.binaryOp left op right) := by
  intro depth level rest hfits hstops hclosed hdepth
  obtain ⟨hlevel, hleft, hleftStops, hright⟩ := hfits
  obtain ⟨hleftDepth, hrightDepth⟩ := max_le_iff.mp hdepth
  have hnext := op.getNextPrecedence_token (right.tokens ++ rest)
  have hoperand := ihright.operand hright hstops.2 hclosed hstops.1 (Nat.le_of_succ_le_succ hrightDepth)
  rw [Expr.tokens, List.append_assoc, List.cons_append,
    ihleft hleft (hnext ▸ hleftStops) (op.closed_token _) hleftDepth]
  exact resume_of_infix (parseInfix_binaryOp hoperand) (hnext ▸ hlevel)

theorem resumes_isTest {test : IsTest} (ih : Resumes expr) : Resumes (.isTest expr test) := by
  intro depth level rest hfits hstops hclosed hdepth
  obtain ⟨hlevel, hleft, hleftStops⟩ := hfits
  have hround : parseInfix (parseSubexpr depth) expr (.keyword .IS :: (test.tokens ++ rest))
      = .ok (.isTest expr test, rest) := parseIs_isTest test rest
  have hleftRead : parseSubexpr (depth + 1) level (expr.tokens ++ .keyword .IS :: (test.tokens ++ rest))
      = resume depth level expr (.keyword .IS :: (test.tokens ++ rest)) :=
    ih hleft hleftStops (closed_keyword _ _) hdepth
  rw [Expr.tokens, List.append_assoc, List.cons_append, hleftRead]
  exact resume_of_infix hround hlevel

theorem resumes_isDistinctFrom {negated : Bool} {right : Expr} (ihleft : Resumes left) (ihright : Resumes right) :
    Resumes (.isDistinctFrom left negated right) := by
  intro depth level rest hfits hstops hclosed hdepth
  obtain ⟨hlevel, hleft, hleftStops, hright⟩ := hfits
  obtain ⟨hleftDepth, hrightDepth⟩ := max_le_iff.mp hdepth
  have hoperand := ihright.operand hright hstops.2 hclosed hstops.1 (Nat.le_of_succ_le_succ hrightDepth)
  have hround : parseInfix (parseSubexpr depth) left
      (.keyword .IS :: (notTokens negated ++ .keyword .DISTINCT :: .keyword .FROM :: (right.tokens ++ rest)))
        = .ok (.isDistinctFrom left negated right, rest) := parseIs_isDistinctFrom hoperand
  have hleftRead : ∀ tail, parseSubexpr (depth + 1) level (left.tokens ++ .keyword .IS :: tail)
      = resume depth level left (.keyword .IS :: tail) :=
    fun tail => ihleft hleft hleftStops (closed_keyword _ tail) hleftDepth
  rw [Expr.tokens, List.append_assoc, List.cons_append, List.append_assoc, List.cons_append, List.cons_append, hleftRead]
  exact resume_of_infix hround hlevel

theorem resumes_between {negated : Bool} {low high : Expr} (ihexpr : Resumes expr) (ihlow : Resumes low)
    (ihhigh : Resumes high) : Resumes (.between expr negated low high) := by
  intro depth level rest hfits hstops hclosed hdepth
  obtain ⟨hlevel, hleft, hleftStops, hlow, hlowStops, hhigh⟩ := hfits
  obtain ⟨hleftDepth, hoperands⟩ := max_le_iff.mp hdepth
  obtain ⟨hlowDepth, hhighDepth⟩ := max_le_iff.mp (Nat.le_of_succ_le_succ hoperands)
  -- `AND` binds more loosely than `BETWEEN`, so that the lower bound ends there
  have hlowRead : parseSubexpr depth (precValue .between) (low.tokens ++ .keyword .AND :: (high.tokens ++ rest))
      = .ok (low, .keyword .AND :: (high.tokens ++ rest)) :=
    ihlow.operand hlow hlowStops (closed_keyword _ _) (show precValue .and ≤ precValue .between by decide) hlowDepth
  have hhighRead := ihhigh.operand hhigh hstops.2 hclosed hstops.1 hhighDepth
  have hnext := getNextPrecedence_between negated (low.tokens ++ .keyword .AND :: (high.tokens ++ rest))
  rw [Expr.tokens, List.append_assoc, List.append_assoc, List.cons_append, List.append_assoc, List.cons_append,
    ihexpr hleft (hnext ▸ hleftStops) (closed_notTokens _ _ _) hleftDepth]
  exact resume_of_infix (parseBetween_eq hlowRead hhighRead) (hnext ▸ hlevel)

theorem resumes_like {negated insensitive : Bool} {pattern : Expr} (ihexpr : Resumes expr)
    (ihpattern : Resumes pattern) :
    Resumes (.like expr negated insensitive pattern) := by
  intro depth level rest hfits hstops hclosed hdepth
  obtain ⟨hlevel, hleft, hleftStops, hpattern⟩ := hfits
  obtain ⟨hleftDepth, hpatternDepth⟩ := max_le_iff.mp hdepth
  have hoperand := ihpattern.operand hpattern hstops.2 hclosed hstops.1 (Nat.le_of_succ_le_succ hpatternDepth)
  have hnext := getNextPrecedence_like negated insensitive (pattern.tokens ++ rest)
  rw [Expr.tokens, List.append_assoc, List.append_assoc, List.cons_append,
    ihexpr hleft (hnext ▸ hleftStops) (closed_notTokens _ _ _) hleftDepth]
  exact resume_of_infix (parseInfix_like hoperand) (hnext ▸ hlevel)

theorem parseUnreservedWord_of_closed (hclosed : Closed rest) (expr : Expr) :
    parseUnreservedWord expr rest = .ok (expr, rest) := if_neg hclosed.1

theorem parsePrefix_identifier (hclosed : Closed rest) (name : String) :
    parsePrefix sub (.word name :: rest) = .ok (.identifier name, rest) := by
  have hstring : ∀ text tail, rest ≠ .singleQuotedString text :: tail := fun text tail heq =>
    hclosed.2 text (by rw [heq]; rfl)
  rw [parsePrefix]
  · exact parseUnreservedWord_of_closed hclosed _
  · exact hstring

theorem parsePrefix_keywordIdentifier (hclosed : Closed rest) {keyword : Keyword}
    (hreadable : (Expr.keywordIdentifier keyword).Readable) :
    parsePrefix sub (.keyword keyword :: rest) = .ok (.keywordIdentifier keyword, rest) := by
  obtain ⟨hnot, htrue, hfalse, hnull⟩ := hreadable
  rw [parsePrefix]
  · exact parseUnreservedWord_of_closed hclosed _
  · exact htrue
  · exact hfalse
  · exact hnull
  · exact hnot

theorem parsePrefix_string (hclosed : Closed rest) (text : String) :
    parsePrefix sub (.singleQuotedString text :: rest) = .ok (.value (.singleQuotedString text), rest) := by
  rw [parsePrefix]
  intro next tail heq
  exact hclosed.2 next (by rw [heq]; rfl)

/-- Every readable expression is parsed from its tokens, by induction on it. -/
theorem resumes_of_readable (hreadable : expr.Readable) : Resumes expr := by
  induction expr with
  | identifier name => exact resumes_leaf rfl fun _ _ hclosed => parsePrefix_identifier hclosed name
  | keywordIdentifier keyword => exact resumes_leaf rfl fun _ _ hclosed => parsePrefix_keywordIdentifier hclosed hreadable
  | value value =>
      cases value with
      | number text => exact resumes_leaf rfl fun _ _ _ => rfl
      | singleQuotedString text => exact resumes_leaf rfl fun _ _ hclosed => parsePrefix_string hclosed text
      | boolean truth => cases truth <;> exact resumes_leaf rfl fun _ _ _ => rfl
      | null => exact resumes_leaf rfl fun _ _ _ => rfl
  | nested expr ih => exact resumes_nested (ih hreadable)
  | unaryOp op expr ih => exact resumes_unaryOp (ih hreadable)
  | binaryOp left op right ihleft ihright => exact resumes_binaryOp (ihleft hreadable.1) (ihright hreadable.2)
  | isTest expr test ih => exact resumes_isTest (ih hreadable)
  | isDistinctFrom left negated right ihleft ihright =>
      exact resumes_isDistinctFrom (ihleft hreadable.1) (ihright hreadable.2)
  | between expr negated low high ihexpr ihlow ihhigh =>
      exact resumes_between (ihexpr hreadable.1) (ihlow hreadable.2.1) (ihhigh hreadable.2.2)
  | like expr negated insensitive pattern ihexpr ihpattern =>
      exact resumes_like (ihexpr hreadable.1) (ihpattern hreadable.2)

/-- An expression is parsed from its own tokens exactly if it is grouped as the precedences say and the recursion
counter lets the parser go so deep. -/
theorem parseSubexpr_tokens_iff (hreadable : expr.Readable) (hclosed : Closed rest) :
    parseSubexpr depth level (expr.tokens ++ rest) = .ok (expr, rest)
      ↔ expr.Fits level ∧ expr.Stops (getNextPrecedence rest) ∧ getNextPrecedence rest ≤ level ∧ expr.depth ≤ depth := by
  constructor
  · intro h
    have hoperand := readsOperands_parseSubexpr depth h
    exact ⟨hoperand.fits, hoperand.stops, hoperand.ends, hoperand.deep⟩
  · rintro ⟨hfits, hstops, hends, hdepth⟩
    exact (resumes_of_readable hreadable).operand hfits hstops hclosed hends hdepth

namespace Sample

/-- `a IS DISTINCT FROM b AND c`, with the conjunction as the operand. -/
def distinctFrom : Expr := .isDistinctFrom (.identifier "a") false (.binaryOp (.identifier "b") .and (.identifier "c"))

/-- The same tokens, with the comparison as the operand. -/
def conjunction : Expr := .binaryOp (.isDistinctFrom (.identifier "a") false (.identifier "b")) .and (.identifier "c")

end Sample

theorem parseSubexpr_distinctFrom :
    parseSubexpr 50 precUnknown (Sample.distinctFrom.tokens ++ []) = .ok (Sample.distinctFrom, []) ∧
      parseSubexpr 50 precUnknown (Sample.conjunction.tokens ++ []) ≠ .ok (Sample.conjunction, []) := by
  have hclosed : Closed [] := ⟨nofun, fun _ => nofun⟩
  constructor
  · have hfits : Sample.distinctFrom.Fits precUnknown :=
      ⟨by decide, trivial, trivial, by decide, trivial, trivial, trivial⟩
    have hreadable : Sample.distinctFrom.Readable := ⟨trivial, trivial, trivial⟩
    exact (parseSubexpr_tokens_iff hreadable hclosed).mpr ⟨hfits, Expr.stops_zero _, le_rfl, by decide⟩
  · intro h
    have hreadable : Sample.conjunction.Readable := ⟨⟨trivial, trivial⟩, trivial⟩
    obtain ⟨⟨-, -, hstops, -⟩, -⟩ := (parseSubexpr_tokens_iff hreadable hclosed).mp h
    exact absurd hstops.1 (by decide)

/-- Whatever is parsed was read from the tokens that it was taken from, is grouped as the precedences say, and is the
only expression so grouped with these tokens. -/
theorem parseSubexpr_sound (h : parseSubexpr depth level input = .ok (expr, rest)) :
    (∃ front, input = front ++ rest ∧ expr.Spells front) ∧ expr.Fits level ∧ expr.Stops (getNextPrecedence rest) ∧
      getNextPrecedence rest ≤ level ∧ expr.depth ≤ depth ∧
        ∀ other rest', other.Readable → Closed rest' → other.Fits level → other.Stops (getNextPrecedence rest') →
          getNextPrecedence rest' ≤ level → other.depth ≤ depth → input = other.tokens ++ rest' →
            other = expr ∧ rest' = rest := by
  have hoperand := readsOperands_parseSubexpr depth h
  refine ⟨hoperand.spelled, hoperand.fits, hoperand.stops, hoperand.ends, hoperand.deep, ?_⟩
  rintro other rest' hreadable hclosed hfits hstops hends hdepth rfl
  have hother := (resumes_of_readable hreadable).operand hfits hstops hclosed hends hdepth
  exact Prod.mk.inj (Except.ok.inj (hother.symm.trans h))

theorem parseSubexpr_sound_notNull :
    (∃ front, [.word "a", .operator .doubleEq, .word "b", .keyword .NOT, .keyword .NULL] = front ++ [] ∧
      (Expr.isTest (.binaryOp (.identifier "a") .eq (.identifier "b")) .isNotNull).Spells front) ∧
        parseSubexpr 2 precUnknown [.word "a", .operator .doubleEq, .word "b", .keyword .NOT, .keyword .NULL]
          = .ok (.isTest (.binaryOp (.identifier "a") .eq (.identifier "b")) .isNotNull, []) := by
  have hparse : parseSubexpr 2 precUnknown [.word "a", .operator .doubleEq, .word "b", .keyword .NOT, .keyword .NULL]
      = .ok (.isTest (.binaryOp (.identifier "a") .eq (.identifier "b")) .isNotNull, []) := rfl
  exact ⟨(parseSubexpr_sound hparse).1, hparse⟩

end BrewDB.Parser

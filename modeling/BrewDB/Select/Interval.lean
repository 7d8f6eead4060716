import BrewDB.Common.ExceptState
import BrewDB.Planner.Ast

/-!
# Interval literals

Reference: `brewdb-planner/src/logical/expr/interval.rs`.

Arrow's parser is a parameter. It reads a text as a list of amounts with their units; a minus belongs to the
amount behind it, and no amount has two. Reasons of errors leave out the printed syntax.
-/

namespace BrewDB.Bound

/-! ## Intervals -/

/-- `IntervalMonthDayNano`. -/
structure Interval where
  months : ℤ
  days : ℤ
  nanos : ℤ
deriving DecidableEq, Repr

namespace Interval

instance : Zero Interval := ⟨⟨0, 0, 0⟩⟩

instance : Neg Interval := ⟨fun a => ⟨-a.months, -a.days, -a.nanos⟩⟩

instance : Add Interval := ⟨fun a b => ⟨a.months + b.months, a.days + b.days, a.nanos + b.nanos⟩⟩

@[ext]
theorem ext {a b : Interval} (hmonths : a.months = b.months) (hdays : a.days = b.days)
    (hnanos : a.nanos = b.nanos) : a = b := by
  cases a
  cases b
  simp_all

@[simp] theorem zero_months : (0 : Interval).months = 0 := rfl
@[simp] theorem zero_days : (0 : Interval).days = 0 := rfl
@[simp] theorem zero_nanos : (0 : Interval).nanos = 0 := rfl
@[simp] theorem neg_months (a : Interval) : (-a).months = -a.months := rfl
@[simp] theorem neg_days (a : Interval) : (-a).days = -a.days := rfl
@[simp] theorem neg_nanos (a : Interval) : (-a).nanos = -a.nanos := rfl
@[simp] theorem add_months (a b : Interval) : (a + b).months = a.months + b.months := rfl
@[simp] theorem add_days (a b : Interval) : (a + b).days = a.days + b.days := rfl
@[simp] theorem add_nanos (a b : Interval) : (a + b).nanos = a.nanos + b.nanos := rfl

/-- The components fit their integers. -/
def InRange (a : Interval) : Prop :=
  (-2 ^ 31 ≤ a.months ∧ a.months < 2 ^ 31) ∧ (-2 ^ 31 ≤ a.days ∧ a.days < 2 ^ 31) ∧
    -2 ^ 63 ≤ a.nanos ∧ a.nanos < 2 ^ 63

instance (a : Interval) : Decidable a.InRange := inferInstanceAs (Decidable (_ ∧ _ ∧ _))

/-- An addition that overflows fails. -/
def addChecked (a b : Interval) : Option Interval := if (a + b).InRange then some (a + b) else none

/-- Amounts are added one by one. -/
def addAll (amounts : List Interval) (sum : Interval) : Option Interval := amounts.foldlM addChecked sum

end Interval

/-! ## Syntax -/

/-- The values of the syntax that an interval distinguishes; the others by their text. -/
inductive AstValue where
  | singleQuotedString (value : String)
  | doubleQuotedString (value : String)
  | number (value : String) (long : Bool)
  | other (text : String)
deriving DecidableEq, Repr

/-- The argument of `INTERVAL`; what is neither a value nor an operator by its text. -/
inductive IntervalArgument where
  | value (value : AstValue)
  | unaryOp (op : String) (expr : IntervalArgument)
  | other (text : String)
deriving DecidableEq, Repr

/-- An interval. -/
structure AstInterval where
  value : IntervalArgument
  leadingField : Option String
  leadingPrecision : Option ℕ
  lastField : Option String
  fractionalSecondsPrecision : Option ℕ

/-! ## Binding -/

/-- A minus in front of the text. -/
def withSign (negative : Bool) (value : String) : String := if negative then "-" ++ value else value

/-- `interval_literal`: every level writes its sign. -/
def intervalLiteral : IntervalArgument → Bool → Except PlannerError String
  | .value (.singleQuotedString value), negative => .ok (withSign negative value)
  | .value (.doubleQuotedString value), negative => .ok (withSign negative value)
  | .value (.number value false), negative => .ok (withSign negative value)
  | .value (.number _ true), _ => .error (.unsupportedPlan "unsupported long interval literal")
  | .value (.other _), _ => .error (.unsupportedPlan "unsupported interval literal")
  | .unaryOp op expr, negative =>
      if op = "-" then (intervalLiteral expr !negative).map (withSign negative)
      else if op = "+" then (intervalLiteral expr negative).map (withSign negative)
      else .error (.unsupportedPlan "unsupported interval unary operator")
  | .other _, _ => .error (.unsupportedPlan "unsupported interval argument")

/-- The text with the leading field. -/
def withField (value : String) : Option String → String
  | some field => value ++ " " ++ field
  | none => value

/-- `bind_interval`, with the parser as a parameter. -/
def bindInterval (parse : String → Option Interval) (interval : AstInterval) : Except PlannerError Interval :=
  if interval.leadingPrecision.isSome || interval.lastField.isSome ||
      interval.fractionalSecondsPrecision.isSome then
    .error (.unsupportedPlan "unsupported interval expression")
  else do
    let value ← intervalLiteral interval.value false
    match parse (withField value interval.leadingField) with
    | some parsed => .ok parsed
    | none => .error (.invalidPlan "invalid interval literal")

/-! ## Arrow's parser -/

/-- What is relied on of Arrow's parser of intervals. -/
structure IntervalParser where
  /-- The amounts of a text, each with its unit. -/
  amounts : String → Option (List Interval)
  amounts_ne_nil : ∀ text, amounts text ≠ some []
  /-- A minus in front of an amount without one negates it. -/
  amounts_minus : ∀ text first rest, text.toList.head? ≠ some '-' → amounts text = some (first :: rest) →
    amounts ("-" ++ text) = some (-first :: rest)
  /-- An amount has no two signs. -/
  amounts_twoSigns : ∀ text, text.toList.head? = some '-' → amounts ("-" ++ text) = none

/-- `parse_interval_month_day_nano_config`. -/
def IntervalParser.parse (parser : IntervalParser) (text : String) : Option Interval := do
  let amounts ← parser.amounts text
  Interval.addAll amounts 0

namespace Interval

/-- What is added up without overflow is the sum. -/
theorem addAll_eq_some {amounts : List Interval} {start total : Interval}
    (h : addAll amounts start = some total) :
    total.months = start.months + (amounts.map months).sum ∧ total.days = start.days + (amounts.map days).sum ∧
      total.nanos = start.nanos + (amounts.map nanos).sum := by
  induction amounts generalizing start with
  | nil =>
      obtain rfl := Option.some.inj h
      simp
  | cons amount amounts ih =>
      rw [addAll, List.foldlM_cons] at h
      obtain ⟨next, hnext, hrest⟩ := Option.bind_eq_some_iff.mp h
      obtain ⟨-, hsum⟩ := Option.ite_none_right_eq_some.mp hnext
      obtain rfl := Option.some.inj hsum
      obtain ⟨hmonths, hdays, hnanos⟩ := ih hrest
      simp only [add_months, add_days, add_nanos, add_assoc] at hmonths hdays hnanos
      simp only [List.map_cons, List.sum_cons]
      exact ⟨hmonths, hdays, hnanos⟩

end Interval

/-! ## Signs in front of a literal -/

/-- A sign. -/
inductive IntervalSign where
  | minus
  | plus
deriving DecidableEq, Repr

namespace IntervalSign

/-- The operator. -/
def op : IntervalSign → String
  | .minus => "-"
  | .plus => "+"

/-- Signs in front of a literal, the outermost first. -/
def nest (signs : List IntervalSign) (literal : AstValue) : IntervalArgument :=
  signs.foldr (fun sign expr => .unaryOp sign.op expr) (.value literal)

/-- The minuses that are written in front of the text. -/
def dashes : Bool → List IntervalSign → ℕ
  | negative, [] => negative.toNat
  | negative, .minus :: signs => negative.toNat + dashes (!negative) signs
  | negative, .plus :: signs => negative.toNat + dashes negative signs

/-- So many minuses in front of a text. -/
def dashed : ℕ → String → String
  | 0, text => text
  | n + 1, text => "-" ++ dashed n text

/-- The value negated so many times. -/
def negated (signs : List IntervalSign) (value : Interval) : Interval :=
  if signs.count .minus % 2 = 0 then value else -value

end IntervalSign

/-- The text of a quoted or numeric literal. -/
def literalText : AstValue → Option String
  | .singleQuotedString value => some value
  | .doubleQuotedString value => some value
  | .number value false => some value
  | _ => none

section Text

open IntervalSign

/-- Every level writes its sign in front of the text. -/
theorem intervalLiteral_nest {literal : AstValue} {text : String} (h : literalText literal = some text)
    (signs : List IntervalSign) (negative : Bool) :
    intervalLiteral (nest signs literal) negative = .ok (dashed (dashes negative signs) text) := by
  have hsign : ∀ (negative : Bool) (n : ℕ), withSign negative (dashed n text) =
      dashed (negative.toNat + n) text := by
    intro negative n
    cases negative with
    | false => rw [Bool.toNat_false, Nat.zero_add]; rfl
    | true => rw [Bool.toNat_true, Nat.add_comm]; rfl
  induction signs generalizing negative with
  | nil =>
      have hleaf : intervalLiteral (.value literal) negative = .ok (withSign negative text) := by
        unfold literalText at h
        split at h
        next => rw [← Option.some.inj h]; rfl
        next => rw [← Option.some.inj h]; rfl
        next => rw [← Option.some.inj h]; rfl
        next => cases h
      rw [nest, List.foldr_nil, hleaf]
      exact congrArg Except.ok (hsign negative 0)
  | cons sign signs ih =>
      cases sign with
      | minus =>
          show (intervalLiteral (nest signs literal) !negative).map (withSign negative) = _
          rw [ih]
          exact congrArg Except.ok (hsign negative _)
      | plus =>
          show (intervalLiteral (nest signs literal) negative).map (withSign negative) = _
          rw [ih]
          exact congrArg Except.ok (hsign negative _)

/-- The field is written behind the text. -/
theorem withField_dashed (n : ℕ) (text : String) (field : Option String) :
    withField (dashed n text) field = dashed n (withField text field) := by
  cases field with
  | none => rfl
  | some field =>
      induction n with
      | zero => rfl
      | succ n ih =>
          simp only [withField] at ih ⊢
          rw [dashed, dashed, ← ih, String.append_assoc, String.append_assoc, String.append_assoc]

theorem head?_minus (text : String) : ("-" ++ text).toList.head? = some '-' := by
  rw [String.toList_append]
  rfl

/-! ## How many minuses are written -/

theorem one_le_dashes_true (signs : List IntervalSign) : 1 ≤ dashes true signs := by
  cases signs with
  | nil => exact le_rfl
  | cons sign signs => cases sign <;> simp [dashes]

/-- None without a minus. -/
theorem dashes_eq_zero_iff (signs : List IntervalSign) :
    dashes false signs = 0 ↔ ∀ sign ∈ signs, sign = .plus := by
  induction signs with
  | nil => simp [dashes]
  | cons sign signs ih =>
      cases sign with
      | minus =>
          have hpos := one_le_dashes_true signs
          simp only [dashes, Bool.toNat_false, Bool.not_false, Nat.zero_add, List.mem_cons,
            forall_eq_or_imp, reduceCtorEq, false_and, iff_false]
          omega
      | plus => simpa [dashes] using ih

theorem eq_replicate_of_dashes {signs : List IntervalSign} (h : dashes false signs = 0) :
    ∃ m, signs = List.replicate m .plus :=
  ⟨signs.length, List.eq_replicate_of_mem ((dashes_eq_zero_iff signs).mp h)⟩

theorem dashes_replicate_append (n : ℕ) (signs : List IntervalSign) :
    dashes false (List.replicate n .plus ++ signs) = dashes false signs := by
  induction n with
  | zero => rfl
  | succ n ih => rw [List.replicate_succ, List.cons_append, dashes, ih, Bool.toNat_false, Nat.zero_add]

/-- One for a minus right in front of the literal, or for two minuses one after the other. -/
theorem dashes_eq_one_iff (signs : List IntervalSign) : dashes false signs = 1 ↔
    (∃ n, signs = List.replicate n .plus ++ [.minus]) ∨
      ∃ n m, signs = List.replicate n .plus ++ .minus :: .minus :: List.replicate m .plus := by
  constructor
  · intro h
    induction signs with
    | nil => cases h
    | cons sign signs ih =>
        cases sign with
        | plus =>
            rw [dashes, Bool.toNat_false, Nat.zero_add] at h
            rcases ih h with ⟨n, rfl⟩ | ⟨n, m, rfl⟩
            · exact .inl ⟨n + 1, rfl⟩
            · exact .inr ⟨n + 1, m, rfl⟩
        | minus =>
            rw [dashes, Bool.toNat_false, Nat.zero_add, Bool.not_false] at h
            cases signs with
            | nil => exact .inl ⟨0, rfl⟩
            | cons next signs =>
                cases next with
                | plus =>
                    have hpos := one_le_dashes_true signs
                    rw [dashes, Bool.toNat_true] at h
                    omega
                | minus =>
                    rw [dashes, Bool.toNat_true, Bool.not_true] at h
                    have hnone : dashes false signs = 0 := by omega
                    obtain ⟨m, rfl⟩ := eq_replicate_of_dashes hnone
                    exact .inr ⟨0, m, rfl⟩
  · rintro (⟨n, rfl⟩ | ⟨n, m, rfl⟩)
    · rw [dashes_replicate_append]
      rfl
    · have hplus : dashes false (List.replicate m .plus) = 0 :=
        (dashes_eq_zero_iff _).mpr fun sign hsign => List.eq_of_mem_replicate hsign
      rw [dashes_replicate_append, dashes, dashes, Bool.not_false, Bool.not_true, hplus]
      rfl

end Text

/-! ## What the signs do -/

section Signs

open IntervalSign

variable (parser : IntervalParser) (signs : List IntervalSign) (literal : AstValue) (field : Option String)

/-- A literal that the parser accepts is bound to its value, negated once for each minus. -/
def SignsNegate : Prop :=
  ∀ text, literalText literal = some text → ∀ value, parser.parse (withField text field) = some value →
    bindInterval parser.parse ⟨nest signs literal, field, none, none, none⟩ = .ok (negated signs value)

/-- Amounts that add up to nothing. -/
def Interval.Cancel (amounts : List Interval) : Prop :=
  (amounts.map months).sum = 0 ∧ (amounts.map days).sum = 0 ∧ (amounts.map nanos).sum = 0

/-- There is no minus; or the literal has no sign of its own, and there is one minus right in front of it and
the amounts behind the first one cancel, or there are two minuses one after the other and the first amount is
zero. -/
def SignsApply : Prop :=
  ∀ text, literalText literal = some text → ∀ value, parser.parse (withField text field) = some value →
    (∀ sign ∈ signs, sign = .plus) ∨
      (withField text field).toList.head? ≠ some '-' ∧
        ∃ first rest, parser.amounts (withField text field) = some (first :: rest) ∧
          ((∃ n, signs = List.replicate n .plus ++ [.minus]) ∧ Interval.Cancel rest ∧
              (Interval.addAll (-first :: rest) 0).isSome ∨
            (∃ n m, signs = List.replicate n .plus ++ .minus :: .minus :: List.replicate m .plus) ∧ first = 0)

variable {parser signs literal field} {text : String} {value : Interval}

/-- The parser gets the text behind the minuses. -/
theorem bindInterval_nest (h : literalText literal = some text) :
    bindInterval parser.parse ⟨nest signs literal, field, none, none, none⟩ = .ok value ↔
      parser.parse (dashed (dashes false signs) (withField text field)) = some value := by
  have hbind : bindInterval parser.parse ⟨nest signs literal, field, none, none, none⟩ =
      match parser.parse (dashed (dashes false signs) (withField text field)) with
      | some parsed => .ok parsed
      | none => .error (.invalidPlan "invalid interval literal") := by
    rw [bindInterval, if_neg (by simp), intervalLiteral_nest h, ← withField_dashed]
    rfl
  rw [hbind]
  cases parser.parse (dashed (dashes false signs) (withField text field)) <;> simp

/-- No amount has two signs. -/
theorem parse_twoSigns (n : ℕ) (text : String) : parser.parse (dashed (n + 2) text) = none := by
  rw [IntervalParser.parse, dashed, dashed, parser.amounts_twoSigns _ (head?_minus _)]
  rfl

/-- A minus negates the first amount. -/
theorem parse_minus {first : Interval} {rest : List Interval} (hhead : text.toList.head? ≠ some '-')
    (hamounts : parser.amounts text = some (first :: rest)) :
    parser.parse (dashed 1 text) = Interval.addAll (-first :: rest) 0 := by
  rw [IntervalParser.parse, dashed, dashed, parser.amounts_minus text first rest hhead hamounts]
  rfl

/-- The amounts of a text with a value. -/
theorem exists_amounts (h : parser.parse text = some value) :
    ∃ first rest, parser.amounts text = some (first :: rest) ∧
      Interval.addAll (first :: rest) 0 = some value := by
  obtain ⟨amounts, hamounts, hvalue⟩ := Option.bind_eq_some_iff.mp h
  cases amounts with
  | nil => exact absurd hamounts (parser.amounts_ne_nil text)
  | cons first rest => exact ⟨first, rest, hamounts, hvalue⟩

/-- Negating the first amount negates the value if the others cancel. -/
theorem addAll_neg_iff {first : Interval} {rest : List Interval}
    (h : Interval.addAll (first :: rest) 0 = some value) :
    Interval.addAll (-first :: rest) 0 = some (-value) ↔
      Interval.Cancel rest ∧ (Interval.addAll (-first :: rest) 0).isSome := by
  obtain ⟨hmonths, hdays, hnanos⟩ := Interval.addAll_eq_some h
  simp only [List.map_cons, List.sum_cons, Interval.zero_months, Interval.zero_days, Interval.zero_nanos]
    at hmonths hdays hnanos
  constructor
  · intro hneg
    obtain ⟨hmonths', hdays', hnanos'⟩ := Interval.addAll_eq_some hneg
    simp only [List.map_cons, List.sum_cons, Interval.zero_months, Interval.zero_days, Interval.zero_nanos,
      Interval.neg_months, Interval.neg_days, Interval.neg_nanos] at hmonths' hdays' hnanos'
    refine ⟨⟨by omega, by omega, by omega⟩, ?_⟩
    rw [hneg]
    rfl
  · rintro ⟨⟨hm, hd, hn⟩, hsome⟩
    obtain ⟨total, htotal⟩ := Option.isSome_iff_exists.mp hsome
    obtain ⟨hmonths', hdays', hnanos'⟩ := Interval.addAll_eq_some htotal
    simp only [List.map_cons, List.sum_cons, Interval.zero_months, Interval.zero_days, Interval.zero_nanos,
      Interval.neg_months, Interval.neg_days, Interval.neg_nanos] at hmonths' hdays' hnanos'
    rw [htotal]
    refine congrArg some (Interval.ext ?_ ?_ ?_)
    · rw [Interval.neg_months]; omega
    · rw [Interval.neg_days]; omega
    · rw [Interval.neg_nanos]; omega

/-- Negating the first amount keeps the value if it is zero. -/
theorem addAll_same_iff {first : Interval} {rest : List Interval}
    (h : Interval.addAll (first :: rest) 0 = some value) :
    Interval.addAll (-first :: rest) 0 = some value ↔ first = 0 := by
  obtain ⟨hmonths, hdays, hnanos⟩ := Interval.addAll_eq_some h
  simp only [List.map_cons, List.sum_cons, Interval.zero_months, Interval.zero_days, Interval.zero_nanos]
    at hmonths hdays hnanos
  constructor
  · intro hneg
    obtain ⟨hmonths', hdays', hnanos'⟩ := Interval.addAll_eq_some hneg
    simp only [List.map_cons, List.sum_cons, Interval.zero_months, Interval.zero_days, Interval.zero_nanos,
      Interval.neg_months, Interval.neg_days, Interval.neg_nanos] at hmonths' hdays' hnanos'
    refine Interval.ext ?_ ?_ ?_
    · rw [Interval.zero_months]; omega
    · rw [Interval.zero_days]; omega
    · rw [Interval.zero_nanos]; omega
  · rintro rfl
    exact h

/-- What one minus in front of the text makes of its value. -/
theorem parse_dashed_one_iff {expected : Interval} {Q : List Interval → Interval → Prop}
    (hvalue : parser.parse text = some value)
    (hiff : ∀ first rest, Interval.addAll (first :: rest) 0 = some value →
      (Interval.addAll (-first :: rest) 0 = some expected ↔ Q rest first)) :
    parser.parse (dashed 1 text) = some expected ↔
      text.toList.head? ≠ some '-' ∧ ∃ first rest, parser.amounts text = some (first :: rest) ∧ Q rest first := by
  obtain ⟨first, rest, hamounts, hsum⟩ := exists_amounts hvalue
  by_cases hhead : text.toList.head? = some '-'
  · have hnone : parser.parse (dashed 1 text) = none := by
      rw [IntervalParser.parse, dashed, dashed, parser.amounts_twoSigns _ hhead]
      rfl
    rw [hnone]
    simp [hhead]
  · rw [parse_minus hhead hamounts, hiff first rest hsum]
    constructor
    · exact fun hq => ⟨hhead, first, rest, hamounts, hq⟩
    · rintro ⟨-, first', rest', hamounts', hq⟩
      rw [hamounts, Option.some.injEq, List.cons.injEq] at hamounts'
      obtain ⟨rfl, rfl⟩ := hamounts'
      exact hq

theorem count_minus_one (n : ℕ) :
    (List.replicate n .plus ++ [.minus] : List IntervalSign).count .minus = 1 := by
  simp [List.count_replicate]

theorem count_minus_two (n m : ℕ) :
    (List.replicate n .plus ++ .minus :: .minus :: List.replicate m .plus : List IntervalSign).count .minus =
      2 := by
  simp [List.count_replicate]

/-- The two patterns with one minus in front of the text differ in their number of minuses. -/
theorem not_both_patterns {n n' m : ℕ} (h : signs = List.replicate n .plus ++ [.minus]) :
    signs ≠ List.replicate n' .plus ++ .minus :: .minus :: List.replicate m .plus := by
  rintro rfl
  have hcount := congrArg (List.count IntervalSign.minus) h
  rw [count_minus_one, count_minus_two] at hcount
  omega

end Signs

/-- Signs negate an interval literal exactly when there is no minus, or the literal is unsigned and one minus
stands right in front of it and all amounts but the first cancel, or two minuses follow each other and the
first amount is zero. -/
theorem signs_negate_iff (parser : IntervalParser) (signs : List IntervalSign) (literal : AstValue)
    (field : Option String) :
    SignsNegate parser signs literal field ↔ SignsApply parser signs literal field := by
  refine forall₂_congr fun text htext => forall₂_congr fun value hvalue => ?_
  rw [bindInterval_nest htext]
  by_cases hzero : IntervalSign.dashes false signs = 0
  · have hplus := (dashes_eq_zero_iff signs).mp hzero
    refine iff_of_true ?_ (.inl hplus)
    have hcount : signs.count .minus = 0 :=
      List.count_eq_zero.mpr fun hmem => absurd (hplus _ hmem) (by decide)
    rw [hzero, IntervalSign.negated, hcount]
    exact hvalue
  · rw [or_iff_right (mt (dashes_eq_zero_iff signs).mpr hzero)]
    by_cases hone : IntervalSign.dashes false signs = 1
    · rw [hone]
      rcases (dashes_eq_one_iff signs).mp hone with hpattern | hpattern
      · have hneg : IntervalSign.negated signs value = -value := by
          obtain ⟨n, rfl⟩ := hpattern
          rw [IntervalSign.negated, count_minus_one]
          rfl
        rw [hneg, parse_dashed_one_iff (Q := fun rest first =>
          Interval.Cancel rest ∧ (Interval.addAll (-first :: rest) 0).isSome) hvalue
          fun first rest => addAll_neg_iff]
        refine and_congr_right fun _ => exists₂_congr fun first rest => and_congr_right fun _ => ?_
        constructor
        · exact fun h => .inl ⟨hpattern, h⟩
        · rintro (⟨-, h⟩ | ⟨⟨n', m, hother⟩, -⟩)
          · exact h
          · obtain ⟨n, hpattern⟩ := hpattern
            exact absurd hother (not_both_patterns hpattern)
      · have hsame : IntervalSign.negated signs value = value := by
          obtain ⟨n, m, rfl⟩ := hpattern
          rw [IntervalSign.negated, count_minus_two]
          rfl
        rw [hsame, parse_dashed_one_iff (Q := fun _ first => first = 0) hvalue
          fun first rest => addAll_same_iff]
        refine and_congr_right fun _ => exists₂_congr fun first rest => and_congr_right fun _ => ?_
        constructor
        · exact fun h => .inr ⟨hpattern, h⟩
        · rintro (⟨⟨n, hother⟩, -⟩ | ⟨-, h⟩)
          · obtain ⟨n', m, hpattern⟩ := hpattern
            exact absurd hpattern (not_both_patterns hother)
          · exact h
    · have hnone : parser.parse (IntervalSign.dashed (IntervalSign.dashes false signs) (withField text field)) =
          none := by
        obtain ⟨n, hn⟩ : ∃ n, IntervalSign.dashes false signs = n + 2 :=
          ⟨IntervalSign.dashes false signs - 2, by omega⟩
        rw [hn]
        exact parse_twoSigns n _
      rw [hnone]
      refine iff_of_false (by simp) ?_
      rintro ⟨-, first, rest, -, ⟨⟨n, hpattern⟩, -⟩ | ⟨⟨n, m, hpattern⟩, -⟩⟩
      · exact hone ((dashes_eq_one_iff signs).mpr (.inl ⟨n, hpattern⟩))
      · exact hone ((dashes_eq_one_iff signs).mpr (.inr ⟨n, m, hpattern⟩))

namespace Sample

/-- The amounts of some texts without a sign. -/
def unsignedAmounts : List (String × List Interval) :=
  [("1 day", [⟨0, 1, 0⟩]), ("1 day 2 hours", [⟨0, 1, 0⟩, ⟨0, 0, 2 * 3600 * 1000000000⟩])]

/-- The amounts of a text without a sign. -/
def lookupAmounts (text : String) : Option (List Interval) :=
  (unsignedAmounts.find? (·.1 = text)).map Prod.snd

theorem lookupAmounts_signed {text : String} (h : text.toList.head? = some '-') : lookupAmounts text = none := by
  have hday : "1 day" ≠ text := by
    rintro rfl
    exact absurd h (by decide +kernel)
  have hhours : "1 day 2 hours" ≠ text := by
    rintro rfl
    exact absurd h (by decide +kernel)
  simp [lookupAmounts, unsignedAmounts, hday, hhours]

theorem lookupAmounts_ne_nil (text : String) : lookupAmounts text ≠ some [] := by
  intro h
  obtain ⟨entry, hentry, hnil⟩ := Option.map_eq_some_iff.mp h
  have hmem := List.mem_of_find?_eq_some hentry
  simp only [unsignedAmounts, List.mem_cons, List.not_mem_nil, or_false] at hmem
  rcases hmem with rfl | rfl <;> cases hnil

/-- The amounts with the first one negated. -/
def negateFirst : List Interval → List Interval
  | [] => []
  | first :: rest => -first :: rest

/-- A parser of these texts, with or without a sign. -/
def intervalParser : IntervalParser where
  amounts text :=
    if text.toList.head? = some '-' then (lookupAmounts (String.ofList text.toList.tail)).map negateFirst
    else lookupAmounts text
  amounts_ne_nil text := by
    split
    next =>
      intro h
      obtain ⟨amounts, hamounts, hnil⟩ := Option.map_eq_some_iff.mp h
      cases amounts with
      | nil => exact lookupAmounts_ne_nil _ hamounts
      | cons first rest => cases hnil
    next => exact lookupAmounts_ne_nil text
  amounts_minus text first rest hhead h := by
    rw [if_neg hhead] at h
    rw [if_pos (head?_minus text), String.toList_append]
    show (lookupAmounts (String.ofList text.toList)).map negateFirst = _
    rw [String.ofList_toList, h]
    rfl
  amounts_twoSigns text hhead := by
    rw [if_pos (head?_minus text), String.toList_append]
    show (lookupAmounts (String.ofList text.toList)).map negateFirst = _
    rw [String.ofList_toList, lookupAmounts_signed hhead]
    rfl

end Sample

/-- One minus in front of a day. -/
theorem signs_negate_oneMinus :
    SignsNegate Sample.intervalParser [.minus] (.singleQuotedString "1 day") none := by
  refine (signs_negate_iff Sample.intervalParser [.minus] (.singleQuotedString "1 day") none).mpr
    fun text htext value _ => .inr ?_
  obtain rfl := Option.some.inj htext
  refine ⟨by decide +kernel, ⟨0, 1, 0⟩, [], by decide +kernel, .inl ⟨⟨0, rfl⟩, ⟨rfl, rfl, rfl⟩, ?_⟩⟩
  decide +kernel

/-- Two minuses in front of a day are one. -/
theorem not_signsNegate_twoMinuses :
    ¬ SignsNegate Sample.intervalParser [.minus, .minus] (.singleQuotedString "1 day") none := by
  intro h
  have hvalue : Sample.intervalParser.parse (withField "1 day" none) = some ⟨0, 1, 0⟩ := by decide +kernel
  exact absurd (h "1 day" rfl _ hvalue) (by decide +kernel)

end BrewDB.Bound

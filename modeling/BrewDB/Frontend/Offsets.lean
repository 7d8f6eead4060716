import BrewDB.Frontend.Decoding

/-!
# The decoders by offsets and by what is left

Reference: the decoders of `brewdb-frontend/src/pgwire.rs` and `brewdb-bin/src/client.rs`.

The dialogue of client and server is modelled with decoders that take bytes off the front of a list. On bytes that
are in memory they end as those do that index, slice and add, with the same values and errors. A negative count is
a panic for both.
-/

namespace BrewDB.PgWire

open BrewDB.Bytes Checked Run

/-! ## Offsets -/

/-- This much is left behind an offset. -/
def At (payload : List UInt8) (offset : ℕ) (rest : List UInt8) : Prop :=
  offset ≤ payload.length ∧ payload.drop offset = rest

/-- The same value, with an offset for what is left. -/
def SameAt {α : Type} (payload : List UInt8) (a : α × ℕ) (b : α × List UInt8) : Prop :=
  a.1 = b.1 ∧ At payload a.2 b.2

variable {payload rest : List UInt8} {offset : ℕ}

theorem at_start (payload : List UInt8) : At payload 0 payload := ⟨Nat.zero_le _, rfl⟩

theorem At.length (h : At payload offset rest) : offset + rest.length = payload.length := by
  rw [← h.2, List.length_drop]
  exact Nat.add_sub_cancel' h.1

/-- Further on there is less left. -/
theorem At.drop (h : At payload offset rest) {n : ℕ} (hn : n ≤ rest.length) :
    At payload (offset + n) (rest.drop n) := by
  refine ⟨?_, ?_⟩
  · rw [← h.length]
    omega
  · rw [← h.2, List.drop_drop]

/-- A slice behind the offset. -/
theorem At.slice (h : At payload offset rest) (n : ℕ) : (payload.take (offset + n)).drop offset = rest.take n := by
  rw [← h.2, List.drop_take, Nat.add_sub_cancel_left]

/-- The bytes before a zero, and those behind it. -/
theorem splitZero_eq (bytes : List UInt8) :
    splitZero bytes = (bytes.findIdx? (· = 0)).map fun i => (bytes.take i, bytes.drop (i + 1)) := by
  induction bytes with
  | nil => rfl
  | cons byte bytes ih =>
      rw [splitZero, List.findIdx?_cons, ih]
      by_cases hzero : byte = 0
      · simp [hzero]
      · simp only [hzero, if_false, decide_false, Bool.false_eq_true]
        cases bytes.findIdx? (· = 0) with
        | none => rfl
        | some i => rfl

/-! ## Strings and integers -/

/-- A string off the front, with the errors of either side. -/
def cstring {ε : Type} (unterminated notText : ε) (rest : List UInt8) : Except ε (String × List UInt8) :=
  match splitZero rest with
  | none => .error unterminated
  | some (bytes, rest) =>
      match toString? bytes with
      | none => .error notText
      | some value => .ok (value, rest)

theorem matches_cstringAt {ε : Type} (unterminated notText : ε) (hfits : payload.length ≤ isizeMax)
    (h : At payload offset rest) :
    Matches (SameAt payload) (cstringAt unterminated notText payload offset)
      (cstring unterminated notText rest) := by
  rw [cstringAt, sliceFrom_eq h.1, Run.pure_bind, h.2, cstring, splitZero_eq]
  cases hposition : rest.findIdx? (· = 0) with
  | none => exact matches_fail unterminated
  | some position =>
      have hlt := (List.findIdx?_eq_some_iff_findIdx_eq.mp hposition).1
      have hlength := h.length
      -- Offsets stay within the payload, and so no sum overflows.
      unfold isizeMax at hfits
      have hstop : offset + position < usizeCard := by
        unfold usizeCard
        omega
      have hnext : offset + position + 1 < usizeCard := by
        unfold usizeCard
        omega
      have hinside : offset + position ≤ payload.length := by omega
      simp only [add_eq hstop, Run.pure_bind, Option.map_some]
      rw [slice_eq (Nat.le_add_right offset position) hinside, Run.pure_bind, h.slice]
      cases toString? (rest.take position) with
      | none => exact matches_fail notText
      | some value =>
          simp only [add_eq hnext, Run.pure_bind]
          exact matches_pure ⟨rfl, h.drop (n := position + 1) hlt⟩

/-- Nothing is left just where the offset is at the end. -/
theorem At.ne_nil_iff (h : At payload offset rest) : rest ≠ [] ↔ offset ≠ payload.length := by
  have hlength := h.length
  rw [← List.length_pos_iff_ne_nil]
  omega

/-- Some bytes off the front. -/
def taken (n : ℕ) (rest : List UInt8) (truncated : ClientError) : Except ClientError (List UInt8 × List UInt8) :=
  match split n rest with
  | none => .error truncated
  | some result => .ok result

theorem taken_of_le {n : ℕ} {truncated : ClientError} (h : n ≤ rest.length) :
    taken n rest truncated = .ok (rest.take n, rest.drop n) := by
  rw [taken, split, if_neg (Nat.not_lt.mpr h)]

theorem taken_of_lt {n : ℕ} {truncated : ClientError} (h : rest.length < n) :
    taken n rest truncated = .error truncated := by
  rw [taken, split, if_pos h]

namespace Client

theorem matches_readInteger {width : ℕ} (hwidth : width < 2 ^ 63) (hfits : payload.length ≤ isizeMax)
    (h : At payload offset rest) :
    Matches (SameAt payload) (readInteger width payload offset)
      (taken width rest (.protocol "payload was truncated")) := by
  have hlength := h.length
  unfold isizeMax at hfits
  have hstop : offset + width < usizeCard := by
    unfold usizeCard
    omega
  have hchecked : checkedAdd offset width = some (offset + width) := if_pos hstop
  rw [readInteger, hchecked]
  dsimp only
  by_cases hshort : payload.length < offset + width
  · rw [if_pos hshort, taken_of_lt (by omega)]
    exact matches_fail _
  · have htaken : (rest.take width).length = width := by
      rw [List.length_take]
      omega
    rw [if_neg hshort, taken_of_le (by omega), slice_eq (Nat.le_add_right offset width) (by omega),
      Run.pure_bind, h.slice, intoArray_eq htaken, Run.pure_bind]
    exact matches_pure ⟨rfl, h.drop (by omega)⟩

theorem matches_readI16 (hfits : payload.length ≤ isizeMax) (h : At payload offset rest) :
    Matches (SameAt payload) (readI16 payload offset) (PgWire.readI16 rest) := by
  have hread : PgWire.readI16 rest = taken 2 rest (.protocol "payload was truncated") >>= fun result =>
      .ok (toInt16 result.1, result.2) := by
    unfold PgWire.readI16 taken
    cases split 2 rest with
    | none => rfl
    | some result => rfl
  rw [hread]
  refine (matches_readInteger (by decide) hfits h).bind fun a b hsame => ?_
  exact matches_pure ⟨congrArg toInt16 hsame.1, hsame.2⟩

theorem matches_readI32 (hfits : payload.length ≤ isizeMax) (h : At payload offset rest) :
    Matches (SameAt payload) (readI32 payload offset) (PgWire.readI32 rest) := by
  have hread : PgWire.readI32 rest = taken 4 rest (.protocol "payload was truncated") >>= fun result =>
      .ok (toInt32 result.1, result.2) := by
    unfold PgWire.readI32 taken
    cases split 4 rest with
    | none => rfl
    | some result => rfl
  rw [hread]
  refine (matches_readInteger (by decide) hfits h).bind fun a b hsame => ?_
  exact matches_pure ⟨congrArg toInt32 hsame.1, hsame.2⟩

theorem matches_readCstringAt (hfits : payload.length ≤ isizeMax) (h : At payload offset rest) :
    Matches (SameAt payload) (readCstringAt payload offset) (PgWire.readCstringAt rest) :=
  matches_cstringAt _ _ hfits h

/-! ## Rows -/

/-- One column of a row description, off the front. -/
def fieldStep (rest : List UInt8) : Except ClientError (String × List UInt8) := do
  let (name, rest) ← PgWire.readCstringAt rest
  let (_, rest) ← taken 18 rest (.protocol "row description payload was truncated")
  .ok (name, rest)

theorem parseFields_succ (count : ℕ) (rest : List UInt8) :
    parseFields (count + 1) rest = fieldStep rest >>= fun result =>
      parseFields count result.2 >>= fun names => .ok (result.1 :: names) := by
  rw [parseFields, fieldStep]
  cases PgWire.readCstringAt rest with
  | error error => rfl
  | ok result =>
      obtain ⟨name, rest⟩ := result
      simp only [taken, bind, Except.bind]
      cases split 18 rest with
      | none => rfl
      | some result => rfl

theorem matches_fieldRound (hfits : payload.length ≤ isizeMax) (h : At payload offset rest)
    (names : List String) :
    Matches (fun state result => state.1 = names ++ [result.1] ∧ At payload state.2 result.2)
      (fieldRound payload (names, offset)) (fieldStep rest) := by
  refine (matches_readCstringAt hfits h).bind fun a b hsame => ?_
  obtain ⟨name, offset⟩ := a
  obtain ⟨name', rest⟩ := b
  obtain ⟨hname, hat⟩ := hsame
  obtain rfl : name = name' := hname
  replace hat : At payload offset rest := hat
  have hlength := hat.length
  unfold isizeMax at hfits
  have hstop : offset + 18 < usizeCard := by
    unfold usizeCard
    omega
  have hchecked : checkedAdd offset 18 = some (offset + 18) := if_pos hstop
  dsimp only
  rw [hchecked]
  dsimp only
  by_cases hshort : payload.length < offset + 18
  · rw [if_pos hshort, taken_of_lt (by omega)]
    exact matches_fail _
  · rw [if_neg hshort, taken_of_le (by omega)]
    exact matches_pure ⟨rfl, hat.drop (by omega)⟩

/-- One cell of a row, off the front. -/
def cellStep (rest : List UInt8) : Except ClientError (Option String × List UInt8) := do
  let (length, rest) ← PgWire.readI32 rest
  if length < 0 then .ok (none, rest)
  else
    let (bytes, rest) ← taken length.toNatClampNeg rest (.protocol "data row payload was truncated")
    match toString? bytes with
    | none => .error (.protocol "data row value was not valid UTF-8")
    | some value => .ok (some value, rest)

theorem parseCells_succ (count : ℕ) (rest : List UInt8) :
    parseCells (count + 1) rest = cellStep rest >>= fun result =>
      parseCells count result.2 >>= fun cells => .ok (result.1 :: cells) := by
  rw [parseCells, cellStep]
  cases PgWire.readI32 rest with
  | error error => rfl
  | ok result =>
      obtain ⟨length, rest⟩ := result
      simp only [taken, bind, Except.bind]
      by_cases hnull : length < 0
      · simp only [if_pos hnull]
      · simp only [if_neg hnull]
        cases split length.toNatClampNeg rest with
        | none => rfl
        | some result =>
            obtain ⟨bytes, rest⟩ := result
            dsimp only
            cases toString? bytes with
            | none => rfl
            | some value => rfl

/-- A length that is not negative is itself as a size. -/
theorem asUsize_toInt {length : Int32} (h : ¬ length < 0) : asUsize length.toInt = length.toNatClampNeg := by
  have hle : (0 : ℤ) ≤ length.toInt := Int32.le_iff_toInt_le.mp (Int32.not_lt.mp h)
  have hlt := length.toInt_lt
  exact asUsize_of_nonneg hle (by omega)

theorem toNatClampNeg_lt (length : Int32) : length.toNatClampNeg < 2 ^ 31 := by
  have hlt := length.toInt_lt
  show length.toInt.toNat < 2 ^ 31
  omega

theorem matches_cellRound (hfits : payload.length ≤ isizeMax) (h : At payload offset rest)
    (cells : List (Option String)) :
    Matches (fun state result => state.1 = cells ++ [result.1] ∧ At payload state.2 result.2)
      (cellRound payload (cells, offset)) (cellStep rest) := by
  refine (matches_readI32 hfits h).bind fun a b hsame => ?_
  obtain ⟨length, offset⟩ := a
  obtain ⟨length', rest⟩ := b
  obtain ⟨hlength, hat⟩ := hsame
  obtain rfl : length = length' := hlength
  replace hat : At payload offset rest := hat
  dsimp only
  by_cases hnull : length < 0
  · rw [if_pos hnull, if_pos hnull]
    exact matches_pure ⟨rfl, hat⟩
  · have hbehind := hat.length
    have hsmall := toNatClampNeg_lt length
    unfold isizeMax at hfits
    have hstop : offset + length.toNatClampNeg < usizeCard := by
      unfold usizeCard
      omega
    have hchecked : checkedAdd offset length.toNatClampNeg = some (offset + length.toNatClampNeg) := if_pos hstop
    rw [if_neg hnull, if_neg hnull, asUsize_toInt hnull, hchecked]
    dsimp only
    by_cases hshort : payload.length < offset + length.toNatClampNeg
    · rw [if_pos hshort, taken_of_lt (by omega)]
      exact matches_fail _
    · rw [if_neg hshort, taken_of_le (by omega), slice_eq (Nat.le_add_right _ _) (by omega), Run.pure_bind,
        hat.slice]
      show Matches _ _ (match toString? (rest.take length.toNatClampNeg) with
        | none => _
        | some value => _)
      cases toString? (rest.take length.toNatClampNeg) with
      | none => exact matches_fail _
      | some value => exact matches_pure ⟨rfl, hat.drop (by omega)⟩

/-- A loop that appends matches a recursion that puts in front, if their steps match. -/
theorem matches_repeatLoop {σ : Type} {body : List σ × ℕ → Run ClientError (List σ × ℕ)}
    {step : List UInt8 → Except ClientError (σ × List UInt8)}
    {parse : ℕ → List UInt8 → Except ClientError (List σ)} (hzero : ∀ rest, parse 0 rest = .ok [])
    (hsucc : ∀ count rest, parse (count + 1) rest = step rest >>= fun result =>
      parse count result.2 >>= fun values => .ok (result.1 :: values))
    (hbody : ∀ offset rest values, At payload offset rest →
      Matches (fun state result => state.1 = values ++ [result.1] ∧ At payload state.2 result.2)
        (body (values, offset)) (step rest))
    {count : ℕ} {values : List σ} (h : At payload offset rest) :
    Matches (fun state result => state.1 = values ++ result) (repeatLoop body count (values, offset))
      (parse count rest) := by
  induction count generalizing values offset rest with
  | zero =>
      rw [hzero]
      exact matches_pure (List.append_nil values).symm
  | succ count ih =>
      rw [hsucc, repeatLoop]
      refine Matches.of_returns (a := ()) rfl ?_
      refine (hbody offset rest values h).bind fun state result hstate => ?_
      obtain ⟨values', offset'⟩ := state
      obtain ⟨hvalues, hat⟩ := hstate
      obtain rfl : values' = values ++ [result.1] := hvalues
      -- The loop goes on with one value more, which the recursion puts in front at the end.
      have hrest := @ih _ _ (values ++ [result.1]) hat
      cases hparse : parse count result.2 with
      | error error =>
          rw [hparse] at hrest
          exact hrest
      | ok parsed =>
          rw [hparse] at hrest
          obtain ⟨last, hlast, hsame⟩ := hrest
          refine ⟨last, hlast, ?_⟩
          show last.1 = values ++ result.1 :: parsed
          rw [hsame, List.append_assoc]
          rfl

/-- Behind a count that is not negative, a row is as long as its count. -/
theorem matches_readRow {σ : Type} {body : List UInt8 → List σ × ℕ → Run ClientError (List σ × ℕ)}
    {step : List UInt8 → Except ClientError (σ × List UInt8)}
    {parse : ℕ → List UInt8 → Except ClientError (List σ)} (hzero : ∀ rest, parse 0 rest = .ok [])
    (hsucc : ∀ count rest, parse (count + 1) rest = step rest >>= fun result =>
      parse count result.2 >>= fun values => .ok (result.1 :: values))
    (hfits : payload.length ≤ isizeMax)
    (hbody : ∀ offset rest values, At payload offset rest →
      Matches (fun state result => state.1 = values ++ [result.1] ∧ At payload state.2 result.2)
        (body payload (values, offset)) (step rest))
    (hcount : ¬ NegativeCount payload) :
    Matches Eq (readRow body [] payload)
      (PgWire.readI16 payload >>= fun result =>
        if result.1 < 0 then .error .panic else parse result.1.toNatClampNeg result.2) := by
  have hread := matches_readI16 hfits (at_start payload)
  by_cases hshort : payload.length < 2
  · have herror : PgWire.readI16 payload = .error (.protocol "payload was truncated") := by
      rw [PgWire.readI16, split, if_pos hshort]
    rw [herror] at hread ⊢
    exact Matches.bind (R := fun _ _ => False) hread fun _ _ hfalse => hfalse.elim
  · have hlong : PgWire.readI16 payload = .ok (toInt16 (payload.take 2), payload.drop 2) := by
      rw [PgWire.readI16, split, if_neg hshort]
    have hneg : ¬ toInt16 (payload.take 2) < 0 := fun hneg => hcount ⟨by omega, hneg⟩
    rw [hlong] at hread ⊢
    obtain ⟨⟨count, offset⟩, hreturns, hvalue, hat⟩ := hread
    obtain rfl : count = toInt16 (payload.take 2) := hvalue
    have hint : (0 : ℤ) ≤ (toInt16 (payload.take 2)).toInt := Int16.le_iff_toInt_le.mp (Int16.not_lt.mp hneg)
    have hlt := (toInt16 (payload.take 2)).toInt_lt
    have hrounds : asUsize (toInt16 (payload.take 2)).toInt = (toInt16 (payload.take 2)).toNatClampNeg :=
      asUsize_of_nonneg hint (by omega)
    have hroom : stringSize * asUsize (toInt16 (payload.take 2)).toInt ≤ isizeMax := by
      rw [asUsize_of_nonneg hint (by omega)]
      unfold stringSize isizeMax
      omega
    refine Matches.of_returns hreturns ?_
    dsimp only
    rw [allocate_eq hroom, Run.pure_bind, hrounds]
    show Matches Eq _ (if toInt16 (payload.take 2) < 0 then _ else _)
    rw [if_neg hneg]
    have hloop : Matches (fun state result => state.1 = [] ++ result)
        (repeatLoop (body payload) (toInt16 (payload.take 2)).toNatClampNeg ([], offset))
        (parse (toInt16 (payload.take 2)).toNatClampNeg (payload.drop 2)) :=
      matches_repeatLoop hzero hsucc hbody hat
    exact hloop.map fun _ _ hsame => hsame

theorem matches_parseRowDescription (hfits : payload.length ≤ isizeMax) (hcount : ¬ NegativeCount payload) :
    Matches Eq (parseRowDescription payload) (PgWire.parseRowDescription payload) :=
  matches_readRow (fun _ => rfl) parseFields_succ hfits (fun _ _ names h => matches_fieldRound hfits h names) hcount

theorem matches_parseDataRow (hfits : payload.length ≤ isizeMax) (hcount : ¬ NegativeCount payload) :
    Matches Eq (parseDataRow payload) (PgWire.parseDataRow payload) :=
  matches_readRow (fun _ => rfl) parseCells_succ hfits (fun _ _ cells h => matches_cellRound hfits h cells) hcount

/-- A negative count is a panic for both. -/
theorem panics_of_negative (h : NegativeCount payload) :
    PgWire.parseRowDescription payload = .error .panic ∧ PgWire.parseDataRow payload = .error .panic := by
  have hread : PgWire.readI16 payload = .ok (toInt16 (payload.take 2), payload.drop 2) := by
    rw [PgWire.readI16, split, if_neg (Nat.not_lt.mpr h.1)]
  constructor
  · rw [PgWire.parseRowDescription, hread]
    exact if_pos h.2
  · rw [PgWire.parseDataRow, hread]
    exact if_pos h.2

theorem matches_parseCstring (hfits : payload.length ≤ isizeMax) :
    Matches Eq (parseCstring payload) (PgWire.parseCstring payload) := by
  refine (matches_readCstringAt hfits (at_start payload)).bind fun a b hsame => ?_
  obtain ⟨value, next⟩ := a
  obtain ⟨value', rest⟩ := b
  obtain ⟨hvalue, hat⟩ := hsame
  obtain rfl : value = value' := hvalue
  have htrailing : rest ≠ [] ↔ next ≠ payload.length := hat.ne_nil_iff
  dsimp only
  by_cases hnext : next ≠ payload.length
  · rw [if_pos hnext, if_pos (htrailing.mpr hnext)]
    exact matches_fail _
  · rw [if_neg hnext, if_neg (htrailing.not.mpr hnext)]
    exact matches_pure rfl

/-! ## Errors -/

theorem index_at {ε : Type} {byte : UInt8} (h : At payload offset (byte :: rest)) :
    (index payload offset : Run ε UInt8) = pure byte := by
  have hbyte : payload[offset]? = some byte := by
    rw [← Nat.add_zero offset, ← List.getElem?_drop, h.2]
    rfl
  unfold index
  rw [hbyte]
  rfl

/-- The inner loop of `parse_error` ends at the next zero, or where nothing is left. -/
theorem returns_skipText (hfits : payload.length ≤ isizeMax) {limit : ℕ} (h : At payload offset rest)
    (hlimit : rest.length ≤ limit) :
    Returns (whileLoop (skipTest payload) skipRound limit offset)
      (offset + (rest.takeWhile (· ≠ 0)).length) := by
  induction rest generalizing offset limit with
  | nil =>
      have hend : ¬ offset < payload.length := by
        rw [← h.length, List.length_nil]
        omega
      refine returns_whileLoop_done limit ?_
      rw [skipTest, if_neg hend]
      exact returns_pure false
  | cons byte rest ih =>
      have hlength := h.length
      rw [List.length_cons] at hlength hlimit
      have htest : (skipTest payload offset : Run Empty Bool) = pure (decide (byte ≠ 0)) := by
        rw [skipTest, if_pos (by omega), index_at h, Run.pure_bind]
      by_cases hzero : byte = 0
      · rw [List.takeWhile_cons_of_neg (by simpa using hzero)]
        refine returns_whileLoop_done limit ?_
        rw [htest, decide_eq_false (not_not.mpr hzero)]
        exact returns_pure false
      · obtain ⟨limit, rfl⟩ := Nat.exists_eq_succ_of_ne_zero (show limit ≠ 0 by omega)
        have hnext : At payload (offset + 1) rest := h.drop (n := 1) (by simp)
        have hrest := ih hnext (by omega : rest.length ≤ limit)
        rw [List.takeWhile_cons_of_pos (by simpa using hzero), List.length_cons, Nat.add_comm _ 1, ← Nat.add_assoc]
        refine returns_whileLoop_next ?_ ?_ hrest
        · rw [htest, decide_eq_true hzero]
          exact returns_pure true
        · have hadd : offset + 1 < usizeCard := by
            unfold isizeMax at hfits
            unfold usizeCard
            omega
          rw [skipRound, add_eq hadd, Run.pure_bind]
          exact returns_pure _

/-- What the outer loop of `parse_error` finds. -/
theorem exists_errorLoop (hfits : payload.length ≤ isizeMax) {limit : ℕ} {state : ErrorState}
    (hrest : payload.drop state.offset = rest) (hlimit : rest.length ≤ limit) :
    ∃ last : ErrorState, Returns (whileLoop
        (fun state : ErrorState => (pure (decide (state.offset < payload.length)) : Run Empty Bool))
        (errorRound payload) limit state) last ∧
      (last.message, last.code) = parseErrorFields state.message state.code rest := by
  -- Each round takes a byte at least, and so there are rounds enough.
  induction limit generalizing state rest with
  | zero =>
      obtain rfl := List.length_eq_zero_iff.mp (Nat.le_zero.mp hlimit)
      have hend := List.drop_eq_nil_iff.mp hrest
      refine ⟨state, returns_whileLoop_done 0 ?_, (parseErrorFields.eq_def _ _ []).symm⟩
      exact congrArg Outcome.value (decide_eq_false (by omega))
  | succ limit ih =>
      cases rest with
      | nil =>
          have hend := List.drop_eq_nil_iff.mp hrest
          refine ⟨state, returns_whileLoop_done _ ?_, (parseErrorFields.eq_def _ _ []).symm⟩
          exact congrArg Outcome.value (decide_eq_false (by omega))
      | cons fieldType rest =>
          have hinside : state.offset < payload.length := by
            by_contra hend
            rw [List.drop_eq_nil_of_le (by omega)] at hrest
            cases hrest
          have hat : At payload state.offset (fieldType :: rest) := ⟨hinside.le, hrest⟩
          have htest : Returns (pure (decide (state.offset < payload.length)) : Run Empty Bool) true :=
            congrArg Outcome.value (decide_eq_true hinside)
          have hadd : state.offset + 1 < usizeCard := by
            unfold isizeMax at hfits
            unfold usizeCard
            omega
          have hbegin : At payload (state.offset + 1) rest := hat.drop (n := 1) (by simp)
          by_cases hzero : fieldType = 0
          · refine ⟨{ state with offset := state.offset + 1 }, returns_whileLoop_break htest ?_, ?_⟩
            · rw [errorRound, index_at hat, Run.pure_bind, add_eq hadd, Run.pure_bind, if_pos hzero]
              exact returns_pure _
            · rw [parseErrorFields, if_pos hzero]
          · have htaken := List.prefix_iff_eq_take.mp (List.takeWhile_prefix (l := rest) (· ≠ (0 : UInt8)))
            have hsplit := List.takeWhile_append_dropWhile (p := fun byte : UInt8 => decide (byte ≠ 0)) (l := rest)
            have hdrop : rest.drop (rest.takeWhile (· ≠ 0)).length = rest.dropWhile (· ≠ 0) :=
              (congrArg (List.drop _) hsplit).symm.trans List.drop_left
            have hle : (rest.takeWhile (· ≠ 0)).length ≤ rest.length :=
              (List.takeWhile_prefix _).length_le
            have hlength := hbegin.length
            have hskip := returns_skipText hfits hbegin (by omega : rest.length ≤ payload.length)
            have hstop : state.offset + 1 + (rest.takeWhile (· ≠ 0)).length + 1 < usizeCard := by
              unfold isizeMax at hfits
              unfold usizeCard
              omega
            have hbody : Returns (errorRound payload state) (.inl (state.withField fieldType
                ((toString? (rest.takeWhile (· ≠ 0))).getD "")
                (state.offset + 1 + (rest.takeWhile (· ≠ 0)).length + 1))) := by
              rw [errorRound, index_at hat, Run.pure_bind, add_eq hadd, Run.pure_bind, if_neg hzero]
              refine Returns.bind hskip ?_
              rw [slice_eq (Nat.le_add_right _ _) (by omega), Run.pure_bind, hbegin.slice, ← htaken]
              dsimp only
              rw [add_eq hstop, Run.pure_bind]
              exact returns_pure _
            -- Without an ending zero the offset is one past the end, where nothing is left either.
            have hleft : payload.drop (state.withField fieldType ((toString? (rest.takeWhile (· ≠ 0))).getD "")
                (state.offset + 1 + (rest.takeWhile (· ≠ 0)).length + 1)).offset =
                  (rest.dropWhile (· ≠ 0)).drop 1 := by
              rw [offset_withField, ← hdrop, ← hbegin.2, List.drop_drop, List.drop_drop]
              rfl
            have hshort : ((rest.dropWhile (· ≠ 0)).drop 1).length ≤ limit := by
              have hdropped := (rest.dropWhile_suffix (· ≠ 0)).length_le
              rw [List.length_cons] at hlimit
              rw [List.length_drop]
              omega
            obtain ⟨last, hlast, hfields⟩ := ih hleft hshort
            refine ⟨last, returns_whileLoop_next htest hbody hlast, ?_⟩
            rw [hfields]
            conv_rhs => rw [parseErrorFields, if_neg hzero]
            unfold ErrorState.withField
            split_ifs <;> rfl

theorem returns_parseError (hfits : payload.length ≤ isizeMax) :
    Returns (parseError payload) (PgWire.parseError payload) := by
  obtain ⟨last, hlast, hfields⟩ :=
    @exists_errorLoop payload payload hfits payload.length ⟨none, none, 0⟩ List.drop_zero le_rfl
  replace hfields : (last.message, last.code) = parseErrorFields none none payload := hfields
  refine Returns.bind hlast ?_
  rw [PgWire.parseError, ← hfields]
  exact returns_pure _

/-! ## Frames -/

theorem matches_readFrame (stream : List UInt8) :
    Matches Eq (readFrame stream)
      ((PgWire.readFrame stream).1.map fun frame => (frame, (PgWire.readFrame stream).2)) := by
  cases stream with
  | nil => exact matches_fail _
  | cons messageType stream =>
      have htype : (readExact ClientError.io 1 (messageType :: stream)) = pure ([messageType], stream) := rfl
      rw [readFrame, htype, Run.pure_bind, PgWire.readFrame]
      dsimp only
      rw [readExact]
      cases split 4 stream with
      | none => exact matches_fail _
      | some result =>
          obtain ⟨length, stream⟩ := result
          simp only [Run.pure_bind]
          by_cases hshort : toInt32 length < 4
          · simp only [if_pos hshort]
            exact matches_fail _
          · have hfour : 4 ≤ toInt32 length := Int32.not_lt.mp hshort
            have hzero : ¬ toInt32 length < 0 := Int32.not_lt.mpr (Int32.le_trans (by decide) hfour)
            have hroom : 1 * (asUsize (toInt32 length).toInt - 4) ≤ isizeMax := by
              have := asUsize_le_isizeMax (Int32.not_lt.mp hzero)
              omega
            simp only [if_neg hshort]
            rw [sub_eq (four_le_asUsize hfour), Run.pure_bind, allocate_eq hroom, Run.pure_bind, readExact,
              asUsize_toInt hzero]
            cases split ((toInt32 length).toNatClampNeg - 4) stream with
            | none => exact matches_fail _
            | some result =>
                obtain ⟨payload, stream⟩ := result
                exact matches_pure rfl

end Client

namespace Server

theorem matches_readMessage (stream : List UInt8) :
    Matches Eq (readMessage stream) (PgWire.readMessage stream) := by
  cases stream with
  | nil => exact matches_fail _
  | cons messageType stream =>
      have htype : (readExact (ended "message type") 1 (messageType :: stream)) = pure ([messageType], stream) :=
        rfl
      rw [readMessage, htype, Run.pure_bind, PgWire.readMessage]
      dsimp only
      rw [readI32, readExact]
      cases split 4 stream with
      | none => exact matches_fail _
      | some result =>
          obtain ⟨length, stream⟩ := result
          simp only [Run.pure_bind]
          by_cases hlength : 4 ≤ toInt32 length ∧ toInt32 length ≤ 16 * 1024 * 1024
          · have hfits : ¬ (toInt32 length < 4 ∨ Int32.ofNat (16 * 1024 * 1024) < toInt32 length) := by
              rw [not_or]
              exact ⟨Int32.not_lt.mpr hlength.1, Int32.not_lt.mpr hlength.2⟩
            have hzero : ¬ toInt32 length < 0 := Int32.not_lt.mpr (Int32.le_trans (by decide) hlength.1)
            have hroom : 1 * (asUsize (toInt32 length).toInt - 4) ≤ isizeMax := by
              have := asUsize_le_isizeMax (Int32.not_lt.mp hzero)
              omega
            rw [if_pos hlength, if_neg hfits, readPayload, sub_eq (four_le_asUsize hlength.1), Run.pure_bind,
              allocate_eq hroom, Run.pure_bind, readExact, Client.asUsize_toInt hzero]
            cases split ((toInt32 length).toNatClampNeg - 4) stream with
            | none => exact matches_fail _
            | some result =>
                obtain ⟨payload, stream⟩ := result
                exact matches_pure rfl
          · have hfits : toInt32 length < 4 ∨ Int32.ofNat (16 * 1024 * 1024) < toInt32 length := by
              rw [not_and_or, Int32.not_le, Int32.not_le] at hlength
              exact hlength
            rw [if_neg hlength, if_pos hfits]
            exact matches_fail _

theorem matches_decodeCstring (hfits : payload.length ≤ isizeMax) :
    Matches Eq (decodeCstring payload) (PgWire.decodeCstring payload) := by
  have hdecode : PgWire.decodeCstring payload =
      cstring (protocolError "unterminated PostgreSQL string")
        (protocolError "PostgreSQL string was not valid UTF-8") payload >>= fun result =>
      if result.2 ≠ [] then .error (protocolError "query packet contains trailing bytes") else .ok result.1 := by
    rw [PgWire.decodeCstring, cstring]
    cases splitZero payload with
    | none => rfl
    | some result =>
        dsimp only
        cases toString? result.1 with
        | none => rfl
        | some value => rfl
  rw [hdecode]
  refine (matches_cstringAt _ _ hfits (at_start payload)).bind fun a b hsame => ?_
  obtain ⟨value, next⟩ := a
  obtain ⟨value', rest⟩ := b
  obtain ⟨hvalue, hat⟩ := hsame
  obtain rfl : value = value' := hvalue
  have htrailing : rest ≠ [] ↔ next ≠ payload.length := hat.ne_nil_iff
  dsimp only
  by_cases hnext : next ≠ payload.length
  · rw [if_pos hnext, if_pos (htrailing.mpr hnext)]
    exact matches_fail _
  · rw [if_neg hnext, if_neg (htrailing.not.mpr hnext)]
    exact matches_pure rfl

end Server

end BrewDB.PgWire

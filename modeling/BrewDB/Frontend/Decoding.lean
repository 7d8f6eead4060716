import BrewDB.Common.BTreeMap
import BrewDB.Common.Checked
import BrewDB.Frontend.Connection

/-!
# The decoders, by offsets

Reference: `read_startup_payload`, `parse_startup_parameters`, `read_message`, `read_cstring_at` and
`decode_cstring` of `brewdb-frontend/src/pgwire.rs`; `read_frame`, `parse_row_description`, `parse_data_row`,
`parse_cstring`, `parse_error`, `read_i16`, `read_i32` and `read_cstring_at` of `brewdb-bin/src/client.rs`.

Here the decoders index, slice, add and allocate as the source does, on a machine with 64 bits, and each of these
can panic. The client takes the count of a row for a size without a look at its sign.
-/

namespace BrewDB.PgWire

open BrewDB.Bytes Checked

/-- Bytes that are in memory. -/
structure Buffer where
  bytes : List UInt8
  fits : bytes.length ≤ isizeMax

/-- `read_exact`, and what is left of the stream. -/
def readExact {ε : Type} (ended : ε) (n : ℕ) (stream : List UInt8) : Run ε (List UInt8 × List UInt8) :=
  match split n stream with
  | some bytes => pure bytes
  | none => .fail ended

/-- `read_cstring_at`, of either side. -/
def cstringAt {ε : Type} (unterminated notText : ε) (payload : List UInt8) (offset : ℕ) : Run ε (String × ℕ) := do
  let rest ← sliceFrom payload offset
  match rest.findIdx? (· = 0) with
  | none => .fail unterminated
  | some position =>
      let stop ← add offset position
      let bytes ← slice payload offset stop
      match toString? bytes with
      | none => .fail notText
      | some value =>
          let next ← add stop 1
          pure (value, next)

/-! ## The server -/

namespace Server

/-- What `read_exact` says of a stream that ended. -/
def ended (what : String) : FrontendError :=
  protocolError ("failed to read " ++ what ++ ": failed to fill whole buffer")

/-- `read_i32`. -/
def readI32 (stream : List UInt8) : Run FrontendError (Int32 × List UInt8) := do
  let (bytes, stream) ← readExact (ended "packet length") 4 stream
  pure (toInt32 bytes, stream)

/-- The payload of a packet whose length counts itself. -/
def readPayload (what : String) (length : Int32) (stream : List UInt8) :
    Run FrontendError (List UInt8 × List UInt8) := do
  let size ← sub (asUsize length.toInt) 4
  allocate 1 size
  readExact (ended what) size stream

/-- `read_startup_payload`. -/
def readStartupPayload (stream : List UInt8) : Run FrontendError (List UInt8 × List UInt8) := do
  let (length, stream) ← readI32 stream
  if 8 ≤ length ∧ length ≤ 16 * 1024 * 1024 then readPayload "startup packet" length stream
  else .fail (protocolError "invalid startup packet length")

/-- `read_cstring_at`. -/
def readCstringAt (payload : List UInt8) (offset : ℕ) : Run FrontendError (String × ℕ) :=
  cstringAt (protocolError "unterminated PostgreSQL string")
    (protocolError "PostgreSQL string was not valid UTF-8") payload offset

/-- The body of the loop in `parse_startup_parameters`. -/
def parameterRound (payload : List UInt8) (state : BTreeMap String String × ℕ) :
    Run FrontendError ((BTreeMap String String × ℕ) ⊕ (BTreeMap String String × ℕ)) := do
  let (key, offset) ← readCstringAt payload state.2
  if key = "" then pure (.inr (state.1, offset))
  else
    let (value, offset) ← readCstringAt payload offset
    pure (.inl (state.1.insert key value, offset))

/-- `parse_startup_parameters`. -/
def parseStartupParameters (payload : List UInt8) : Run FrontendError (BTreeMap String String) := do
  let (parameters, _) ← Run.whileLoop (fun state => pure (decide (state.2 < payload.length))) (parameterRound payload)
    payload.length (BTreeMap.empty, 0)
  pure parameters

/-- `read_message`. -/
def readMessage (stream : List UInt8) : Run FrontendError (Frame × List UInt8) := do
  let (messageType, stream) ← readExact (ended "message type") 1 stream
  let (length, stream) ← readI32 stream
  if 4 ≤ length ∧ length ≤ 16 * 1024 * 1024 then
    let (payload, stream) ← readPayload "frontend message" length stream
    let messageType ← index messageType 0
    pure (⟨messageType, payload⟩, stream)
  else .fail (protocolError "invalid frontend message length")

/-- `decode_cstring`. -/
def decodeCstring (payload : List UInt8) : Run FrontendError String := do
  let (value, next) ← readCstringAt payload 0
  if next ≠ payload.length then .fail (protocolError "query packet contains trailing bytes") else pure value

end Server

/-! ## The client -/

namespace Client

/-- `read_frame`. -/
def readFrame (stream : List UInt8) : Run ClientError (Frame × List UInt8) := do
  let (messageType, stream) ← readExact .io 1 stream
  let (length, stream) ← readExact .io 4 stream
  if toInt32 length < 4 then .fail (.protocol "frame length was too small")
  else
    let size ← sub (asUsize (toInt32 length).toInt) 4
    allocate 1 size
    let (payload, stream) ← readExact .io size stream
    let messageType ← index messageType 0
    pure (⟨messageType, payload⟩, stream)

/-- The bytes of an integer, of `read_i16` and `read_i32`. -/
def readInteger (width : ℕ) (payload : List UInt8) (offset : ℕ) : Run ClientError (List UInt8 × ℕ) :=
  match checkedAdd offset width with
  | none => .fail (.protocol "integer read overflowed")
  | some stop =>
      if payload.length < stop then .fail (.protocol "payload was truncated")
      else do
        let bytes ← slice payload offset stop
        let bytes ← intoArray width bytes
        pure (bytes, stop)

/-- `read_i16`. -/
def readI16 (payload : List UInt8) (offset : ℕ) : Run ClientError (Int16 × ℕ) := do
  let (bytes, offset) ← readInteger 2 payload offset
  pure (toInt16 bytes, offset)

/-- `read_i32`. -/
def readI32 (payload : List UInt8) (offset : ℕ) : Run ClientError (Int32 × ℕ) := do
  let (bytes, offset) ← readInteger 4 payload offset
  pure (toInt32 bytes, offset)

/-- `read_cstring_at`. -/
def readCstringAt (payload : List UInt8) (offset : ℕ) : Run ClientError (String × ℕ) :=
  cstringAt (.protocol "unterminated string") (.protocol "string was not valid UTF-8") payload offset

/-- The body of the loop in `parse_row_description`. -/
def fieldRound (payload : List UInt8) (state : List String × ℕ) : Run ClientError (List String × ℕ) := do
  let (name, offset) ← readCstringAt payload state.2
  match checkedAdd offset 18 with
  | none => .fail (.protocol "row description overflowed")
  | some offset =>
      if payload.length < offset then .fail (.protocol "row description payload was truncated")
      else pure (state.1 ++ [name], offset)

/-- `size_of::<String>()`, which is that of `Option<String>` too. -/
def stringSize : ℕ := 24

/-- `parse_row_description`. -/
def parseRowDescription (payload : List UInt8) : Run ClientError (List String) := do
  let (count, offset) ← readI16 payload 0
  let fieldCount := asUsize count.toInt
  allocate stringSize fieldCount
  let (fields, _) ← Run.repeatLoop (fieldRound payload) fieldCount ([], offset)
  pure fields

/-- The body of the loop in `parse_data_row`. -/
def cellRound (payload : List UInt8) (state : List (Option String) × ℕ) :
    Run ClientError (List (Option String) × ℕ) := do
  let (length, offset) ← readI32 payload state.2
  if length < 0 then pure (state.1 ++ [none], offset)
  else
    match checkedAdd offset (asUsize length.toInt) with
    | none => .fail (.protocol "data row overflowed")
    | some stop =>
        if payload.length < stop then .fail (.protocol "data row payload was truncated")
        else do
          let bytes ← slice payload offset stop
          match toString? bytes with
          | none => .fail (.protocol "data row value was not valid UTF-8")
          | some value => pure (state.1 ++ [some value], stop)

/-- `parse_data_row`. -/
def parseDataRow (payload : List UInt8) : Run ClientError (List (Option String)) := do
  let (count, offset) ← readI16 payload 0
  let columnCount := asUsize count.toInt
  allocate stringSize columnCount
  let (row, _) ← Run.repeatLoop (cellRound payload) columnCount ([], offset)
  pure row

/-- `parse_cstring`. -/
def parseCstring (payload : List UInt8) : Run ClientError String := do
  let (value, next) ← readCstringAt payload 0
  if next ≠ payload.length then .fail (.protocol "payload contained trailing bytes") else pure value

/-- What `parse_error` has found, and how far it is. -/
structure ErrorState where
  message : Option String
  code : Option String
  offset : ℕ

/-- The body of the inner loop in `parse_error`. -/
def skipRound (offset : ℕ) : Run Empty (ℕ ⊕ ℕ) := do
  let offset ← add offset 1
  pure (.inl offset)

/-- The test of the inner loop, which indexes when there is something left. -/
def skipTest (payload : List UInt8) (offset : ℕ) : Run Empty Bool :=
  if offset < payload.length then do
    let byte ← index payload offset
    pure (decide (byte ≠ 0))
  else pure false

/-- The inner loop of `parse_error`: up to the next zero. -/
def skipText (payload : List UInt8) (offset : ℕ) : Run Empty ℕ :=
  Run.whileLoop (skipTest payload) skipRound payload.length offset

/-- The fields that `parse_error` keeps. -/
def ErrorState.withField (state : ErrorState) (fieldType : UInt8) (value : String) (offset : ℕ) : ErrorState :=
  if fieldType = 'M'.toUInt8 then ⟨some value, state.code, offset⟩
  else if fieldType = 'C'.toUInt8 then ⟨state.message, some value, offset⟩
  else ⟨state.message, state.code, offset⟩

/-- The body of the outer loop in `parse_error`. -/
def errorRound (payload : List UInt8) (state : ErrorState) : Run Empty (ErrorState ⊕ ErrorState) := do
  let fieldType ← index payload state.offset
  let start ← add state.offset 1
  if fieldType = 0 then pure (.inr { state with offset := start })
  else
    let stop ← skipText payload start
    let bytes ← slice payload start stop
    let value := (toString? bytes).getD ""
    let offset ← add stop 1
    pure (.inl (state.withField fieldType value offset))

/-- `parse_error`, which has no errors of its own. -/
def parseError (payload : List UInt8) : Run Empty ServerErrorFields := do
  let state ← Run.whileLoop (fun state : ErrorState => pure (decide (state.offset < payload.length)))
    (errorRound payload) payload.length ⟨none, none, 0⟩
  pure ⟨state.message.getD "server returned an error", state.code⟩

end Client

/-! ## What each decoder may do -/

section

variable {credits : ℕ} {payload : List UInt8} {offset : ℕ}

theorem affords_readExact {ε : Type} (ended : ε) (n : ℕ) (stream : List UInt8) :
    Run.Affords credits (readExact ended n stream) fun result left => left = credits ∧ result.1.length = n := by
  unfold readExact
  cases hsplit : split n stream with
  | none => exact Run.affords_fail ended
  | some bytes => exact Run.affords_pure ⟨rfl, (split_eq_some hsplit).2⟩

/-- A string is read without a panic behind what is read already, and moves the offset on. -/
theorem affords_cstringAt {ε : Type} (unterminated notText : ε) (hfits : payload.length ≤ isizeMax)
    (hoffset : offset ≤ payload.length) :
    Run.Affords credits (cstringAt unterminated notText payload offset) fun result left =>
      left = credits ∧ offset < result.2 ∧ result.2 ≤ payload.length := by
  rw [cstringAt, sliceFrom_eq hoffset, Run.pure_bind]
  cases hposition : (payload.drop offset).findIdx? (· = 0) with
  | none => exact Run.affords_fail unterminated
  | some position =>
      have hlt := (List.findIdx?_eq_some_iff_findIdx_eq.mp hposition).1
      rw [List.length_drop] at hlt
      unfold isizeMax at hfits
      have hstop : offset + position < usizeCard := by
        unfold usizeCard
        omega
      have hnext : offset + position + 1 < usizeCard := by
        unfold usizeCard
        omega
      simp only [add_eq hstop, Run.pure_bind]
      rw [slice_eq (Nat.le_add_right offset position) (by omega), Run.pure_bind]
      cases toString? ((payload.take (offset + position)).drop offset) with
      | none => exact Run.affords_fail notText
      | some value =>
          simp only [add_eq hnext, Run.pure_bind]
          refine Run.affords_pure ⟨rfl, ?_, ?_⟩
          · show offset < offset + position + 1
            omega
          · show offset + position + 1 ≤ payload.length
            omega

/-- A length of at least four can do without its own bytes. -/
theorem four_le_asUsize {length : Int32} (h : 4 ≤ length) : 4 ≤ asUsize length.toInt := by
  have hle : (4 : ℤ) ≤ length.toInt := Int32.le_iff_toInt_le.mp h
  have hlt := length.toInt_lt
  rw [asUsize_of_nonneg (by omega) (by omega)]
  omega

/-- No length is too much to allocate. -/
theorem asUsize_le_isizeMax {length : Int32} (h : 0 ≤ length) : asUsize length.toInt ≤ isizeMax := by
  have hle : (0 : ℤ) ≤ length.toInt := Int32.le_iff_toInt_le.mp h
  have hlt := length.toInt_lt
  rw [asUsize_of_nonneg hle (by omega)]
  unfold isizeMax
  omega

namespace Server

theorem affords_readI32 (stream : List UInt8) :
    Run.Affords credits (readI32 stream) fun _ left => left = credits := by
  refine (affords_readExact _ 4 stream).bind fun result left _ hresult => ?_
  exact Run.affords_pure hresult.1

variable (hfits : payload.length ≤ isizeMax)

include hfits

theorem affords_readCstringAt (hoffset : offset ≤ payload.length) :
    Run.Affords credits (readCstringAt payload offset) fun result left =>
      left = credits ∧ offset < result.2 ∧ result.2 ≤ payload.length :=
  affords_cstringAt _ _ hfits hoffset

end Server

namespace Client

section

variable (hfits : payload.length ≤ isizeMax)

include hfits

theorem affords_readCstringAt (hoffset : offset ≤ payload.length) :
    Run.Affords credits (readCstringAt payload offset) fun result left =>
      left = credits ∧ offset < result.2 ∧ result.2 ≤ payload.length :=
  affords_cstringAt _ _ hfits hoffset

end

/-- An integer is read behind what is read already, with the bytes that stand there. -/
theorem affords_readInteger (width : ℕ) :
    Run.Affords credits (readInteger width payload offset) fun result left =>
      left = credits ∧ result.1 = (payload.take (offset + width)).drop offset ∧ result.2 = offset + width ∧
        result.2 ≤ payload.length := by
  unfold readInteger
  cases hadd : checkedAdd offset width with
  | none => exact Run.affords_fail _
  | some stop =>
      obtain rfl := checkedAdd_eq_some hadd
      dsimp only
      by_cases htruncated : payload.length < offset + width
      · rw [if_pos htruncated]
        exact Run.affords_fail _
      · have hle := not_lt.mp htruncated
        have hlength : ((payload.take (offset + width)).drop offset).length = width := by
          rw [List.length_drop, List.length_take]
          omega
        rw [if_neg htruncated, slice_eq (Nat.le_add_right offset width) hle, Run.pure_bind, intoArray_eq hlength,
          Run.pure_bind]
        exact Run.affords_pure ⟨rfl, rfl, rfl, hle⟩

theorem affords_readI32 :
    Run.Affords credits (readI32 payload offset) fun result left => left = credits ∧ offset ≤ result.2 ∧
      result.2 ≤ payload.length := by
  refine (affords_readInteger 4).bind fun result left _ hresult => ?_
  obtain ⟨rfl, -, hoffset, hle⟩ := hresult
  refine Run.affords_pure ⟨rfl, ?_, hle⟩
  rw [hoffset]
  exact Nat.le_add_right _ _

theorem offset_withField (state : ErrorState) (fieldType : UInt8) (value : String) (offset : ℕ) :
    (state.withField fieldType value offset).offset = offset := by
  unfold ErrorState.withField
  split
  · rfl
  · split
    · rfl
    · rfl

/-! ### Counts -/

/-- The count that a row declares. -/
def declaredCount (payload : List UInt8) : ℕ := (toInt16 (payload.take 2)).toNatClampNeg

/-- A count is there, and it is negative. -/
def NegativeCount (payload : List UInt8) : Prop := 2 ≤ payload.length ∧ toInt16 (payload.take 2) < 0

instance (payload : List UInt8) : Decidable (NegativeCount payload) := inferInstanceAs (Decidable (_ ∧ _))

/-- What both row decoders do: a count, room for so many strings, and a round for each of them. -/
def readRow {σ : Type} (body : List UInt8 → σ × ℕ → Run ClientError (σ × ℕ)) (first : σ)
    (payload : List UInt8) : Run ClientError σ := do
  let (count, offset) ← readI16 payload 0
  let rounds := asUsize count.toInt
  allocate stringSize rounds
  let (row, _) ← Run.repeatLoop (body payload) rounds (first, offset)
  pure row

section

variable {σ : Type} {body : List UInt8 → σ × ℕ → Run ClientError (σ × ℕ)} (first : σ)

end

end Client

end

/-! ## Every byte sequence -/

/-- No decoder crashes on a stream or on a payload, and none goes more rounds than the payload is long or than
its count says. -/
structure NoCrash (stream : List UInt8) (payload : Buffer) : Prop where
  readStartupPayload : (Server.readStartupPayload stream).EndsWithin 0
  parseStartupParameters : (Server.parseStartupParameters payload.bytes).EndsWithin payload.bytes.length
  readMessage : (Server.readMessage stream).EndsWithin 0
  decodeCstring : (Server.decodeCstring payload.bytes).EndsWithin 0
  readFrame : (Client.readFrame stream).EndsWithin 0
  parseRowDescription :
    (Client.parseRowDescription payload.bytes).EndsWithin (Client.declaredCount payload.bytes)
  parseDataRow : (Client.parseDataRow payload.bytes).EndsWithin (Client.declaredCount payload.bytes)
  parseCstring : (Client.parseCstring payload.bytes).EndsWithin 0
  parseError : (Client.parseError payload.bytes).EndsWithin payload.bytes.length

end BrewDB.PgWire

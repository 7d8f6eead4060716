import BrewDB.Common.Arrow
import BrewDB.Common.ByteCodec
import BrewDB.Common.ExceptState

/-!
# The wire between server and client

Reference: `brewdb-frontend/src/pgwire.rs`, `result.rs` and `errors.rs`, and `brewdb-bin/src/client.rs`.

What the server writes in answer to a query, and how the client reads it. Writes to the stream succeed, and a
read succeeds if there are enough bytes. How Arrow prints types, floats and whole arrays is a parameter.
-/

namespace BrewDB.PgWire

open BrewDB.Bytes

/-! ## Results and errors -/

/-- `ResultField`. -/
structure ResultField where
  name : String
  dataType : String
deriving DecidableEq, Repr

/-- `QueryResultKind`, as far as results are made. -/
inductive QueryResultKind where
  | query
  | command
deriving DecidableEq, Repr

/-- `QueryResultOutput`. -/
structure QueryResultOutput where
  kind : QueryResultKind
  commandTag : String
  rowCount : UInt64
  fields : List ResultField
deriving DecidableEq, Repr

/-- `QueryResultOutput::query`. -/
def QueryResultOutput.ofQuery (commandTag : String) (rowCount : UInt64) (fields : List ResultField) :
    QueryResultOutput := ⟨.query, commandTag, rowCount, fields⟩

/-- `QueryResultOutput::command`. -/
def QueryResultOutput.ofCommand (commandTag : String) : QueryResultOutput := ⟨.command, commandTag, 0, []⟩

/-- `ErrorCode`: one of the constants of the source, none of which has a zero in it. -/
structure ErrorCode where
  text : String
  zeroFree : ZeroFree text

/-- `FrontendError`. -/
inductive FrontendError where
  | authenticationFailed (reason : String)
  | invalidRequest (reason : String)
  | sessionNotFound (sessionId : String)
  | unsupportedProtocolMessage (message : String)
  | queryExecutionFailed (reason : String) (errorCode : Option ErrorCode)

namespace FrontendError

/-- The display form. -/
def toString : FrontendError → String
  | .authenticationFailed reason => "authentication failed: " ++ reason
  | .invalidRequest reason => "invalid client request: " ++ reason
  | .sessionNotFound sessionId => "client session `" ++ sessionId ++ "` was not found"
  | .unsupportedProtocolMessage message => "unsupported protocol message: " ++ message
  | .queryExecutionFailed reason _ => "query execution failed: " ++ reason

theorem toString_invalidRequest (reason : String) :
    (invalidRequest reason).toString = "invalid client request: " ++ reason := rfl

/-- `error_code`. -/
def errorCode : FrontendError → ErrorCode
  | .authenticationFailed _ => ⟨"BREWDB_FRONTEND_AUTHENTICATION_FAILED", by decide⟩
  | .invalidRequest _ => ⟨"BREWDB_FRONTEND_INVALID_REQUEST", by decide⟩
  | .sessionNotFound _ => ⟨"BREWDB_FRONTEND_SESSION_NOT_FOUND", by decide⟩
  | .unsupportedProtocolMessage _ => ⟨"BREWDB_FRONTEND_UNSUPPORTED_PROTOCOL_MESSAGE", by decide⟩
  | .queryExecutionFailed _ errorCode =>
      errorCode.getD ⟨"BREWDB_FRONTEND_QUERY_EXECUTION_FAILED", by decide⟩

end FrontendError

/-- How Arrow prints. -/
structure ArrowText where
  /-- `DataType::to_string`. -/
  dataType : ArrowDataType → String
  /-- `f64::to_string`. -/
  float64 : ℤ → String
  /-- The debug form of an array. -/
  debug : ArrowDataType → List Value → String

/-! ## Frames -/

/-- A message: its type and its payload. -/
structure Frame where
  messageType : UInt8
  payload : List UInt8
deriving DecidableEq, Repr

/-- `write_frame`. -/
def Frame.bytes (frame : Frame) : List UInt8 :=
  frame.messageType :: (ofInt32 (.ofNat (frame.payload.length + 4)) ++ frame.payload)

/-- A frame whose length is an `i32`. -/
def Frame.Fits (frame : Frame) : Prop := frame.payload.length + 4 < 2 ^ 31

/-- The bytes of frames, one after the other. -/
def bytesOf (frames : List Frame) : List UInt8 := frames.flatMap Frame.bytes

/-! ## The server -/

/-- `str::contains`. -/
def contains (text part : String) : Bool := decide (part.toList <:+: text.toList)

/-- `oid_for_type`. -/
def oidForType (dataType : String) : Int32 :=
  let dataType := dataType.toLower
  if contains dataType "int64" || contains dataType "int8" then 20
  else if contains dataType "int32" || contains dataType "int4" then 23
  else if contains dataType "bool" then 16
  else if contains dataType "float64" || contains dataType "double" then 701
  else 25

/-- A field in a row description: its name, then 18 bytes. -/
def encodeField (field : ResultField) : List UInt8 :=
  ofString field.name ++ 0 :: (ofInt32 0 ++ ofInt16 0 ++ ofInt32 (oidForType field.dataType) ++
    ofInt16 (-1) ++ ofInt32 0 ++ ofInt16 0)

/-- The row description of `write_query_result`. -/
def rowDescription (fields : List ResultField) : Frame :=
  ⟨'T'.toUInt8, ofInt16 (.ofNat fields.length) ++ fields.flatMap encodeField⟩

variable (text : ArrowText)

/-- The fields of a batch. -/
def batchFields (batch : RecordBatch) : List ResultField :=
  batch.schema.map fun field => ⟨field.name, text.dataType field.dataType⟩

/-- `array_value_as_text`. -/
def arrayValueAsText (dataType : ArrowDataType) (column : List Value) (row : ℕ) : Option String :=
  match column.getD row .null, dataType with
  | .null, _ => none
  | .integer value, .int32 => some (toString value)
  | .integer value, .int64 => some (toString value)
  | .boolean value, .boolean => some (toString value)
  | .integer value, .float64 => some (text.float64 value)
  | .string value, .utf8 => some value
  | _, _ => some (text.debug dataType column)

/-- `batch.columns()`, with their types. -/
def columns (batch : RecordBatch) : List (ArrowDataType × List Value) :=
  batch.schema.zipIdx.map fun field =>
    (field.1.dataType, batch.rows.map fun row => row.getD field.2 .null)

/-- The texts of a row. -/
def rowTexts (batch : RecordBatch) (row : ℕ) : List (Option String) :=
  (columns batch).map fun column => arrayValueAsText text column.1 column.2 row

/-- A cell in a data row. -/
def encodeCell : Option String → List UInt8
  | some value => ofInt32 (.ofNat (ofString value).length) ++ ofString value
  | none => ofInt32 (-1)

/-- A data row of `write_query_result`. -/
def dataRow (texts : List (Option String)) : Frame :=
  ⟨'D'.toUInt8, ofInt16 (.ofNat texts.length) ++ texts.flatMap encodeCell⟩

/-- `CommandComplete`. -/
def commandComplete (commandTag : String) : Frame := ⟨'C'.toUInt8, ofString commandTag ++ [0]⟩

/-- The fields that `write_query_result` announces. -/
def announcedFields (response : QueryResultOutput) (batches : List RecordBatch) : List ResultField :=
  if response.fields ≠ [] then response.fields
  else (batches.head?.map (batchFields text)).getD []

/-- The rows of all batches. -/
def allTexts (batches : List RecordBatch) : List (List (Option String)) :=
  batches.flatMap fun batch => (List.range batch.numRows).map (rowTexts text batch)

/-- `write_query_result`. -/
def writeQueryResult (response : QueryResultOutput) (batches : List RecordBatch) : List Frame :=
  let fields := announcedFields text response batches
  (if fields ≠ [] then [rowDescription fields] else []) ++ (allTexts text batches).map dataRow ++
    [commandComplete response.commandTag]

/-- `write_error_response`. -/
def errorResponse (error : FrontendError) : Frame :=
  ⟨'E'.toUInt8, ofString "SERROR" ++ 0 :: ofString "C" ++ ofString error.errorCode.text ++ 0 :: ofString "M" ++
    ofString error.toString ++ [0, 0]⟩

/-- `write_ready_for_query`. -/
def readyForQuery : Frame := ⟨'Z'.toUInt8, ofString "I"⟩

@[simp]
theorem messageType_rowDescription (fields : List ResultField) :
    (rowDescription fields).messageType = 'T'.toUInt8 := rfl

@[simp]
theorem messageType_dataRow (texts : List (Option String)) : (dataRow texts).messageType = 'D'.toUInt8 := rfl

@[simp]
theorem messageType_commandComplete (commandTag : String) :
    (commandComplete commandTag).messageType = 'C'.toUInt8 := rfl

@[simp]
theorem messageType_errorResponse (error : FrontendError) :
    (errorResponse error).messageType = 'E'.toUInt8 := rfl

@[simp]
theorem messageType_readyForQuery : readyForQuery.messageType = 'Z'.toUInt8 := rfl

/-! ## The client -/

/-- `ClientError`, as far as reading makes it. `io` is a stream that ended; `panic` is no error of the source, but
a row count that is negative and cannot be allocated. -/
inductive ClientError where
  | io
  | protocol (reason : String)
  | server (reason : String) (errorCode : Option String)
  | panic
deriving DecidableEq, Repr

/-- `ServerErrorFields`. -/
structure ServerErrorFields where
  message : String
  code : Option String
deriving DecidableEq, Repr

/-- The client's `QueryResult`. -/
structure QueryResult where
  headers : List String
  rows : List (List (Option String))
  commandTag : String
deriving DecidableEq, Repr

/-- `read_frame`: the outcome and what is left of the stream. -/
def readFrame : List UInt8 → Except ClientError Frame × List UInt8
  | [] => (.error .io, [])
  | messageType :: stream =>
      match split 4 stream with
      | none => (.error .io, [])
      | some (length, stream) =>
          if toInt32 length < 4 then (.error (.protocol "frame length was too small"), stream)
          else
            match split ((toInt32 length).toNatClampNeg - 4) stream with
            | none => (.error .io, [])
            | some (payload, stream) => (.ok ⟨messageType, payload⟩, stream)

/-- `read_i16`. -/
def readI16 (payload : List UInt8) : Except ClientError (Int16 × List UInt8) :=
  match split 2 payload with
  | none => .error (.protocol "payload was truncated")
  | some (bytes, payload) => .ok (toInt16 bytes, payload)

/-- `read_i32`. -/
def readI32 (payload : List UInt8) : Except ClientError (Int32 × List UInt8) :=
  match split 4 payload with
  | none => .error (.protocol "payload was truncated")
  | some (bytes, payload) => .ok (toInt32 bytes, payload)

/-- `read_cstring_at`. -/
def readCstringAt (payload : List UInt8) : Except ClientError (String × List UInt8) :=
  match splitZero payload with
  | none => .error (.protocol "unterminated string")
  | some (bytes, payload) =>
      match toString? bytes with
      | none => .error (.protocol "string was not valid UTF-8")
      | some value => .ok (value, payload)

/-- `parse_cstring`. -/
def parseCstring (payload : List UInt8) : Except ClientError String := do
  let (value, rest) ← readCstringAt payload
  if rest ≠ [] then .error (.protocol "payload contained trailing bytes") else .ok value

/-- The fields of `parse_row_description`. -/
def parseFields : ℕ → List UInt8 → Except ClientError (List String)
  | 0, _ => .ok []
  | count + 1, payload => do
      let (name, payload) ← readCstringAt payload
      match split 18 payload with
      | none => .error (.protocol "row description payload was truncated")
      | some (_, payload) =>
          let names ← parseFields count payload
          .ok (name :: names)

/-- `parse_row_description`. -/
def parseRowDescription (payload : List UInt8) : Except ClientError (List String) := do
  let (count, payload) ← readI16 payload
  if count < 0 then .error .panic else parseFields count.toNatClampNeg payload

/-- The cells of `parse_data_row`. -/
def parseCells : ℕ → List UInt8 → Except ClientError (List (Option String))
  | 0, _ => .ok []
  | count + 1, payload => do
      let (length, payload) ← readI32 payload
      if length < 0 then
        let cells ← parseCells count payload
        .ok (none :: cells)
      else
        match split length.toNatClampNeg payload with
        | none => .error (.protocol "data row payload was truncated")
        | some (bytes, payload) =>
            match toString? bytes with
            | none => .error (.protocol "data row value was not valid UTF-8")
            | some value =>
                let cells ← parseCells count payload
                .ok (some value :: cells)

/-- `parse_data_row`. -/
def parseDataRow (payload : List UInt8) : Except ClientError (List (Option String)) := do
  let (count, payload) ← readI16 payload
  if count < 0 then .error .panic else parseCells count.toNatClampNeg payload

/-- The loop of `parse_error`. -/
def parseErrorFields (message code : Option String) (payload : List UInt8) :
    Option String × Option String :=
  match payload with
  | [] => (message, code)
  | fieldType :: payload =>
      if fieldType = 0 then (message, code)
      else
        let value := (toString? (payload.takeWhile (· ≠ 0))).getD ""
        let rest := (payload.dropWhile (· ≠ 0)).drop 1
        if fieldType = 'M'.toUInt8 then parseErrorFields (some value) code rest
        else if fieldType = 'C'.toUInt8 then parseErrorFields message (some value) rest
        else parseErrorFields message code rest
termination_by payload.length
decreasing_by
  all_goals
    have := (payload.dropWhile_suffix (· ≠ 0)).length_le
    simp only [List.length_drop, List.length_cons]
    omega

/-- `parse_error`. -/
def parseError (payload : List UInt8) : ServerErrorFields :=
  let fields := parseErrorFields none none payload
  ⟨fields.1.getD "server returned an error", fields.2⟩

/-- What `read_query_response` has so far. -/
structure Reading where
  headers : List String
  rows : List (List (Option String))
  commandTag : String
  serverError : Option ServerErrorFields
deriving DecidableEq, Repr

/-- Take in a frame other than `ReadyForQuery`. -/
def Reading.take (reading : Reading) (frame : Frame) : Except ClientError Reading :=
  if frame.messageType = 'T'.toUInt8 then
    (parseRowDescription frame.payload).map fun headers => { reading with headers := headers }
  else if frame.messageType = 'D'.toUInt8 then
    (parseDataRow frame.payload).map fun row => { reading with rows := reading.rows ++ [row] }
  else if frame.messageType = 'C'.toUInt8 then
    (parseCstring frame.payload).map fun commandTag => { reading with commandTag := commandTag }
  else if frame.messageType = 'N'.toUInt8 then .ok reading
  else if frame.messageType = 'E'.toUInt8 then
    .ok { reading with serverError := some (parseError frame.payload) }
  else .error (.protocol ("unexpected query message `" ++
    (Char.ofNat frame.messageType.toNat).toString ++ "`"))

/-- What comes of it. -/
def Reading.finish (reading : Reading) : Except ClientError QueryResult :=
  match reading.serverError with
  | some error => .error (.server error.message error.code)
  | none => .ok ⟨reading.headers, reading.rows, reading.commandTag⟩

/-- Reading a frame uses the stream up. -/
theorem length_readFrame {stream rest : List UInt8} {frame : Frame}
    (h : readFrame stream = (.ok frame, rest)) : rest.length < stream.length := by
  cases stream with
  | nil => cases h
  | cons messageType stream =>
      rw [readFrame] at h
      cases hlength : split 4 stream with
      | none =>
          rw [hlength] at h
          cases h
      | some split =>
          obtain ⟨length, stream'⟩ := split
          obtain ⟨rfl, -⟩ := split_eq_some hlength
          simp only [hlength] at h
          split at h
          · cases h
          · split at h
            · cases h
            · rename_i payload stream'' hpayload
              obtain ⟨rfl, -⟩ := split_eq_some hpayload
              obtain ⟨-, rfl⟩ := Prod.mk.inj h
              simp only [List.length_append, List.length_cons]
              omega

/-- The loop of `read_query_response`. -/
def readResponse (reading : Reading) (stream : List UInt8) : Except ClientError QueryResult × List UInt8 :=
  match _h : readFrame stream with
  | (.error error, rest) => (.error error, rest)
  | (.ok frame, rest) =>
      if frame.messageType = 'Z'.toUInt8 then (reading.finish, rest)
      else
        match reading.take frame with
        | .error error => (.error error, rest)
        | .ok reading => readResponse reading rest
termination_by stream.length
decreasing_by exact length_readFrame _h

/-- `read_query_response`. -/
def readQueryResponse (stream : List UInt8) : Except ClientError QueryResult × List UInt8 :=
  readResponse ⟨[], [], "", none⟩ stream

end BrewDB.PgWire

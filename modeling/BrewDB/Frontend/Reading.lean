import BrewDB.Frontend.Wire

/-!
# Reading what was written

The client's readers undo the server's writers, frame by frame, as long as the length of a frame is an `i32`, the
number of columns is an `i16`, and no zero byte stands in what a zero byte ends.
-/

namespace BrewDB.PgWire

open BrewDB.Bytes

/-! ## Frames -/

theorem int32_ofNat_not_lt {n m : ℕ} (h : n < 2 ^ 31) (hm : m < 2 ^ 31) (hle : m ≤ n) :
    ¬ Int32.ofNat n < Int32.ofNat m := by
  rw [Int32.lt_iff_toInt_lt, Int32.toInt_ofNat_of_lt h, Int32.toInt_ofNat_of_lt hm]
  omega

/-- A frame is read back, and nothing behind it. -/
theorem readFrame_bytes {frame : Frame} (h : frame.Fits) (rest : List UInt8) :
    readFrame (frame.bytes ++ rest) = (.ok frame, rest) := by
  have hlength : ¬ Int32.ofNat (frame.payload.length + 4) < 4 :=
    int32_ofNat_not_lt h (by norm_num) (Nat.le_add_left 4 _)
  have hpayload : (Int32.ofNat (frame.payload.length + 4)).toNatClampNeg - 4 = frame.payload.length := by
    rw [Int32.toNatClampNeg_ofNat_of_lt h]
    omega
  rw [Frame.bytes, List.cons_append, List.append_assoc, readFrame, split_append (length_ofInt32 _)]
  simp only [toInt32_ofInt32, if_neg hlength, hpayload, split_append]

/-- A frame that cannot give its length as an `i32` is not read. -/
theorem readFrame_tooLong {frame : Frame} (h : 2 ^ 31 ≤ frame.payload.length + 4)
    (hlt : frame.payload.length + 4 < 2 ^ 32) (rest : List UInt8) :
    (readFrame (frame.bytes ++ rest)).1 = .error (.protocol "frame length was too small") := by
  have hlength : Int32.ofNat (frame.payload.length + 4) < 4 := by
    have hfour : (4 : Int32).toInt = 4 := by decide
    rw [Int32.lt_iff_toInt_lt, Int32.toInt_ofNat', hfour, Int.bmod_def, Int32.size]
    omega
  rw [Frame.bytes, List.cons_append, List.append_assoc, readFrame, split_append (length_ofInt32 _)]
  simp only [toInt32_ofInt32, if_pos hlength]

/-! ## Payloads -/

theorem readI16_append (n : Int16) (rest : List UInt8) : readI16 (ofInt16 n ++ rest) = .ok (n, rest) := by
  rw [readI16, split_append (length_ofInt16 n)]
  simp only [toInt16_ofInt16]

theorem readI32_append (n : Int32) (rest : List UInt8) : readI32 (ofInt32 n ++ rest) = .ok (n, rest) := by
  rw [readI32, split_append (length_ofInt32 n)]
  simp only [toInt32_ofInt32]

theorem readCstringAt_append {text : String} (h : ZeroFree text) (rest : List UInt8) :
    readCstringAt (ofString text ++ 0 :: rest) = .ok (text, rest) := by
  rw [readCstringAt, splitZero_ofString h]
  simp only [toString?_ofString]

theorem parseCstring_append {text : String} (h : ZeroFree text) :
    parseCstring (ofString text ++ [0]) = .ok text := by
  rw [parseCstring, readCstringAt_append h]
  rfl

theorem parseFields_encodeField {fields : List ResultField} (h : ∀ field ∈ fields, ZeroFree field.name) :
    parseFields fields.length (fields.flatMap encodeField) = .ok (fields.map ResultField.name) := by
  induction fields with
  | nil => rfl
  | cons field fields ih =>
      have hname := h field List.mem_cons_self
      have hih := ih fun field hfield => h field (List.mem_cons_of_mem _ hfield)
      rw [List.flatMap_cons, List.length_cons, parseFields, encodeField, List.append_assoc,
        List.cons_append, readCstringAt_append hname]
      simp only [bind, Except.bind]
      rw [split_append (by simp)]
      simp only [hih]
      rfl

/-- A count that is an `i16`. -/
theorem int16_ofNat_not_neg {n : ℕ} (h : n < 2 ^ 15) : ¬ Int16.ofNat n < 0 := by
  rw [Int16.lt_iff_toInt_lt, Int16.toInt_ofNat_of_lt h]
  exact not_lt.mpr (Int.natCast_nonneg n)

theorem parseRowDescription_rowDescription {fields : List ResultField} (hcount : fields.length < 2 ^ 15)
    (h : ∀ field ∈ fields, ZeroFree field.name) :
    parseRowDescription (rowDescription fields).payload = .ok (fields.map ResultField.name) := by
  rw [parseRowDescription, rowDescription, readI16_append]
  simp only [bind, Except.bind, if_neg (int16_ofNat_not_neg hcount), Int16.toNatClampNeg_ofNat_of_lt hcount]
  exact parseFields_encodeField h

theorem parseCells_encodeCell {texts : List (Option String)}
    (h : ∀ value, some value ∈ texts → (ofString value).length < 2 ^ 31) :
    parseCells texts.length (texts.flatMap encodeCell) = .ok texts := by
  induction texts with
  | nil => rfl
  | cons cell texts ih =>
      have hih := ih fun value hvalue => h value (List.mem_cons_of_mem _ hvalue)
      rw [List.flatMap_cons, List.length_cons, parseCells]
      cases cell with
      | none =>
          rw [encodeCell, readI32_append]
          simp only [bind, Except.bind]
          rw [if_pos (by decide), hih]
      | some value =>
          have hvalue := h value List.mem_cons_self
          have hnonneg : ¬ Int32.ofNat (ofString value).length < 0 :=
            int32_ofNat_not_lt hvalue (by norm_num) (Nat.zero_le _)
          rw [encodeCell, List.append_assoc, readI32_append]
          simp only [bind, Except.bind]
          rw [if_neg hnonneg, Int32.toNatClampNeg_ofNat_of_lt hvalue, split_append rfl]
          simp only [toString?_ofString, hih]

/-- The values of a row are shorter than its frame. -/
theorem length_le_of_mem {texts : List (Option String)} {value : String} (h : some value ∈ texts) :
    (ofString value).length ≤ (dataRow texts).payload.length := by
  have hcell : (encodeCell (some value)).length ≤ (texts.flatMap encodeCell).length :=
    List.Sublist.length_le (List.sublist_flatten_of_mem (List.mem_map_of_mem h))
  rw [encodeCell, List.length_append] at hcell
  rw [dataRow, List.length_append]
  omega

theorem parseDataRow_dataRow {texts : List (Option String)} (hcount : texts.length < 2 ^ 15)
    (h : (dataRow texts).Fits) : parseDataRow (dataRow texts).payload = .ok texts := by
  rw [parseDataRow, dataRow, readI16_append]
  simp only [bind, Except.bind, if_neg (int16_ofNat_not_neg hcount), Int16.toNatClampNeg_ofNat_of_lt hcount]
  refine parseCells_encodeCell fun value hvalue => ?_
  have hle := length_le_of_mem hvalue
  rw [Frame.Fits] at h
  omega

/-! ## Errors -/

/-- One field of an error. -/
theorem parseErrorFields_append {fieldType : UInt8} (htype : fieldType ≠ 0) {value : String}
    (h : ZeroFree value) (message code : Option String) (rest : List UInt8) :
    parseErrorFields message code (fieldType :: (ofString value ++ 0 :: rest)) =
      if fieldType = 'M'.toUInt8 then parseErrorFields (some value) code rest
      else if fieldType = 'C'.toUInt8 then parseErrorFields message (some value) rest
      else parseErrorFields message code rest := by
  have hall : ∀ byte ∈ ofString value, decide (byte ≠ 0) = true := by
    intro byte hbyte
    exact decide_eq_true fun hzero => zero_notMem_ofString h (hzero ▸ hbyte)
  have htake : (ofString value ++ 0 :: rest).takeWhile (· ≠ 0) = ofString value := by
    rw [List.takeWhile_append_of_pos hall]
    simp
  have hdrop : ((ofString value ++ 0 :: rest).dropWhile (· ≠ 0)).drop 1 = rest := by
    rw [List.dropWhile_append_of_pos hall]
    simp
  rw [parseErrorFields, if_neg htype, htake, hdrop, toString?_ofString]
  rfl

theorem parseError_errorResponse {error : FrontendError} (h : ZeroFree error.toString) :
    parseError (errorResponse error).payload = ⟨error.toString, some error.errorCode.text⟩ := by
  have hpayload : (errorResponse error).payload =
      'S'.toUInt8 :: (ofString "ERROR" ++ 0 :: ('C'.toUInt8 :: (ofString error.errorCode.text ++
        0 :: ('M'.toUInt8 :: (ofString error.toString ++ 0 :: [0]))))) := by
    rw [errorResponse]
    have hseverity : ofString "SERROR" = 'S'.toUInt8 :: ofString "ERROR" := by decide +kernel
    have hcode : ofString "C" = ['C'.toUInt8] := by decide +kernel
    have hmessage : ofString "M" = ['M'.toUInt8] := by decide +kernel
    rw [hseverity, hcode, hmessage]
    simp only [List.cons_append, List.append_assoc, List.nil_append]
  have hend : parseErrorFields (some error.toString) (some error.errorCode.text) [0] =
      (some error.toString, some error.errorCode.text) := by
    rw [parseErrorFields, if_pos rfl]
  rw [parseError, hpayload, parseErrorFields_append (by decide) (by decide),
    if_neg (by decide), if_neg (by decide), parseErrorFields_append (by decide) error.errorCode.zeroFree,
    if_neg (by decide), if_pos rfl, parseErrorFields_append (by decide) h, if_pos rfl, hend]
  rfl

/-! ## Responses -/

/-- One frame in front of the others. -/
theorem readResponse_bytes {reading reading' : Reading} {frame : Frame} (h : frame.Fits)
    (htype : frame.messageType ≠ 'Z'.toUInt8) (htake : reading.take frame = .ok reading')
    (rest : List UInt8) : readResponse reading (frame.bytes ++ rest) = readResponse reading' rest := by
  rw [readResponse]
  split
  · rename_i error rest' hread
    rw [readFrame_bytes h] at hread
    cases hread
  · rename_i frame' rest' hread
    rw [readFrame_bytes h] at hread
    obtain ⟨hframe, rfl⟩ := Prod.mk.inj hread
    obtain rfl := Except.ok.inj hframe
    rw [if_neg htype, htake]

/-- `ReadyForQuery` ends the response. -/
theorem readResponse_readyForQuery (reading : Reading) (rest : List UInt8) :
    readResponse reading (readyForQuery.bytes ++ rest) = (reading.finish, rest) := by
  have hfits : readyForQuery.Fits := by
    rw [Frame.Fits]
    decide +kernel
  rw [readResponse]
  split
  · rename_i error rest' hread
    rw [readFrame_bytes hfits] at hread
    cases hread
  · rename_i frame' rest' hread
    rw [readFrame_bytes hfits] at hread
    obtain ⟨hframe, rfl⟩ := Prod.mk.inj hread
    obtain rfl := Except.ok.inj hframe
    exact if_pos rfl

theorem take_rowDescription (reading : Reading) {fields : List ResultField} (hcount : fields.length < 2 ^ 15)
    (h : ∀ field ∈ fields, ZeroFree field.name) :
    reading.take (rowDescription fields) =
      .ok { reading with headers := fields.map ResultField.name } := by
  rw [Reading.take, if_pos (messageType_rowDescription fields),
    parseRowDescription_rowDescription hcount h]
  rfl

theorem take_dataRow (reading : Reading) {texts : List (Option String)} (hcount : texts.length < 2 ^ 15)
    (h : (dataRow texts).Fits) :
    reading.take (dataRow texts) = .ok { reading with rows := reading.rows ++ [texts] } := by
  rw [Reading.take, messageType_dataRow, if_neg (by decide), if_pos rfl, parseDataRow_dataRow hcount h]
  rfl

theorem take_commandComplete (reading : Reading) {commandTag : String} (h : ZeroFree commandTag) :
    reading.take (commandComplete commandTag) = .ok { reading with commandTag := commandTag } := by
  rw [Reading.take, messageType_commandComplete, if_neg (by decide), if_neg (by decide), if_pos rfl,
    commandComplete, parseCstring_append h]
  rfl

theorem take_errorResponse (reading : Reading) {error : FrontendError} (h : ZeroFree error.toString) :
    reading.take (errorResponse error) =
      .ok { reading with serverError := some ⟨error.toString, some error.errorCode.text⟩ } := by
  rw [Reading.take, messageType_errorResponse, if_neg (by decide), if_neg (by decide), if_neg (by decide),
    if_neg (by decide), if_pos rfl, parseError_errorResponse h]

/-- All data rows. -/
theorem readResponse_dataRows {rows : List (List (Option String))} (reading : Reading)
    (hcount : ∀ texts ∈ rows, texts.length < 2 ^ 15) (hfits : ∀ texts ∈ rows, (dataRow texts).Fits)
    (rest : List UInt8) :
    readResponse reading (bytesOf (rows.map dataRow) ++ rest) =
      readResponse { reading with rows := reading.rows ++ rows } rest := by
  induction rows generalizing reading with
  | nil =>
      rw [List.append_nil]
      rfl
  | cons texts rows ih =>
      have htype : (dataRow texts).messageType ≠ 'Z'.toUInt8 := by
        rw [messageType_dataRow]
        decide
      have htake := take_dataRow reading (hcount texts List.mem_cons_self) (hfits texts List.mem_cons_self)
      rw [List.map_cons, bytesOf, List.flatMap_cons, List.append_assoc,
        readResponse_bytes (hfits texts List.mem_cons_self) htype htake]
      refine (ih _ (fun texts h => hcount texts (List.mem_cons_of_mem _ h))
        (fun texts h => hfits texts (List.mem_cons_of_mem _ h))).trans ?_
      simp only [List.append_assoc, List.singleton_append]

/-- A result that can be sent: its names have no zeros, and its counts and lengths fit. -/
structure Sendable (text : ArrowText) (response : QueryResultOutput) (batches : List RecordBatch) : Prop where
  names : ∀ field ∈ announcedFields text response batches, ZeroFree field.name
  tag : ZeroFree response.commandTag
  fields : (announcedFields text response batches).length ≤ 32767
  columns : ∀ batch ∈ batches, batch.schema.length ≤ 32767
  frames : ∀ frame ∈ writeQueryResult text response batches, frame.Fits

/-- The bytes of a response, up to the end of the query. -/
def answered (frames : List Frame) : List UInt8 := bytesOf (frames ++ [readyForQuery])

theorem length_rowTexts (text : ArrowText) (batch : RecordBatch) (row : ℕ) :
    (rowTexts text batch row).length = batch.schema.length := by
  simp [rowTexts, PgWire.columns]

/-- A result is read back. -/
theorem readQueryResponse_result {text : ArrowText} {response : QueryResultOutput} {batches : List RecordBatch}
    (h : Sendable text response batches) (rest : List UInt8) :
    readQueryResponse (answered (writeQueryResult text response batches) ++ rest) =
      (.ok ⟨(announcedFields text response batches).map ResultField.name, allTexts text batches,
        response.commandTag⟩, rest) := by
  have hframes := h.frames
  rw [writeQueryResult] at hframes
  simp only [List.forall_mem_append, List.forall_mem_map, List.forall_mem_singleton] at hframes
  obtain ⟨⟨hfields, hrows⟩, hcomplete⟩ := hframes
  have hcount : ∀ texts ∈ allTexts text batches, texts.length < 2 ^ 15 := by
    intro texts htexts
    obtain ⟨batch, hbatch, htexts⟩ := List.mem_flatMap.mp htexts
    obtain ⟨row, -, rfl⟩ := List.mem_map.mp htexts
    have hle := h.columns batch hbatch
    rw [length_rowTexts]
    omega
  have hheaders : ∀ stream, readQueryResponse (bytesOf (if announcedFields text response batches ≠ [] then
      [rowDescription (announcedFields text response batches)] else []) ++ stream) =
      readResponse ⟨(announcedFields text response batches).map ResultField.name, [], "", none⟩ stream := by
    intro stream
    by_cases hnone : announcedFields text response batches = []
    · rw [hnone]
      rfl
    · rw [if_pos hnone, List.forall_mem_singleton] at hfields
      have hlength := h.fields
      have htype : (rowDescription (announcedFields text response batches)).messageType ≠ 'Z'.toUInt8 := by
        rw [messageType_rowDescription]
        decide
      rw [if_pos hnone, bytesOf, List.flatMap_singleton, readQueryResponse,
        readResponse_bytes hfields htype (take_rowDescription _ (by omega) h.names)]
  have htype : (commandComplete response.commandTag).messageType ≠ 'Z'.toUInt8 := by
    rw [messageType_commandComplete]
    decide
  have hbytes : answered (writeQueryResult text response batches) ++ rest =
      bytesOf (if announcedFields text response batches ≠ [] then
          [rowDescription (announcedFields text response batches)] else []) ++
        (bytesOf ((allTexts text batches).map dataRow) ++
          ((commandComplete response.commandTag).bytes ++ (readyForQuery.bytes ++ rest))) := by
    simp only [answered, writeQueryResult, bytesOf, List.flatMap_append, List.flatMap_singleton,
      List.append_assoc]
  rw [hbytes, hheaders, readResponse_dataRows _ hcount hrows,
    readResponse_bytes hcomplete htype (take_commandComplete _ h.tag), readResponse_readyForQuery]
  rfl

/-- An error is read back. -/
theorem readQueryResponse_error {error : FrontendError} (h : ZeroFree error.toString)
    (hfits : (errorResponse error).Fits) (rest : List UInt8) :
    readQueryResponse (answered [errorResponse error] ++ rest) =
      (.error (.server error.toString (some error.errorCode.text)), rest) := by
  have htype : (errorResponse error).messageType ≠ 'Z'.toUInt8 := by
    rw [messageType_errorResponse]
    decide
  have hbytes : answered [errorResponse error] ++ rest =
      (errorResponse error).bytes ++ (readyForQuery.bytes ++ rest) := by
    simp only [answered, bytesOf, List.singleton_append, List.flatMap_cons, List.flatMap_nil,
      List.append_nil, List.append_assoc]
  rw [hbytes, readQueryResponse, readResponse_bytes hfits htype (take_errorResponse _ h),
    readResponse_readyForQuery]
  rfl

/-! ## The whole answer -/

/-- What the server writes, the client reads: results with their names, rows and tag, errors with their message
and code, and nothing behind the end of the answer. -/
theorem client_reads_server (text : ArrowText) (rest : List UInt8) :
    (∀ response batches, Sendable text response batches →
      readQueryResponse (answered (writeQueryResult text response batches) ++ rest) =
        (.ok ⟨(announcedFields text response batches).map ResultField.name, allTexts text batches,
          response.commandTag⟩, rest)) ∧
      ∀ error : FrontendError, ZeroFree error.toString → (errorResponse error).Fits →
        readQueryResponse (answered [errorResponse error] ++ rest) =
          (.error (.server error.toString (some error.errorCode.text)), rest) :=
  ⟨fun _ _ h => readQueryResponse_result h rest, fun _ h hfits => readQueryResponse_error h hfits rest⟩

namespace Sample

/-- How the values of the samples are printed. -/
def arrowText : ArrowText where
  dataType
    | .int64 => "Int64"
    | .utf8 => "Utf8"
    | _ => "Other"
  float64 := toString
  debug _ _ := "[]"

/-- Two rows in two batches, and a null. -/
def namedBatches : List RecordBatch :=
  [⟨[⟨"id", .int64, false⟩, ⟨"name", .utf8, true⟩], [[.integer 1, .string "one"]]⟩,
    ⟨[⟨"id", .int64, false⟩, ⟨"name", .utf8, true⟩], [[.integer 2, .null]]⟩]

def namedResult : QueryResultOutput := .ofQuery "SELECT" 2 [⟨"id", "Int64"⟩, ⟨"name", "Utf8"⟩]

theorem namedResult_sendable : Sendable arrowText namedResult namedBatches where
  names := by decide
  tag := by decide
  fields := by decide
  columns := by decide
  frames := by
    show ∀ frame ∈ _, _ < _
    decide +kernel

/-- An error with a message of 2³¹ letters and a few more. -/
def longError : FrontendError := .invalidRequest (String.ofList (List.replicate (2 ^ 31) 'a'))

end Sample

theorem client_reads_server_named :
    readQueryResponse (answered (writeQueryResult Sample.arrowText Sample.namedResult Sample.namedBatches)) =
        (.ok ⟨["id", "name"], [[some "1", some "one"], [some "2", none]], "SELECT"⟩, []) ∧
      readQueryResponse (answered [errorResponse (.invalidRequest "SQL text must not be empty")]) =
        (.error (.server "invalid client request: SQL text must not be empty"
          (some "BREWDB_FRONTEND_INVALID_REQUEST")), []) := by
  have hreads := client_reads_server Sample.arrowText []
  simp only [List.append_nil] at hreads
  have herror : (errorResponse (.invalidRequest "SQL text must not be empty")).Fits := by
    rw [Frame.Fits]
    decide +kernel
  refine ⟨(hreads.1 _ _ Sample.namedResult_sendable).trans ?_, (hreads.2 _ (by decide) herror).trans ?_⟩
  · decide +kernel
  · rfl

/-- An error whose message does not fit into a frame is lost. -/
theorem readQueryResponse_tooLong {n : ℕ} (h : 2 ^ 31 ≤ n) (hlt : n + 100 < 2 ^ 32) (rest : List UInt8) :
    (readQueryResponse (answered [errorResponse
        (.invalidRequest (String.ofList (List.replicate n 'a')))] ++ rest)).1 =
      .error (.protocol "frame length was too small") := by
  have hlength : (errorResponse (.invalidRequest (String.ofList (List.replicate n 'a')))).payload.length =
      n + 67 := by
    have hprefix : (ofString "invalid client request: ").length = 24 := by decide +kernel
    have hseverity : (ofString "SERROR").length = 6 := by decide +kernel
    have hcode : (ofString "C").length = 1 := by decide +kernel
    have hmessage : (ofString "M").length = 1 := by decide +kernel
    have hname : (ofString "BREWDB_FRONTEND_INVALID_REQUEST").length = 31 := by decide +kernel
    have hmessageLength (reason : String) : (ofString (FrontendError.invalidRequest reason).toString).length =
        24 + (ofString reason).length := by
      rw [FrontendError.toString_invalidRequest, ofString_append, List.length_append, hprefix]
    have hpayload (reason : String) : (errorResponse (.invalidRequest reason)).payload.length =
        (ofString reason).length + 67 := by
      have hcodeText : (FrontendError.invalidRequest reason).errorCode.text =
          "BREWDB_FRONTEND_INVALID_REQUEST" := rfl
      simp only [errorResponse, hcodeText, List.length_append, List.length_cons, List.length_nil,
        hmessageLength, hseverity, hcode, hmessage, hname]
      omega
    rw [hpayload, length_ofString_replicate]
  have hbytes : answered [errorResponse (.invalidRequest (String.ofList (List.replicate n 'a')))] ++ rest =
      (errorResponse (.invalidRequest (String.ofList (List.replicate n 'a')))).bytes ++
        (readyForQuery.bytes ++ rest) := by
    simp only [answered, bytesOf, List.singleton_append, List.flatMap_cons, List.flatMap_nil,
      List.append_nil, List.append_assoc]
  have hread := @readFrame_tooLong (errorResponse (.invalidRequest (String.ofList (List.replicate n 'a'))))
    (by omega) (by omega) (readyForQuery.bytes ++ rest)
  rw [hbytes, readQueryResponse, readResponse]
  split
  · rename_i error rest' h
    rw [h] at hread
    have herror : error = .protocol "frame length was too small" := Except.error.inj hread
    rw [herror]
  · rename_i frame rest' h
    rw [h] at hread
    cases hread

theorem not_client_reads_server_longError :
    ZeroFree Sample.longError.toString ∧ ∀ rest,
      readQueryResponse (answered [errorResponse Sample.longError] ++ rest) ≠
        (.error (.server Sample.longError.toString (some Sample.longError.errorCode.text)), rest) := by
  have hfree : ∀ n, ZeroFree (FrontendError.invalidRequest
      (String.ofList (List.replicate n 'a'))).toString := by
    intro n h
    rw [FrontendError.toString_invalidRequest, String.toList_append, List.mem_append] at h
    rcases h with h | h
    · exact absurd h (by decide)
    · rw [String.toList_ofList] at h
      exact absurd (List.eq_of_mem_replicate h) (by decide)
  refine ⟨hfree _, fun rest h => ?_⟩
  have hlost := readQueryResponse_tooLong (le_refl (2 ^ 31)) (by norm_num) rest
  rw [Sample.longError] at h
  rw [h] at hlost
  cases hlost

end BrewDB.PgWire

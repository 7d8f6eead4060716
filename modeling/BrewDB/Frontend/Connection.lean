import BrewDB.Common.TextList
import BrewDB.Frontend.Reading

/-!
# A connection

Reference: `PgWireCodec::serve_connection_io` of `brewdb-frontend/src/pgwire.rs`, behind the startup, and
`FrontendService::build_request` of `brewdb-frontend/src/session.rs`.

The loop reads one message after the other until the client terminates, and answers each. What executes a query
is a parameter with a state of its own; the query context of the requests is the session's.
-/

namespace BrewDB.PgWire

open BrewDB.Bytes

/-- `SqlExecutionResult`. -/
structure SqlExecutionResult where
  response : QueryResultOutput
  batches : List RecordBatch

/-- `SqlRequestHandler`: the outcome of a query, and what it leaves behind. -/
structure SqlRequestHandler (σ : Type) where
  execute : σ → String → Except FrontendError SqlExecutionResult × σ

/-! ## Messages -/

/-- `protocol_error`. -/
def protocolError (message : String) : FrontendError := .unsupportedProtocolMessage message

/-- `read_message`; `read_exact` says what the standard library says of a stream that ends. -/
def readMessage : List UInt8 → Except FrontendError (Frame × List UInt8)
  | [] => .error (protocolError "failed to read message type: failed to fill whole buffer")
  | messageType :: stream =>
      match split 4 stream with
      | none => .error (protocolError "failed to read packet length: failed to fill whole buffer")
      | some (length, stream) =>
          if toInt32 length < 4 ∨ Int32.ofNat (16 * 1024 * 1024) < toInt32 length then
            .error (protocolError "invalid frontend message length")
          else
            match split ((toInt32 length).toNatClampNeg - 4) stream with
            | none => .error (protocolError "failed to read frontend message: failed to fill whole buffer")
            | some (payload, stream) => .ok (⟨messageType, payload⟩, stream)

/-- `decode_cstring`. -/
def decodeCstring (payload : List UInt8) : Except FrontendError String :=
  match splitZero payload with
  | none => .error (protocolError "unterminated PostgreSQL string")
  | some (bytes, rest) =>
      match toString? bytes with
      | none => .error (protocolError "PostgreSQL string was not valid UTF-8")
      | some value =>
          if rest ≠ [] then .error (protocolError "query packet contains trailing bytes") else .ok value

/-- `build_request`. -/
def buildRequest (sql : String) : Except FrontendError String :=
  if Text.trim sql.toList = [] then .error (.invalidRequest "SQL text must not be empty") else .ok sql

/-! ## The loop -/

section

variable {σ : Type} (text : ArrowText) (handler : SqlRequestHandler σ)

/-- The outcome of a query. -/
def runQuery (state : σ) (sql : String) : Except FrontendError SqlExecutionResult × σ :=
  match buildRequest sql with
  | .error error => (.error error, state)
  | .ok sql => handler.execute state sql

/-- The frames in front of `ReadyForQuery`. -/
def queryFrames : Except FrontendError SqlExecutionResult → List Frame
  | .ok result => writeQueryResult text result.response result.batches
  | .error error => [errorResponse error]

/-- What becomes of a message. -/
inductive Served (σ : Type) where
  | answered (frames : List Frame) (state : σ)
  | terminated
  | failed (error : FrontendError)

/-- The body of the loop. -/
def serveMessage (state : σ) (message : Frame) : Served σ :=
  if message.messageType = 'Q'.toUInt8 then
    match decodeCstring message.payload with
    | .error error => .failed error
    | .ok sql =>
        let outcome := runQuery handler state sql
        .answered (queryFrames text outcome.1 ++ [readyForQuery]) outcome.2
  else if message.messageType = 'X'.toUInt8 then .terminated
  else .answered [errorResponse (.unsupportedProtocolMessage "unsupported frontend protocol message")] state

/-- Reading a message uses the stream up. -/
theorem length_readMessage {stream rest : List UInt8} {message : Frame}
    (h : readMessage stream = .ok (message, rest)) : rest.length < stream.length := by
  cases stream with
  | nil => cases h
  | cons messageType stream =>
      rw [readMessage] at h
      cases hlength : split 4 stream with
      | none =>
          rw [hlength] at h
          cases h
      | some split =>
          obtain ⟨length, stream'⟩ := split
          obtain ⟨rfl, -⟩ := split_eq_some hlength
          simp only [hlength] at h
          split at h
          · cases h
          · split at h
            · cases h
            · rename_i payload stream'' hpayload
              obtain ⟨rfl, -⟩ := split_eq_some hpayload
              obtain ⟨-, rfl⟩ := Prod.mk.inj (Except.ok.inj h)
              simp only [List.length_append, List.length_cons]
              omega

/-- The loop of `serve_connection_io`: the frames it writes, and how it ends. -/
def serveLoop (state : σ) (stream : List UInt8) : List Frame × Except FrontendError Unit :=
  match _h : readMessage stream with
  | .error error => ([], .error error)
  | .ok (message, rest) =>
      match serveMessage text handler state message with
      | .terminated => ([], .ok ())
      | .failed error => ([], .error error)
      | .answered frames state =>
          let later := serveLoop state rest
          (frames ++ later.1, later.2)
termination_by stream.length
decreasing_by exact length_readMessage _h

end

/-! ## Staying in step -/

/-- A message that `read_message` takes. -/
def WellFramed (message : Frame) : Prop := message.payload.length + 4 ≤ 16 * 1024 * 1024

/-- Messages of the extended protocol, without `Sync`: Parse, Bind, Describe, Execute, Close and Flush. -/
def isExtended (message : Frame) : Bool :=
  ['P', 'B', 'D', 'E', 'C', 'H'].any fun c => message.messageType = c.toUInt8

/-- A `Sync` comes before anything outside the extended protocol. -/
def endsInSync (messages : List Frame) : Bool :=
  match messages.dropWhile isExtended with
  | [] => false
  | message :: _ => message.messageType = 'S'.toUInt8

/-- What may answer a query. -/
inductive QueryAnswer : List Frame → Prop
  | rows (fields : List ResultField) (rows : List (List (Option String))) (commandTag : String) :
      QueryAnswer (rowDescription fields :: (rows.map dataRow ++ [commandComplete commandTag]))
  | command (commandTag : String) : QueryAnswer [commandComplete commandTag]
  | error (error : FrontendError) : QueryAnswer [errorResponse error]

/-- An `ErrorResponse`. -/
def isErrorResponse (frame : Frame) : Bool := frame.messageType = 'E'.toUInt8

/-- The output answers the messages one by one: a query as a query, a run of extended messages up to its `Sync`
with one `ReadyForQuery` and at most one error, and what belongs to neither with an error. -/
inductive InStep : List Frame → List Frame → Prop
  | done : InStep [] []
  | terminate (message : Frame) (messages : List Frame) (htype : message.messageType = 'X'.toUInt8) :
      InStep (message :: messages) []
  | query (message : Frame) (messages answer output : List Frame)
      (htype : message.messageType = 'Q'.toUInt8) (hanswer : QueryAnswer answer)
      (hrest : InStep messages output) : InStep (message :: messages) (answer ++ readyForQuery :: output)
  | run (run : List Frame) (sync : Frame) (messages answer output : List Frame)
      (hrun : ∀ message ∈ run, isExtended message = true) (hsync : sync.messageType = 'S'.toUInt8)
      (herrors : answer.countP isErrorResponse ≤ 1) (hready : readyForQuery ∉ answer)
      (hrest : InStep messages output) :
      InStep (run ++ sync :: messages) (answer ++ readyForQuery :: output)
  | single (message : Frame) (messages output : List Frame) (error : FrontendError)
      (htype : ∀ c ∈ ['Q', 'X', 'S'], message.messageType ≠ c.toUInt8)
      (hrun : ¬ (isExtended message = true ∧ endsInSync messages = true))
      (hrest : InStep messages output) : InStep (message :: messages) (errorResponse error :: output)

/-- The messages that a client waits for: queries and `Sync`s, up to the end. -/
def requests : List Frame → ℕ
  | [] => 0
  | message :: messages =>
      if message.messageType = 'X'.toUInt8 then 0
      else if message.messageType = 'Q'.toUInt8 ∨ message.messageType = 'S'.toUInt8 then requests messages + 1
      else requests messages

section

variable {σ : Type} (text : ArrowText) (handler : SqlRequestHandler σ)

/-- The connection answers the messages, and ends well with a `Terminate`. -/
def Serves (state : σ) (messages : List Frame) : Prop :=
  InStep messages (serveLoop text handler state (bytesOf messages)).1 ∧
    ((∃ message ∈ messages, message.messageType = 'X'.toUInt8) →
      (serveLoop text handler state (bytesOf messages)).2 = .ok ())

/-- An outcome that shows columns whenever it has rows. -/
def Described : Except FrontendError SqlExecutionResult → Prop
  | .ok result => announcedFields text result.response result.batches = [] → allTexts text result.batches = []
  | .error _ => True

/-- Up to the end there is no `Sync`, every query is a string, and none has rows without columns. -/
def Plain : σ → List Frame → Prop
  | _, [] => True
  | state, message :: messages =>
      message.messageType ≠ 'X'.toUInt8 →
        message.messageType ≠ 'S'.toUInt8 ∧
          if message.messageType = 'Q'.toUInt8 then
            ∃ sql, decodeCstring message.payload = .ok sql ∧
              Described text (runQuery handler state sql).1 ∧ Plain (runQuery handler state sql).2 messages
          else Plain state messages

/-! ## One message -/

variable {text handler}

/-- A well-framed message is read back, and nothing behind it. -/
theorem readMessage_bytes {message : Frame} (h : WellFramed message) (rest : List UInt8) :
    readMessage (message.bytes ++ rest) = .ok (message, rest) := by
  rw [WellFramed] at h
  have hlow : ¬ Int32.ofNat (message.payload.length + 4) < 4 :=
    int32_ofNat_not_lt (by omega) (by norm_num) (Nat.le_add_left 4 _)
  have hhigh : ¬ Int32.ofNat (16 * 1024 * 1024) < Int32.ofNat (message.payload.length + 4) :=
    int32_ofNat_not_lt (by norm_num) (by omega) h
  have hpayload : (Int32.ofNat (message.payload.length + 4)).toNatClampNeg - 4 = message.payload.length := by
    rw [Int32.toNatClampNeg_ofNat_of_lt (by omega)]
    omega
  rw [Frame.bytes, List.cons_append, List.append_assoc, readMessage, split_append (length_ofInt32 _)]
  simp only [toInt32_ofInt32, if_neg (not_or.mpr ⟨hlow, hhigh⟩), hpayload, split_append]

/-- The loop on a message and the rest. -/
theorem serveLoop_cons {message : Frame} (h : WellFramed message) (state : σ) (messages : List Frame) :
    serveLoop text handler state (bytesOf (message :: messages)) =
      match serveMessage text handler state message with
      | .terminated => ([], .ok ())
      | .failed error => ([], .error error)
      | .answered frames state =>
          (frames ++ (serveLoop text handler state (bytesOf messages)).1,
            (serveLoop text handler state (bytesOf messages)).2) := by
  rw [serveLoop]
  split
  · rename_i error hread
    rw [bytesOf, List.flatMap_cons, readMessage_bytes h] at hread
    cases hread
  · rename_i message' rest hread
    rw [bytesOf, List.flatMap_cons, readMessage_bytes h] at hread
    obtain ⟨rfl, rfl⟩ := Prod.mk.inj (Except.ok.inj hread)
    cases serveMessage text handler state message <;> rfl

/-- A string and its ending zero are taken as they are. -/
theorem decodeCstring_append {sql : String} (h : ZeroFree sql) :
    decodeCstring (ofString sql ++ [0]) = .ok sql := by
  rw [decodeCstring, splitZero_ofString h]
  simp only [toString?_ofString]
  exact if_neg (not_not_intro rfl)

theorem serveLoop_query {message : Frame} (h : WellFramed message)
    (htype : message.messageType = 'Q'.toUInt8) {sql : String}
    (hsql : decodeCstring message.payload = .ok sql) (state : σ) (messages : List Frame) :
    serveLoop text handler state (bytesOf (message :: messages)) =
      (queryFrames text (runQuery handler state sql).1 ++ readyForQuery ::
          (serveLoop text handler (runQuery handler state sql).2 (bytesOf messages)).1,
        (serveLoop text handler (runQuery handler state sql).2 (bytesOf messages)).2) := by
  rw [serveLoop_cons h, serveMessage, if_pos htype, hsql]
  simp only [List.append_assoc, List.singleton_append]

theorem serveLoop_failed {message : Frame} (h : WellFramed message)
    (htype : message.messageType = 'Q'.toUInt8) {error : FrontendError}
    (hsql : decodeCstring message.payload = .error error) (state : σ) (messages : List Frame) :
    serveLoop text handler state (bytesOf (message :: messages)) = ([], .error error) := by
  rw [serveLoop_cons h, serveMessage, if_pos htype, hsql]

theorem serveLoop_terminate {message : Frame} (h : WellFramed message)
    (htype : message.messageType = 'X'.toUInt8) (state : σ) (messages : List Frame) :
    serveLoop text handler state (bytesOf (message :: messages)) = ([], .ok ()) := by
  have hquery : message.messageType ≠ 'Q'.toUInt8 := by
    rw [htype]
    decide
  rw [serveLoop_cons h, serveMessage, if_neg hquery, if_pos htype]

theorem serveLoop_other {message : Frame} (h : WellFramed message)
    (hquery : message.messageType ≠ 'Q'.toUInt8) (hterminate : message.messageType ≠ 'X'.toUInt8)
    (state : σ) (messages : List Frame) :
    serveLoop text handler state (bytesOf (message :: messages)) =
      (errorResponse (.unsupportedProtocolMessage "unsupported frontend protocol message") ::
          (serveLoop text handler state (bytesOf messages)).1,
        (serveLoop text handler state (bytesOf messages)).2) := by
  rw [serveLoop_cons h, serveMessage, if_neg hquery, if_neg hterminate]
  rfl

/-! ## Answers and the end of a query -/

theorem ne_readyForQuery {frame : Frame} (h : frame.messageType ≠ 'Z'.toUInt8) : frame ≠ readyForQuery :=
  fun heq => h (heq ▸ messageType_readyForQuery)

theorem readyForQuery_notMem_queryAnswer {answer : List Frame} (h : QueryAnswer answer) :
    readyForQuery ∉ answer := by
  have hrow : ∀ texts, dataRow texts ≠ readyForQuery := fun texts => ne_readyForQuery (by simp; decide)
  have hcomplete : ∀ tag, commandComplete tag ≠ readyForQuery := fun tag => ne_readyForQuery (by simp; decide)
  intro hmem
  cases h with
  | rows fields rows commandTag =>
      have hdescription : rowDescription fields ≠ readyForQuery := ne_readyForQuery (by simp; decide)
      simp only [List.mem_cons, List.mem_append, List.mem_map, List.not_mem_nil, or_false] at hmem
      rcases hmem with h | ⟨texts, -, h⟩ | h
      · exact hdescription h.symm
      · exact hrow texts h
      · exact hcomplete commandTag h.symm
  | command commandTag => exact hcomplete commandTag (List.mem_singleton.mp hmem).symm
  | error error =>
      have herror : errorResponse error ≠ readyForQuery := ne_readyForQuery (by simp; decide)
      exact herror (List.mem_singleton.mp hmem).symm

theorem readyForQuery_notMem_queryFrames (outcome : Except FrontendError SqlExecutionResult) :
    readyForQuery ∉ queryFrames text outcome := by
  cases outcome with
  | error error =>
      exact readyForQuery_notMem_queryAnswer (.error error)
  | ok result =>
      intro hmem
      rw [queryFrames, writeQueryResult, List.append_assoc, List.mem_append] at hmem
      have hanswer := readyForQuery_notMem_queryAnswer (.rows
        (announcedFields text result.response result.batches) (allTexts text result.batches)
        result.response.commandTag)
      rcases hmem with h | h
      · split at h
        · rw [List.mem_singleton] at h
          exact hanswer (h ▸ List.mem_cons_self)
        · cases h
      · exact hanswer (List.mem_cons_of_mem _ h)

/-- A query is answered as one just when rows come with their columns. -/
theorem queryAnswer_queryFrames_iff (outcome : Except FrontendError SqlExecutionResult) :
    QueryAnswer (queryFrames text outcome) ↔ Described text outcome := by
  cases outcome with
  | error error => exact iff_of_true (.error error) trivial
  | ok result =>
      rw [queryFrames, writeQueryResult, Described]
      by_cases hfields : announcedFields text result.response result.batches = []
      · simp only [hfields, ne_eq, not_true_eq_false, if_false, List.nil_append, true_imp_iff]
        cases hrows : allTexts text result.batches with
        | nil => exact iff_of_true (.command _) rfl
        | cons texts rows =>
            refine iff_of_false (fun h => ?_) (by simp)
            -- The first frame is a data row.
            have hhead : ∀ answer, QueryAnswer answer → ∀ frame ∈ answer.head?,
                frame.messageType ≠ 'D'.toUInt8 := by
              intro answer h frame hframe
              cases h <;> obtain rfl := Option.some.inj hframe <;> simp <;> decide
            exact hhead _ h _ rfl rfl
      · simp only [hfields, ne_eq, not_false_eq_true, if_true, false_imp_iff, iff_true]
        exact .rows _ _ _

/-- The first end of a query parts a list in one way only. -/
theorem eq_of_append_cons {frame : Frame} {a b s t : List Frame} (ha : frame ∉ a) (hb : frame ∉ b)
    (h : a ++ frame :: s = b ++ frame :: t) : a = b ∧ s = t := by
  induction a generalizing b with
  | nil =>
      cases b with
      | nil => exact ⟨rfl, List.tail_eq_of_cons_eq h⟩
      | cons x b =>
          obtain ⟨rfl, -⟩ := List.cons.inj h
          exact absurd List.mem_cons_self hb
  | cons x a ih =>
      cases b with
      | nil =>
          obtain ⟨rfl, -⟩ := List.cons.inj h
          exact absurd List.mem_cons_self ha
      | cons y b =>
          obtain ⟨rfl, htail⟩ := List.cons.inj h
          obtain ⟨rfl, hst⟩ := ih (fun hmem => ha (List.mem_cons_of_mem _ hmem))
            (fun hmem => hb (List.mem_cons_of_mem _ hmem)) htail
          exact ⟨rfl, hst⟩

/-! ## Counting -/

/-- The `Sync`s up to the end. -/
def syncs : List Frame → ℕ
  | [] => 0
  | message :: messages =>
      if message.messageType = 'X'.toUInt8 then 0
      else if message.messageType = 'S'.toUInt8 then syncs messages + 1
      else syncs messages

/-- The types that the loop and the protocol tell apart. -/
theorem type_of_isExtended {message : Frame} (h : isExtended message = true) :
    ∀ c ∈ ['Q', 'X', 'S'], message.messageType ≠ c.toUInt8 := by
  rw [isExtended, List.any_eq_true] at h
  obtain ⟨c, hc, h⟩ := h
  rw [decide_eq_true_eq] at h
  have hapart : ∀ c ∈ ['P', 'B', 'D', 'E', 'C', 'H'], ∀ d ∈ ['Q', 'X', 'S'], c.toUInt8 ≠ d.toUInt8 := by
    intro c hc d hd
    fin_cases hc <;> fin_cases hd <;> decide
  rw [h]
  exact hapart c hc

/-- A run leaves the counts to its `Sync`. -/
theorem requests_run {run messages : List Frame} {sync : Frame}
    (hrun : ∀ message ∈ run, isExtended message = true) (hsync : sync.messageType = 'S'.toUInt8) :
    requests (run ++ sync :: messages) = requests messages + 1 ∧ 0 < syncs (run ++ sync :: messages) := by
  have hterminate : sync.messageType ≠ 'X'.toUInt8 := by
    rw [hsync]
    decide
  induction run with
  | nil =>
      rw [List.nil_append, requests, if_neg hterminate, if_pos (.inr hsync), syncs, if_neg hterminate,
        if_pos hsync]
      exact ⟨rfl, Nat.succ_pos _⟩
  | cons message run ih =>
      have htype := type_of_isExtended (hrun message List.mem_cons_self)
      simp only [List.forall_mem_cons] at htype
      obtain ⟨hquery, hend, hsync', -⟩ := htype
      rw [List.cons_append, requests, if_neg hend, if_neg (not_or.mpr ⟨hquery, hsync'⟩), syncs, if_neg hend,
        if_neg hsync']
      exact ih fun message h => hrun message (List.mem_cons_of_mem _ h)

/-- In step, every request has its `ReadyForQuery`. -/
theorem count_of_inStep {messages output : List Frame} (h : InStep messages output) :
    output.count readyForQuery = requests messages := by
  induction h with
  | done => rfl
  | terminate message messages htype =>
      rw [requests, if_pos htype]
      rfl
  | query message messages answer output htype hanswer hrest ih =>
      have hterminate : message.messageType ≠ 'X'.toUInt8 := by
        rw [htype]
        decide
      rw [requests, if_neg hterminate, if_pos (.inl htype), List.count_append, List.count_cons_self, ih,
        List.count_eq_zero_of_not_mem (readyForQuery_notMem_queryAnswer hanswer), Nat.zero_add]
  | run run sync messages answer output hrun hsync herrors hready hrest ih =>
      rw [(requests_run hrun hsync).1, List.count_append, List.count_cons_self, ih,
        List.count_eq_zero_of_not_mem hready, Nat.zero_add]
  | single message messages output error htype hrun hrest ih =>
      simp only [List.forall_mem_cons] at htype
      obtain ⟨hquery, hend, hsync, -⟩ := htype
      have herror : errorResponse error ≠ readyForQuery := ne_readyForQuery (by simp; decide)
      rw [requests, if_neg hend, if_neg (not_or.mpr ⟨hquery, hsync⟩), List.count_cons_of_ne herror, ih]

/-- The loop leaves every `Sync` without one. -/
theorem count_serveLoop_le {messages : List Frame} (h : ∀ message ∈ messages, WellFramed message) (state : σ) :
    (serveLoop text handler state (bytesOf messages)).1.count readyForQuery + syncs messages ≤
      requests messages := by
  induction messages generalizing state with
  | nil =>
      rw [bytesOf, List.flatMap_nil, serveLoop]
      exact Nat.zero_le _
  | cons message messages ih =>
      have hframed := h message List.mem_cons_self
      have ih := ih fun message hmem => h message (List.mem_cons_of_mem _ hmem)
      by_cases hend : message.messageType = 'X'.toUInt8
      · rw [serveLoop_terminate hframed hend, syncs, if_pos hend]
        exact Nat.zero_le _
      · rw [syncs, if_neg hend, requests, if_neg hend]
        by_cases hquery : message.messageType = 'Q'.toUInt8
        · have hsync : message.messageType ≠ 'S'.toUInt8 := by
            rw [hquery]
            decide
          rw [if_neg hsync, if_pos (.inl hquery)]
          cases hsql : decodeCstring message.payload with
          | error error =>
              have hle := ih state
              rw [serveLoop_failed hframed hquery hsql]
              show 0 + _ ≤ _
              omega
          | ok sql =>
              have hle := ih (runQuery handler state sql).2
              rw [serveLoop_query hframed hquery hsql, List.count_append, List.count_cons_self,
                List.count_eq_zero_of_not_mem (readyForQuery_notMem_queryFrames _)]
              omega
        · have herror : errorResponse (.unsupportedProtocolMessage "unsupported frontend protocol message") ≠
              readyForQuery := ne_readyForQuery (by simp; decide)
          have hle := ih state
          rw [serveLoop_other hframed hquery hend, List.count_cons_of_ne herror]
          by_cases hsync : message.messageType = 'S'.toUInt8
          · rw [if_pos hsync, if_pos (.inr hsync)]
            omega
          · rw [if_neg hsync, if_neg (not_or.mpr ⟨hquery, hsync⟩)]
            exact hle

theorem syncs_of_endsInSync {messages : List Frame} (h : endsInSync messages = true) : 0 < syncs messages := by
  rw [endsInSync] at h
  cases hrest : messages.dropWhile isExtended with
  | nil =>
      rw [hrest] at h
      cases h
  | cons sync rest =>
      rw [hrest] at h
      have hrun : ∀ message ∈ messages.takeWhile isExtended, isExtended message = true :=
        fun message hmem => List.mem_takeWhile_imp hmem
      rw [← List.takeWhile_append_dropWhile (p := isExtended) (l := messages), hrest]
      exact (requests_run hrun (by simpa using h)).2

/-! ## In step exactly then -/

/-- What it takes to be in step with a first message. -/
theorem inStep_cons {message : Frame} {messages output : List Frame}
    (h : InStep (message :: messages) output) (hsyncs : syncs (message :: messages) = 0) :
    message.messageType = 'X'.toUInt8 ∨
      (message.messageType = 'Q'.toUInt8 ∧ ∃ answer later, QueryAnswer answer ∧ InStep messages later ∧
        output = answer ++ readyForQuery :: later) ∨
      (message.messageType ≠ 'Q'.toUInt8 ∧ ∃ error later, InStep messages later ∧
        output = errorResponse error :: later) := by
  generalize hall : message :: messages = all at h
  cases h with
  | done => cases hall
  | terminate message' messages' htype =>
      obtain ⟨rfl, rfl⟩ := List.cons.inj hall
      exact .inl htype
  | query message' messages' answer later htype hanswer hrest =>
      obtain ⟨rfl, rfl⟩ := List.cons.inj hall
      exact .inr (.inl ⟨htype, answer, later, hanswer, hrest, rfl⟩)
  | run run sync messages' answer later hrun hsync herrors hready hrest =>
      have hpos : 0 < syncs (run ++ sync :: messages') := (requests_run hrun hsync).2
      rw [← hall, hsyncs] at hpos
      exact absurd hpos (lt_irrefl 0)
  | single message' messages' later error htype hrun hrest =>
      obtain ⟨rfl, rfl⟩ := List.cons.inj hall
      exact .inr (.inr ⟨htype 'Q' (by simp), error, later, hrest, rfl⟩)

/-- A connection in step has had plain messages only. -/
theorem plain_of_inStep {messages : List Frame} (h : ∀ message ∈ messages, WellFramed message) {state : σ}
    (hstep : InStep messages (serveLoop text handler state (bytesOf messages)).1)
    (hsyncs : syncs messages = 0) : Plain text handler state messages := by
  induction messages generalizing state with
  | nil => trivial
  | cons message messages ih =>
      have hframed := h message List.mem_cons_self
      have ih := @ih fun message hmem => h message (List.mem_cons_of_mem _ hmem)
      have hcons := inStep_cons hstep hsyncs
      intro hend
      rw [syncs, if_neg hend] at hsyncs
      by_cases hsync : message.messageType = 'S'.toUInt8
      · rw [if_pos hsync] at hsyncs
        cases hsyncs
      · rw [if_neg hsync] at hsyncs
        refine ⟨hsync, ?_⟩
        by_cases hquery : message.messageType = 'Q'.toUInt8
        · rw [if_pos hquery]
          rcases hcons with h | ⟨-, answer, later, hanswer, hlater, houtput⟩ | ⟨h, -⟩
          · exact absurd h hend
          · cases hsql : decodeCstring message.payload with
            | error error =>
                rw [serveLoop_failed hframed hquery hsql] at houtput
                exact absurd houtput (by simp)
            | ok sql =>
                rw [serveLoop_query hframed hquery hsql] at houtput
                obtain ⟨hframes, hrest⟩ := eq_of_append_cons (readyForQuery_notMem_queryFrames _)
                  (readyForQuery_notMem_queryAnswer hanswer) houtput
                refine ⟨sql, rfl, (queryAnswer_queryFrames_iff _).mp (hframes ▸ hanswer), ih ?_ hsyncs⟩
                rw [hrest]
                exact hlater
          · exact absurd hquery h
        · rw [if_neg hquery]
          rcases hcons with h | ⟨h, -⟩ | ⟨-, error, later, hlater, houtput⟩
          · exact absurd h hend
          · exact absurd h hquery
          · rw [serveLoop_other hframed hquery hend] at houtput
            obtain ⟨-, rfl⟩ := List.cons.inj houtput
            exact ih hlater hsyncs

theorem syncs_of_plain {messages : List Frame} {state : σ} (h : Plain text handler state messages) :
    syncs messages = 0 := by
  induction messages generalizing state with
  | nil => rfl
  | cons message messages ih =>
      rw [syncs]
      by_cases hend : message.messageType = 'X'.toUInt8
      · exact if_pos hend
      · obtain ⟨hsync, hrest⟩ := h hend
        rw [if_neg hend, if_neg hsync]
        by_cases hquery : message.messageType = 'Q'.toUInt8
        · rw [if_pos hquery] at hrest
          obtain ⟨sql, -, -, hrest⟩ := hrest
          exact ih hrest
        · rw [if_neg hquery] at hrest
          exact ih hrest

/-- Plain messages are answered in step, and a `Terminate` ends the connection. -/
theorem serves_of_plain {messages : List Frame} (h : ∀ message ∈ messages, WellFramed message) {state : σ}
    (hplain : Plain text handler state messages) : Serves text handler state messages := by
  induction messages generalizing state with
  | nil =>
      refine ⟨?_, by simp⟩
      rw [bytesOf, List.flatMap_nil, serveLoop]
      exact .done
  | cons message messages ih =>
      have hframed := h message List.mem_cons_self
      have ih := @ih fun message hmem => h message (List.mem_cons_of_mem _ hmem)
      have hsyncs := syncs_of_plain hplain
      by_cases hend : message.messageType = 'X'.toUInt8
      · rw [Serves, serveLoop_terminate hframed hend]
        exact ⟨.terminate _ _ hend, fun _ => rfl⟩
      · have htail : (∃ m ∈ message :: messages, m.messageType = 'X'.toUInt8) →
            ∃ m ∈ messages, m.messageType = 'X'.toUInt8 := by
          rintro ⟨m, hm, htype⟩
          rcases List.mem_cons.mp hm with rfl | hm
          · exact absurd htype hend
          · exact ⟨m, hm, htype⟩
        obtain ⟨hsync, hrest⟩ := hplain hend
        by_cases hquery : message.messageType = 'Q'.toUInt8
        · rw [if_pos hquery] at hrest
          obtain ⟨sql, hsql, hdescribed, hrest⟩ := hrest
          obtain ⟨hstep, hresult⟩ := ih hrest
          rw [Serves, serveLoop_query hframed hquery hsql]
          exact ⟨.query _ _ _ _ hquery ((queryAnswer_queryFrames_iff _).mpr hdescribed) hstep,
            fun hmem => hresult (htail hmem)⟩
        · rw [if_neg hquery] at hrest
          obtain ⟨hstep, hresult⟩ := ih hrest
          have htype : ∀ c ∈ ['Q', 'X', 'S'], message.messageType ≠ c.toUInt8 := by
            simp only [List.forall_mem_cons]
            exact ⟨hquery, hend, hsync, by simp⟩
          have hrun : ¬ (isExtended message = true ∧ endsInSync messages = true) := fun hrun =>
            (syncs_of_endsInSync hrun.2).ne' (syncs_of_plain hrest)
          rw [Serves, serveLoop_other hframed hquery hend]
          exact ⟨.single _ _ _ _ htype hrun hstep, fun hmem => hresult (htail hmem)⟩

/-- A connection stays in step just as long as its messages are plain; then it sends one `ReadyForQuery` for
every request. -/
theorem serves_iff (text : ArrowText) (handler : SqlRequestHandler σ) (state : σ) {messages : List Frame}
    (h : ∀ message ∈ messages, WellFramed message) :
    (Serves text handler state messages ↔ Plain text handler state messages) ∧
      (Plain text handler state messages →
        (serveLoop text handler state (bytesOf messages)).1.count readyForQuery = requests messages) := by
  refine ⟨⟨fun hserves => ?_, serves_of_plain h⟩, fun hplain => count_of_inStep (serves_of_plain h hplain).1⟩
  refine plain_of_inStep h hserves.1 ?_
  have hle := @count_serveLoop_le _ text handler _ h state
  rw [count_of_inStep hserves.1] at hle
  omega

end

/-! ## Queries, and a Sync -/

/-- A handler that answers every query with the same rows. -/
def Sample.sameRows : SqlRequestHandler Unit where
  execute _ _ := (.ok ⟨Sample.namedResult, Sample.namedBatches⟩, ())

/-- Two queries, the second one empty, and the end. -/
def Sample.twoQueries : List Frame :=
  [⟨'Q'.toUInt8, ofString "select" ++ [0]⟩, ⟨'Q'.toUInt8, ofString "" ++ [0]⟩, ⟨'X'.toUInt8, []⟩]

theorem serves_iff_twoQueries :
    Serves Sample.arrowText Sample.sameRows () Sample.twoQueries ∧
      (serveLoop Sample.arrowText Sample.sameRows () (bytesOf Sample.twoQueries)).1.count readyForQuery = 2 := by
  have hframed : ∀ message ∈ Sample.twoQueries, WellFramed message := by
    show ∀ message ∈ _, _ ≤ _
    decide +kernel
  have hplain : Plain Sample.arrowText Sample.sameRows () Sample.twoQueries := by
    refine fun _ => ⟨by decide, ?_⟩
    rw [if_pos (by decide)]
    refine ⟨"select", decodeCstring_append (by decide), fun h => absurd h (by decide +kernel), fun _ => ⟨by decide, ?_⟩⟩
    rw [if_pos (by decide)]
    exact ⟨"", decodeCstring_append (by decide), trivial, fun h => absurd rfl h⟩
  obtain ⟨hiff, hcount⟩ := serves_iff Sample.arrowText Sample.sameRows () hframed
  exact ⟨hiff.mpr hplain, (hcount hplain).trans (by decide)⟩

/-- A `Sync` alone is answered with an error and nothing else. -/
theorem not_serves_sync :
    (∀ message ∈ [(⟨'S'.toUInt8, []⟩ : Frame)], WellFramed message) ∧
      ¬ Serves Sample.arrowText Sample.sameRows () [⟨'S'.toUInt8, []⟩] := by
  have hframed : ∀ message ∈ [(⟨'S'.toUInt8, []⟩ : Frame)], WellFramed message := by
    show ∀ message ∈ _, _ ≤ _
    decide +kernel
  refine ⟨hframed, fun h => ?_⟩
  have hle := @count_serveLoop_le _ Sample.arrowText Sample.sameRows _ hframed ()
  rw [count_of_inStep h.1] at hle
  exact absurd hle (by decide)

end BrewDB.PgWire

import BrewDB.Common.Stream
import BrewDB.Config.ConfigSet
import BrewDB.Frontend.Connection
import BrewDB.Frontend.Startup

/-!
# A session

Reference: `brewdb-frontend/src/session.rs` and `auth.rs`, `PgWireCodec::serve_connection_io` of `pgwire.rs`, and
`PgWireSession` of `brewdb-bin/src/client.rs`.

The server opens a session for the user that a startup names, and runs the queries in it. The client starts up, sends
one query after the other and terminates; which query comes next, and whether one does, may depend on the results so
far. Each knows from the bytes themselves where what the other writes ends. Ids, which are drawn at random, and what a
session says about its transport and capabilities are left out.
-/

namespace BrewDB.PgWire

open BrewDB.Bytes BrewDB.Stream BrewDB.Config

/-! ## Opening a session -/

inductive AuthMethod where
  | trust
  | password
  | token
deriving DecidableEq, Repr

structure AuthContext where
  userName : String
  databaseName : Option String
  method : AuthMethod
  secret : Option String

structure AuthDecision where
  authenticated : Bool
  effectiveUser : String
  databaseName : Option String

/-- `allow`. -/
def AuthDecision.allow (context : AuthContext) : AuthDecision := ⟨true, context.userName, context.databaseName⟩

/-- `StaticAuthenticator::authenticate`. -/
def StaticAuthenticator.authenticate (context : AuthContext) : Except FrontendError AuthDecision :=
  match context.method with
  | .trust => .ok (.allow context)
  | .password | .token =>
      if context.secret.any (· ≠ "") then .ok (.allow context)
      else .error (.authenticationFailed "missing credentials")

structure ClientIdentity where
  userName : String
  databaseName : Option String

structure ClientDefaults where
  catalogName : Option String
  databaseName : Option String

/-- `ClientContext`, of an opened session. -/
structure ClientContext where
  identity : ClientIdentity
  defaults : ClientDefaults
  settings : ConfigSet

/-- `QueryContext`. -/
structure QueryContext where
  userName : String
  databaseName : Option String
  catalogName : Option String
  settings : ConfigSet

/-- `query_context`. -/
def ClientContext.queryContext (context : ClientContext) : QueryContext :=
  ⟨context.identity.userName, context.identity.databaseName, context.defaults.catalogName, context.settings⟩

structure FrontendService where
  systemSettings : ConfigSet

/-- `open_session`. -/
def FrontendService.openSession (service : FrontendService) (auth : AuthContext) (defaults : ClientDefaults) :
    Except FrontendError ClientContext := do
  let decision ← StaticAuthenticator.authenticate auth
  return ⟨⟨decision.effectiveUser, decision.databaseName⟩,
    { defaults with databaseName := decision.databaseName }, service.systemSettings⟩

/-- `auth_context`. -/
def authContext (userName : String) (databaseName : Option String) : AuthContext :=
  ⟨userName, databaseName, .trust, none⟩

/-- `client_defaults`. -/
def clientDefaults (defaults : ClientDefaults) (databaseName : Option String) : ClientDefaults :=
  match databaseName with
  | some databaseName => { defaults with databaseName := some databaseName }
  | none => defaults

/-- What executes the requests of all sessions. -/
structure RequestHandler (σ : Type) where
  execute : σ → QueryContext → String → Except FrontendError SqlExecutionResult × σ

/-- The requests of one session. -/
def RequestHandler.inSession {σ : Type} (handler : RequestHandler σ) (context : ClientContext) :
    SqlRequestHandler σ where
  execute state sql := handler.execute state context.queryContext sql

/-- `write_authentication_ok`. -/
def authenticationOk : Frame := ⟨'R'.toUInt8, ofInt32 0⟩

/-! ## The client -/

namespace Client

/-- Take in a frame of `read_until_ready` other than `ReadyForQuery`. -/
def readyFrame (frame : Frame) : Except ClientError Unit :=
  if frame.messageType = 'R'.toUInt8 then
    if frame.payload.length ≠ 4 then .error (.protocol "authentication response had an invalid payload")
    else if toInt32 frame.payload ≠ 0 then
      .error (.protocol ("unsupported authentication method " ++ toString (toInt32 frame.payload)))
    else .ok ()
  else if frame.messageType = 'N'.toUInt8 then .ok ()
  else if frame.messageType = 'E'.toUInt8 then
    .error (.server (PgWire.parseError frame.payload).message (PgWire.parseError frame.payload).code)
  else .error (.protocol ("unexpected startup message `" ++ (Char.ofNat frame.messageType.toNat).toString ++ "`"))

/-- `read_until_ready`. -/
def readUntilReady (stream : List UInt8) : Except ClientError Unit × List UInt8 :=
  match _h : PgWire.readFrame stream with
  | (.error error, rest) => (.error error, rest)
  | (.ok frame, rest) =>
      if frame.messageType = 'Z'.toUInt8 then (.ok (), rest)
      else
        match readyFrame frame with
        | .error error => (.error error, rest)
        | .ok () => readUntilReady rest
termination_by stream.length
decreasing_by exact length_readFrame _h

/-- `write_query_message`. -/
def queryMessage (sql : String) : Frame := ⟨'Q'.toUInt8, ofString sql ++ [0]⟩

/-- `write_terminate_message`. -/
def terminateMessage : Frame := ⟨'X'.toUInt8, []⟩

/-- What a client does: whom it names at the startup, and the next query after the results so far. -/
structure Script where
  user : String
  database : Option String
  next : List (Except ClientError QueryResult) → Option String

end Client

/-! ## What the server opens -/

/-- How `read_startup` ends. -/
def startupOutcome (stream : List UInt8) : Checked.Outcome FrontendError Server.Startup :=
  (Server.readStartup stream).outcome

section

variable {σ : Type} (text : ArrowText) (service : FrontendService) (defaults : ClientDefaults)
  (handler : RequestHandler σ) (script : Client.Script)

/-- The frames in front of the loop. -/
def greeting : List Frame := [authenticationOk, readyForQuery]

/-- The session that a startup opens. -/
def sessionOf (user : String) (database : Option String) : Except FrontendError ClientContext :=
  service.openSession (authContext user database) (clientDefaults defaults database)

/-! ## Calling the handler directly -/

/-- What a client gets to see of an outcome. -/
def clientView : Except FrontendError SqlExecutionResult → Except ClientError QueryResult
  | .ok result => .ok ⟨(announcedFields text result.response result.batches).map ResultField.name,
      allTexts text result.batches, result.response.commandTag⟩
  | .error error => .error (.server error.toString (some error.errorCode.text))

/-- The session of the client's user. -/
def scriptContext : ClientContext :=
  ⟨⟨script.user, script.database⟩, ⟨defaults.catalogName, script.database⟩, service.systemSettings⟩

/-- The outcome of a query of the client. -/
def answer (state : σ) (sql : String) : Except FrontendError SqlExecutionResult × σ :=
  runQuery (handler.inSession (scriptContext service defaults script)) state sql

/-- The results, and what the handler is left with, after this many queries that are run one by one without
anything in between. -/
def direct (state : σ) : ℕ → List (Except ClientError QueryResult) × σ
  | 0 => ([], state)
  | count + 1 =>
      let before := direct state count
      match script.next before.1 with
      | none => before
      | some sql =>
          let outcome := answer service defaults handler script before.2 sql
          (before.1 ++ [clientView text outcome.1], outcome.2)

/-- An outcome that fits into frames. -/
def Sends : Except FrontendError SqlExecutionResult → Prop
  | .ok result => Sendable text result.response result.batches
  | .error error => ZeroFree error.toString ∧ (errorResponse error).Fits

/-- What the client names and asks, and what it is answered, can be written on the wire. -/
structure Speakable (state : σ) : Prop where
  user : ZeroFree script.user
  database : ∀ name ∈ script.database, ZeroFree name
  startup : (Client.startupPayload script.user script.database).length + 4 ≤ 16 * 1024 * 1024
  queries : ∀ count sql, script.next (direct text service defaults handler script state count).1 = some sql →
    ZeroFree sql ∧ WellFramed (Client.queryMessage sql) ∧
      Sends text (answer service defaults handler script (direct text service defaults handler script state count).2
        sql).1

/-! ## What each read takes -/

section

variable {text service defaults handler script} {state : σ}

theorem serveMessage_queryMessage {handler : SqlRequestHandler σ} {sql : String} (h : ZeroFree sql) (state : σ) :
    serveMessage text handler state (Client.queryMessage sql) =
      .answered (queryFrames text (runQuery handler state sql).1 ++ [readyForQuery])
        (runQuery handler state sql).2 := by
  have htype : (Client.queryMessage sql).messageType = 'Q'.toUInt8 := rfl
  rw [serveMessage, if_pos htype, Client.queryMessage, decodeCstring_append h]

theorem serveMessage_terminateMessage {handler : SqlRequestHandler σ} (state : σ) :
    serveMessage text handler state Client.terminateMessage = .terminated := by
  have htype : Client.terminateMessage.messageType ≠ 'Q'.toUInt8 := by decide
  have hterminate : Client.terminateMessage.messageType = 'X'.toUInt8 := rfl
  rw [serveMessage, if_neg htype, if_pos hterminate]

theorem sessionOf_eq (user : String) (database : Option String) : sessionOf service defaults user database =
    .ok ⟨⟨user, database⟩, ⟨defaults.catalogName, database⟩, service.systemSettings⟩ := by
  cases database <;> rfl

theorem wellFramed_terminateMessage : WellFramed Client.terminateMessage := by
  rw [WellFramed]
  decide

/-- A well-framed message is settled by its bytes. -/
theorem settled_readMessage {message : Frame} (h : WellFramed message) :
    Settled readMessage message.bytes fun more => .ok (message, more) :=
  fun more => readMessage_bytes h more

/-- The startup is settled by its bytes. -/
theorem settled_startup (h : Speakable text service defaults handler script state) :
    Settled startupOutcome (Client.startupMessage script.user script.database) fun more =>
      .value ⟨script.user, script.database, more, []⟩ := by
  intro more
  have hread := returns_readStartup h.user h.database h.startup [] more
  rw [List.flatMap_nil, List.nil_append, List.map_nil, List.flatten_nil] at hread
  exact hread

/-- The greeting is settled by its bytes. -/
theorem settled_greeting : Settled Client.readUntilReady (bytesOf greeting) fun more => (.ok (), more) := by
  intro more
  have hok : authenticationOk.Fits := show 4 + 4 < 2 ^ 31 by decide
  have hready : readyForQuery.Fits := show 1 + 4 < 2 ^ 31 by decide
  have hbytes : bytesOf greeting ++ more = authenticationOk.bytes ++ (readyForQuery.bytes ++ more) := by
    rw [greeting, bytesOf, List.flatMap_cons, List.flatMap_singleton, List.append_assoc]
  have hlast : Client.readUntilReady (readyForQuery.bytes ++ more) = (.ok (), more) := by
    rw [Client.readUntilReady]
    split
    · rename_i error rest hread
      rw [readFrame_bytes hready] at hread
      cases hread
    · rename_i frame rest hread
      rw [readFrame_bytes hready] at hread
      obtain ⟨hframe, rfl⟩ := Prod.mk.inj hread
      obtain rfl := Except.ok.inj hframe
      exact if_pos rfl
  rw [hbytes, Client.readUntilReady]
  split
  · rename_i error rest hread
    rw [readFrame_bytes hok] at hread
    cases hread
  · rename_i frame rest hread
    rw [readFrame_bytes hok] at hread
    obtain ⟨hframe, rfl⟩ := Prod.mk.inj hread
    obtain rfl := Except.ok.inj hframe
    have htake : Client.readyFrame authenticationOk = .ok () := by decide
    rw [if_neg (by decide), htake]
    exact hlast

/-- The answer to a query is settled by its bytes. -/
theorem settled_answer {outcome : Except FrontendError SqlExecutionResult} (h : Sends text outcome) :
    Settled readQueryResponse (bytesOf (queryFrames text outcome ++ [readyForQuery])) fun more =>
      (clientView text outcome, more) := by
  intro more
  cases outcome with
  | error error => exact readQueryResponse_error h.1 h.2 more
  | ok result => exact readQueryResponse_result h more

end

end

end BrewDB.PgWire

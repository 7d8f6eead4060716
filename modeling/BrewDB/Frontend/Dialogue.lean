import BrewDB.Frontend.Session

/-!
# Client and server

Reference: `PgWireCodec::serve_connection_io` of `brewdb-frontend/src/pgwire.rs` and `PgWireSession` of
`brewdb-bin/src/client.rs`.

The two take turns: both block on their reads, and the bytes between them arrive one by one. The results that the
client gets are those of running its queries directly, one after the other, whatever the order of the steps, and no
run stops before the session is over. What a startup writes is sent at its end, which only a client that asks for
encryption could tell.
-/

namespace BrewDB.PgWire

open BrewDB.Bytes BrewDB.Stream BrewDB.Config

/-! ## The dialogue -/

/-- Where the client stands. -/
inductive Client.Phase where
  | start
  | awaitReady
  | idle
  | awaitResponse
  | finished
  | failed (error : ClientError)

/-- Where the server stands; `closed` is the outcome of `serve_connection_io`, if it did not panic. -/
inductive ServerPhase (σ : Type) where
  | startup (state : σ)
  | serving (context : ClientContext) (state : σ)
  | closed (outcome : Option (Except FrontendError Unit))

/-- Client and server, and the bytes between them. -/
structure Dialogue (σ : Type) where
  client : Client.Phase
  results : List (Except ClientError QueryResult)
  toServer : Pipe UInt8
  toClient : Pipe UInt8
  server : ServerPhase σ

section

variable {σ : Type} (text : ArrowText) (service : FrontendService) (defaults : ClientDefaults)
  (handler : RequestHandler σ) (script : Client.Script)

/-- One step of the two. Who is done closes. -/
inductive Dialogue.Step : Dialogue σ → Dialogue σ → Prop
  | deliverToServer {client : Client.Phase} {results : List (Except ClientError QueryResult)}
      {toServer toServer' toClient : Pipe UInt8} {server : ServerPhase σ} (h : toServer.Delivers toServer') :
      Step ⟨client, results, toServer, toClient, server⟩ ⟨client, results, toServer', toClient, server⟩
  | deliverToClient {client : Client.Phase} {results : List (Except ClientError QueryResult)}
      {toServer toClient toClient' : Pipe UInt8} {server : ServerPhase σ} (h : toClient.Delivers toClient') :
      Step ⟨client, results, toServer, toClient, server⟩ ⟨client, results, toServer, toClient', server⟩
  | clientStarts {results : List (Except ClientError QueryResult)} {toServer toClient : Pipe UInt8}
      {server : ServerPhase σ} :
      Step ⟨.start, results, toServer, toClient, server⟩
        ⟨.awaitReady, results, toServer.send (Client.startupMessage script.user script.database), toClient, server⟩
  | clientReady {results : List (Except ClientError QueryResult)} {toServer toClient : Pipe UInt8}
      {server : ServerPhase σ} {rest : List UInt8}
      (h : toClient.Reads Client.readUntilReady fun more => (.ok (), rest ++ more)) :
      Step ⟨.awaitReady, results, toServer, toClient, server⟩ ⟨.idle, results, toServer, toClient.leave rest, server⟩
  | clientFails {results : List (Except ClientError QueryResult)} {toServer toClient : Pipe UInt8}
      {server : ServerPhase σ} {error : ClientError} {rest : List UInt8}
      (h : toClient.Reads Client.readUntilReady fun more => (.error error, rest ++ more)) :
      Step ⟨.awaitReady, results, toServer, toClient, server⟩
        ⟨.failed error, results, toServer.close, toClient.leave rest, server⟩
  | clientSends {results : List (Except ClientError QueryResult)} {toServer toClient : Pipe UInt8}
      {server : ServerPhase σ} {sql : String} (h : script.next results = some sql) :
      Step ⟨.idle, results, toServer, toClient, server⟩
        ⟨.awaitResponse, results, toServer.send (Client.queryMessage sql).bytes, toClient, server⟩
  | clientReceives {results : List (Except ClientError QueryResult)} {toServer toClient : Pipe UInt8}
      {server : ServerPhase σ} {result : Except ClientError QueryResult} {rest : List UInt8}
      (h : toClient.Reads readQueryResponse fun more => (result, rest ++ more)) :
      Step ⟨.awaitResponse, results, toServer, toClient, server⟩
        ⟨.idle, results ++ [result], toServer, toClient.leave rest, server⟩
  | clientEnds {results : List (Except ClientError QueryResult)} {toServer toClient : Pipe UInt8}
      {server : ServerPhase σ} (h : script.next results = none) :
      Step ⟨.idle, results, toServer, toClient, server⟩
        ⟨.finished, results, (toServer.send Client.terminateMessage.bytes).close, toClient, server⟩
  | serverStarts {client : Client.Phase} {results : List (Except ClientError QueryResult)}
      {toServer toClient : Pipe UInt8} {state : σ} {user : String} {database : Option String}
      {written rest : List UInt8} {context : ClientContext}
      (h : toServer.Reads startupOutcome fun more => .value ⟨user, database, rest ++ more, written⟩)
      (hsession : sessionOf service defaults user database = .ok context) :
      Step ⟨client, results, toServer, toClient, .startup state⟩
        ⟨client, results, toServer.leave rest, toClient.send (written ++ bytesOf greeting), .serving context state⟩
  | serverRefuses {client : Client.Phase} {results : List (Except ClientError QueryResult)}
      {toServer toClient : Pipe UInt8} {state : σ} {user : String} {database : Option String}
      {written rest : List UInt8} {error : FrontendError}
      (h : toServer.Reads startupOutcome fun more => .value ⟨user, database, rest ++ more, written⟩)
      (hsession : sessionOf service defaults user database = .error error) :
      Step ⟨client, results, toServer, toClient, .startup state⟩
        ⟨client, results, toServer.leave rest, (toClient.send written).close, .closed (some (.error error))⟩
  | startupFails {client : Client.Phase} {results : List (Except ClientError QueryResult)}
      {toServer toClient : Pipe UInt8} {state : σ} {error : FrontendError}
      (h : toServer.Reads startupOutcome fun _ => .error error) :
      Step ⟨client, results, toServer, toClient, .startup state⟩
        ⟨client, results, toServer, toClient.close, .closed (some (.error error))⟩
  | startupPanics {client : Client.Phase} {results : List (Except ClientError QueryResult)}
      {toServer toClient : Pipe UInt8} {state : σ} (h : toServer.Reads startupOutcome fun _ => .panic) :
      Step ⟨client, results, toServer, toClient, .startup state⟩
        ⟨client, results, toServer, toClient.close, .closed none⟩
  | serverReads {client : Client.Phase} {results : List (Except ClientError QueryResult)}
      {toServer toClient : Pipe UInt8} {context : ClientContext} {state : σ} {message : Frame} {rest : List UInt8}
      (h : toServer.Reads readMessage fun more => .ok (message, rest ++ more)) :
      Step ⟨client, results, toServer, toClient, .serving context state⟩
        (match serveMessage text (handler.inSession context) state message with
        | .answered frames state =>
            ⟨client, results, toServer.leave rest, toClient.send (bytesOf frames), .serving context state⟩
        | .terminated => ⟨client, results, toServer.leave rest, toClient.close, .closed (some (.ok ()))⟩
        | .failed error => ⟨client, results, toServer.leave rest, toClient.close, .closed (some (.error error))⟩)
  | serverFails {client : Client.Phase} {results : List (Except ClientError QueryResult)}
      {toServer toClient : Pipe UInt8} {context : ClientContext} {state : σ} {error : FrontendError}
      (h : toServer.Reads readMessage fun _ => .error error) :
      Step ⟨client, results, toServer, toClient, .serving context state⟩
        ⟨client, results, toServer, toClient.close, .closed (some (.error error))⟩

/-- Before anything is written. -/
def Dialogue.initial (state : σ) : Dialogue σ := ⟨.start, [], .empty, .empty, .startup state⟩

/-- What runs reach. -/
def Dialogue.Reaches (state : σ) (s : Dialogue σ) : Prop :=
  Relation.ReflTransGen (Dialogue.Step text service defaults handler script) (.initial state) s

/-! ## The stages of a dialogue -/

/-- The script asks this many queries. -/
def Asks (state : σ) (count : ℕ) : Prop :=
  ∀ earlier < count, script.next (direct text service defaults handler script state earlier).1 ≠ none

/-- The states of a dialogue, in the turn they belong to: at most one of the two has written something that the other
has not read. -/
inductive Dialogue.Stage (state : σ) : ℕ → Dialogue σ → Prop
  | start : Stage state 0 ⟨.start, [], .empty, .empty, .startup state⟩
  | startup (pipe : Pipe UInt8) (h : pipe.items = Client.startupMessage script.user script.database)
      (hopen : pipe.closed = false) :
      Stage state 1 ⟨.awaitReady, [], pipe, .empty, .startup state⟩
  | greeting (pipe : Pipe UInt8) (h : pipe.items = bytesOf greeting) (hopen : pipe.closed = false) :
      Stage state 2 ⟨.awaitReady, [], .empty, pipe, .serving (scriptContext service defaults script) state⟩
  | idle (count : ℕ) (hasks : Asks text service defaults handler script state count) :
      Stage state (3 * count + 3) ⟨.idle, (direct text service defaults handler script state count).1, .empty, .empty,
        .serving (scriptContext service defaults script) (direct text service defaults handler script state count).2⟩
  | asked (count : ℕ) (hasks : Asks text service defaults handler script state count) (sql : String)
      (pipe : Pipe UInt8) (hnext : script.next (direct text service defaults handler script state count).1 = some sql)
      (h : pipe.items = (Client.queryMessage sql).bytes) (hopen : pipe.closed = false) :
      Stage state (3 * count + 4) ⟨.awaitResponse, (direct text service defaults handler script state count).1, pipe, .empty,
        .serving (scriptContext service defaults script) (direct text service defaults handler script state count).2⟩
  | answered (count : ℕ) (hasks : Asks text service defaults handler script state count) (sql : String)
      (pipe : Pipe UInt8) (hnext : script.next (direct text service defaults handler script state count).1 = some sql)
      (h : pipe.items = bytesOf (queryFrames text (answer service defaults handler script
        (direct text service defaults handler script state count).2 sql).1 ++ [readyForQuery]))
      (hopen : pipe.closed = false) :
      Stage state (3 * count + 5) ⟨.awaitResponse, (direct text service defaults handler script state count).1, .empty, pipe,
        .serving (scriptContext service defaults script)
          (answer service defaults handler script (direct text service defaults handler script state count).2 sql).2⟩
  | ending (count : ℕ) (hasks : Asks text service defaults handler script state count) (pipe : Pipe UInt8)
      (hnext : script.next (direct text service defaults handler script state count).1 = none)
      (h : pipe.items = Client.terminateMessage.bytes) :
      Stage state (3 * count + 4) ⟨.finished, (direct text service defaults handler script state count).1, pipe, .empty,
        .serving (scriptContext service defaults script) (direct text service defaults handler script state count).2⟩
  | ended (count : ℕ) (hasks : Asks text service defaults handler script state count) (pipe : Pipe UInt8)
      (hnext : script.next (direct text service defaults handler script state count).1 = none) (h : pipe.items = []) :
      Stage state (3 * count + 5) ⟨.finished, (direct text service defaults handler script state count).1, pipe,
        Pipe.empty.close, .closed (some (.ok ()))⟩

/-- What is in flight. -/
def Dialogue.inFlight (s : Dialogue σ) : ℕ := s.toServer.inFlight.length + s.toClient.inFlight.length

section

variable {text service defaults handler script} {state : σ}

/-! ### What each read takes -/

/-- How the reading of a message ends. -/
def tookMessage (message : Frame) (rest : List UInt8) : Except FrontendError (Frame × List UInt8) :=
  .ok (message, rest)

theorem tookMessage_inj (a b : Frame) (r t : List UInt8) (h : tookMessage a r = tookMessage b t) : a = b ∧ r = t :=
  Prod.mk.inj (Except.ok.inj h)

theorem reads_message {pipe : Pipe UInt8} {message message' : Frame} {rest : List UInt8}
    (hitems : pipe.items = message.bytes) (hframed : WellFramed message)
    (h : pipe.Reads readMessage fun more => .ok (message', rest ++ more)) :
    message' = message ∧ (pipe.leave rest).items = [] :=
  Pipe.Reads.takes_whole tookMessage tookMessage_inj hitems (settled_readMessage hframed) h

theorem not_reads_message_error {pipe : Pipe UInt8} {message : Frame} {error : FrontendError}
    (hitems : pipe.items = message.bytes) (hframed : WellFramed message) :
    ¬ pipe.Reads readMessage fun _ => .error error := by
  intro h
  have heq : .error error = tookMessage message [] := h.eq_of_items tookMessage hitems (settled_readMessage hframed)
  cases heq

theorem not_reads_message_empty {message : Frame} {rest : List UInt8} :
    ¬ Pipe.empty.Reads readMessage fun more => .ok (message, rest ++ more) :=
  Pipe.not_reads_empty tookMessage tookMessage_inj (List.cons_ne_nil _ _)
    (settled_readMessage wellFramed_terminateMessage)

theorem not_reads_message_error_empty {error : FrontendError} :
    ¬ Pipe.empty.Reads readMessage fun _ => .error error :=
  Pipe.not_reads_empty_const tookMessage nofun (settled_readMessage wellFramed_terminateMessage)

theorem reads_greeting {pipe : Pipe UInt8} {outcome : Except ClientError Unit} {rest : List UInt8}
    (hitems : pipe.items = bytesOf greeting)
    (h : pipe.Reads Client.readUntilReady fun more => (outcome, rest ++ more)) :
    outcome = .ok () ∧ (pipe.leave rest).items = [] :=
  Pipe.Reads.takes_whole Prod.mk (fun _ _ _ _ heq => Prod.mk.inj heq) hitems settled_greeting h

theorem not_reads_greeting_empty {outcome : Except ClientError Unit} {rest : List UInt8} :
    ¬ Pipe.empty.Reads Client.readUntilReady fun more => (outcome, rest ++ more) :=
  Pipe.not_reads_empty Prod.mk (fun _ _ _ _ heq => Prod.mk.inj heq) (List.cons_ne_nil _ _) settled_greeting

theorem reads_answer {pipe : Pipe UInt8} {outcome : Except FrontendError SqlExecutionResult}
    {result : Except ClientError QueryResult} {rest : List UInt8} (hsends : Sends text outcome)
    (hitems : pipe.items = bytesOf (queryFrames text outcome ++ [readyForQuery]))
    (h : pipe.Reads readQueryResponse fun more => (result, rest ++ more)) :
    result = clientView text outcome ∧ (pipe.leave rest).items = [] :=
  Pipe.Reads.takes_whole Prod.mk (fun _ _ _ _ heq => Prod.mk.inj heq) hitems (settled_answer hsends) h

theorem bytesOf_answer_ne_nil (outcome : Except FrontendError SqlExecutionResult) :
    bytesOf (queryFrames text outcome ++ [readyForQuery]) ≠ [] := by
  rw [bytesOf, List.flatMap_append, List.flatMap_singleton]
  exact List.append_ne_nil_of_right_ne_nil _ (List.cons_ne_nil _ _)

theorem not_reads_answer_empty {outcome : Except FrontendError SqlExecutionResult}
    {result : Except ClientError QueryResult} {rest : List UInt8} (hsends : Sends text outcome) :
    ¬ Pipe.empty.Reads readQueryResponse fun more => (result, rest ++ more) :=
  Pipe.not_reads_empty Prod.mk (fun _ _ _ _ heq => Prod.mk.inj heq) (bytesOf_answer_ne_nil outcome)
    (settled_answer hsends)

/-- How a startup that names the user and the database ends. -/
def startedWith (named : String × Option String × List UInt8) (rest : List UInt8) :
    Checked.Outcome FrontendError Server.Startup := .value ⟨named.1, named.2.1, rest, named.2.2⟩

theorem startedWith_inj (a b : String × Option String × List UInt8) (r t : List UInt8)
    (h : startedWith a r = startedWith b t) : a = b ∧ r = t := by
  obtain ⟨a₁, a₂, a₃⟩ := a
  obtain ⟨b₁, b₂, b₃⟩ := b
  obtain ⟨rfl, rfl, rfl, rfl⟩ := Server.Startup.mk.inj (Checked.Outcome.value.inj h)
  exact ⟨rfl, rfl⟩

theorem settled_startedWith (hspeak : Speakable text service defaults handler script state) :
    Settled startupOutcome (Client.startupMessage script.user script.database)
      (startedWith (script.user, script.database, [])) := settled_startup hspeak

theorem reads_startup (hspeak : Speakable text service defaults handler script state) {pipe : Pipe UInt8}
    {user : String} {database : Option String} {written rest : List UInt8}
    (hitems : pipe.items = Client.startupMessage script.user script.database)
    (h : pipe.Reads startupOutcome fun more => .value ⟨user, database, rest ++ more, written⟩) :
    (user = script.user ∧ database = script.database ∧ written = []) ∧ (pipe.leave rest).items = [] := by
  have htook : pipe.Reads startupOutcome fun more => startedWith (user, database, written) (rest ++ more) := h
  obtain ⟨hnamed, hnil⟩ := htook.takes_whole startedWith startedWith_inj hitems (settled_startedWith hspeak)
  obtain ⟨huser, hrest⟩ := Prod.mk.inj hnamed
  exact ⟨⟨huser, Prod.mk.inj hrest⟩, hnil⟩

/-- Such a startup ends in no other way. -/
theorem not_reads_startup (hspeak : Speakable text service defaults handler script state) {pipe : Pipe UInt8}
    {other : Checked.Outcome FrontendError Server.Startup} (hother : ∀ startup, other ≠ .value startup)
    (hitems : pipe.items = Client.startupMessage script.user script.database) :
    ¬ pipe.Reads startupOutcome fun _ => other :=
  fun h => hother _ (h.eq_of_items startedWith hitems (settled_startedWith hspeak))

theorem not_reads_startup_empty (hspeak : Speakable text service defaults handler script state) {user : String}
    {database : Option String} {written rest : List UInt8} :
    ¬ Pipe.empty.Reads startupOutcome fun more => .value ⟨user, database, rest ++ more, written⟩ := by
  intro h
  have htook : Pipe.empty.Reads startupOutcome fun more => startedWith (user, database, written) (rest ++ more) := h
  exact Pipe.not_reads_empty startedWith startedWith_inj (List.cons_ne_nil _ _) (settled_startedWith hspeak) htook

theorem not_reads_startup_other_empty (hspeak : Speakable text service defaults handler script state)
    {other : Checked.Outcome FrontendError Server.Startup} (hother : ∀ startup, other ≠ .value startup) :
    ¬ Pipe.empty.Reads startupOutcome fun _ => other :=
  Pipe.not_reads_empty_const startedWith (fun _ heq => hother _ heq.symm) (settled_startedWith hspeak)

/-! ### From stage to stage -/

/-- One more query. -/
theorem direct_succ {count : ℕ} {sql : String}
    (hnext : script.next (direct text service defaults handler script state count).1 = some sql) :
    direct text service defaults handler script state (count + 1) =
      ((direct text service defaults handler script state count).1 ++ [clientView text (answer service defaults handler
          script (direct text service defaults handler script state count).2 sql).1],
        (answer service defaults handler script (direct text service defaults handler script state count).2 sql).2) := by
  rw [direct]
  simp only [hnext]

/-- A script that asks more queries asks one more. -/
theorem Asks.succ {count : ℕ} {sql : String} (h : Asks text service defaults handler script state count)
    (hnext : script.next (direct text service defaults handler script state count).1 = some sql) :
    Asks text service defaults handler script state (count + 1) := by
  intro earlier hearlier
  rcases Nat.lt_succ_iff_lt_or_eq.mp hearlier with hless | rfl
  · exact h earlier hless
  · rw [hnext]
    exact Option.some_ne_none sql

/-- There are as many results as queries. -/
theorem length_direct {count : ℕ} (h : Asks text service defaults handler script state count) :
    (direct text service defaults handler script state count).1.length = count := by
  induction count with
  | zero => rfl
  | succ count ih =>
      obtain ⟨sql, hnext⟩ := Option.ne_none_iff_exists'.mp (h count (Nat.lt_succ_self count))
      rw [direct_succ hnext, List.length_append, ih fun earlier hearlier => h earlier (Nat.lt_succ_of_lt hearlier)]
      rfl

theorem inFlight_deliverToServer {client : Client.Phase} {results : List (Except ClientError QueryResult)}
    {toServer toServer' toClient : Pipe UInt8} {server : ServerPhase σ} (h : toServer.Delivers toServer') :
    Dialogue.inFlight ⟨client, results, toServer', toClient, server⟩ <
      Dialogue.inFlight ⟨client, results, toServer, toClient, server⟩ :=
  Nat.add_lt_add_right (Pipe.length_of_delivers h) _

theorem inFlight_deliverToClient {client : Client.Phase} {results : List (Except ClientError QueryResult)}
    {toServer toClient toClient' : Pipe UInt8} {server : ServerPhase σ} (h : toClient.Delivers toClient') :
    Dialogue.inFlight ⟨client, results, toServer, toClient', server⟩ <
      Dialogue.inFlight ⟨client, results, toServer, toClient, server⟩ :=
  Nat.add_lt_add_left (Pipe.length_of_delivers h) _

/-- A step stays in the turn, where it delivers something, or leads into the next one. -/
theorem Dialogue.Stage.step (hspeak : Speakable text service defaults handler script state) {turn : ℕ}
    {s s' : Dialogue σ} (hstage : Stage text service defaults handler script state turn s)
    (hstep : Step text service defaults handler script s s') :
    Stage text service defaults handler script state turn s' ∧ s'.inFlight < s.inFlight ∨
      Stage text service defaults handler script state (turn + 1) s' := by
  cases hstage with
  | start =>
      cases hstep with
      | deliverToServer h => exact absurd h (Pipe.not_delivers rfl)
      | deliverToClient h => exact absurd h (Pipe.not_delivers rfl)
      | clientStarts => exact .inr (.startup _ (by rw [Pipe.items_send, Pipe.items_empty, List.nil_append]) rfl)
      | serverStarts h => exact absurd h (not_reads_startup_empty hspeak)
      | serverRefuses h => exact absurd h (not_reads_startup_empty hspeak)
      | startupFails h => exact absurd h (not_reads_startup_other_empty hspeak nofun)
      | startupPanics h => exact absurd h (not_reads_startup_other_empty hspeak nofun)
  | startup pipe hitems hopen =>
      cases hstep with
      | deliverToServer h =>
          have hitems := (Pipe.items_of_delivers h).trans hitems
          exact .inl ⟨.startup _ hitems ((Pipe.closed_of_delivers h).trans hopen), inFlight_deliverToServer h⟩
      | deliverToClient h => exact absurd h (Pipe.not_delivers rfl)
      | clientReady h => exact absurd h not_reads_greeting_empty
      | clientFails h => exact absurd h not_reads_greeting_empty
      | serverStarts h hsession =>
          obtain ⟨⟨rfl, rfl, rfl⟩, hnil⟩ := reads_startup hspeak hitems h
          obtain rfl := Except.ok.inj ((sessionOf_eq _ _).symm.trans hsession)
          rw [Pipe.eq_empty hnil hopen, List.nil_append]
          exact .inr (.greeting _ (by rw [Pipe.items_send, Pipe.items_empty, List.nil_append]) rfl)
      | serverRefuses h hsession => cases (sessionOf_eq _ _).symm.trans hsession
      | startupFails h => exact absurd h (not_reads_startup hspeak nofun hitems)
      | startupPanics h => exact absurd h (not_reads_startup hspeak nofun hitems)
  | greeting pipe hitems hopen =>
      cases hstep with
      | deliverToServer h => exact absurd h (Pipe.not_delivers rfl)
      | deliverToClient h =>
          have hitems := (Pipe.items_of_delivers h).trans hitems
          exact .inl ⟨.greeting _ hitems ((Pipe.closed_of_delivers h).trans hopen), inFlight_deliverToClient h⟩
      | clientReady h =>
          obtain ⟨-, hnil⟩ := reads_greeting hitems h
          rw [Pipe.eq_empty hnil hopen]
          exact .inr (.idle 0 nofun)
      | clientFails h => cases (reads_greeting hitems h).1
      | serverReads h => exact absurd h not_reads_message_empty
      | serverFails h => exact absurd h not_reads_message_error_empty
  | idle count hasks =>
      cases hstep with
      | deliverToServer h => exact absurd h (Pipe.not_delivers rfl)
      | deliverToClient h => exact absurd h (Pipe.not_delivers rfl)
      | clientSends h =>
          exact .inr (.asked count hasks _ _ h (by rw [Pipe.items_send, Pipe.items_empty, List.nil_append]) rfl)
      | clientEnds h =>
          exact .inr (.ending count hasks _ h
            (by rw [Pipe.items_close, Pipe.items_send, Pipe.items_empty, List.nil_append]))
      | serverReads h => exact absurd h not_reads_message_empty
      | serverFails h => exact absurd h not_reads_message_error_empty
  | asked count hasks sql pipe hnext hitems hopen =>
      obtain ⟨hzero, hframed, hsends⟩ := hspeak.queries count sql hnext
      cases hstep with
      | deliverToServer h =>
          have hitems := (Pipe.items_of_delivers h).trans hitems
          exact .inl ⟨.asked count hasks sql _ hnext hitems ((Pipe.closed_of_delivers h).trans hopen),
            inFlight_deliverToServer h⟩
      | deliverToClient h => exact absurd h (Pipe.not_delivers rfl)
      | clientReceives h => exact absurd h (not_reads_answer_empty hsends)
      | serverReads h =>
          obtain ⟨rfl, hnil⟩ := reads_message hitems hframed h
          rw [serveMessage_queryMessage hzero, Pipe.eq_empty hnil hopen]
          exact .inr (.answered count hasks sql _ hnext
            (by rw [Pipe.items_send, Pipe.items_empty, List.nil_append]; rfl) rfl)
      | serverFails h => exact absurd h (not_reads_message_error hitems hframed)
  | answered count hasks sql pipe hnext hitems hopen =>
      obtain ⟨hzero, hframed, hsends⟩ := hspeak.queries count sql hnext
      cases hstep with
      | deliverToServer h => exact absurd h (Pipe.not_delivers rfl)
      | deliverToClient h =>
          have hitems := (Pipe.items_of_delivers h).trans hitems
          exact .inl ⟨.answered count hasks sql _ hnext hitems ((Pipe.closed_of_delivers h).trans hopen),
            inFlight_deliverToClient h⟩
      | clientReceives h =>
          obtain ⟨rfl, hnil⟩ := reads_answer hsends hitems h
          rw [Pipe.eq_empty hnil hopen]
          have hidle := Stage.idle (count + 1) (hasks.succ hnext)
          rw [direct_succ hnext] at hidle
          exact .inr hidle
      | serverReads h => exact absurd h not_reads_message_empty
      | serverFails h => exact absurd h not_reads_message_error_empty
  | ending count hasks pipe hnext hitems =>
      cases hstep with
      | deliverToServer h =>
          exact .inl ⟨.ending count hasks _ hnext ((Pipe.items_of_delivers h).trans hitems), inFlight_deliverToServer h⟩
      | deliverToClient h => exact absurd h (Pipe.not_delivers rfl)
      | serverReads h =>
          obtain ⟨rfl, hnil⟩ := reads_message hitems wellFramed_terminateMessage h
          rw [serveMessage_terminateMessage]
          exact .inr (.ended count hasks _ hnext hnil)
      | serverFails h => exact absurd h (not_reads_message_error hitems wellFramed_terminateMessage)
  | ended count hasks pipe hnext hitems =>
      cases hstep with
      | deliverToServer h => exact absurd h (Pipe.not_delivers hitems)
      | deliverToClient h => exact absurd h (Pipe.not_delivers rfl)

/-- Every run stays in the stages. -/
theorem Dialogue.Reaches.stage (hspeak : Speakable text service defaults handler script state) {s : Dialogue σ}
    (h : Reaches text service defaults handler script state s) :
    ∃ turn, Stage text service defaults handler script state turn s := by
  induction h with
  | refl => exact ⟨0, .start⟩
  | tail _ hstep ih =>
      obtain ⟨turn, hstage⟩ := ih
      rcases hstage.step hspeak hstep with ⟨hsame, -⟩ | hnext
      · exact ⟨turn, hsame⟩
      · exact ⟨turn + 1, hnext⟩

/-- The session is over, on both sides. -/
def Dialogue.Over (s : Dialogue σ) : Prop :=
  s.client = .finished ∧ s.server = .closed (some (.ok ())) ∧ s.toServer.items = [] ∧ s.toClient.items = []

/-- Until the session is over, someone can go on. -/
theorem Dialogue.Stage.over_or_step (hspeak : Speakable text service defaults handler script state) {turn : ℕ}
    {s : Dialogue σ} (hstage : Stage text service defaults handler script state turn s) :
    s.Over ∨ ∃ s', Step text service defaults handler script s s' := by
  cases hstage with
  | start => exact .inr ⟨_, .clientStarts⟩
  | startup pipe hitems hopen =>
      rcases Pipe.delivers_or_reads hitems (settled_startup hspeak) with ⟨pipe', h⟩ | h
      · exact .inr ⟨_, .deliverToServer h⟩
      · exact .inr ⟨_, .serverStarts h (sessionOf_eq _ _)⟩
  | greeting pipe hitems hopen =>
      rcases Pipe.delivers_or_reads hitems settled_greeting with ⟨pipe', h⟩ | h
      · exact .inr ⟨_, .deliverToClient h⟩
      · exact .inr ⟨_, .clientReady h⟩
  | idle count hasks =>
      cases hnext : script.next (direct text service defaults handler script state count).1 with
      | some sql => exact .inr ⟨_, .clientSends hnext⟩
      | none => exact .inr ⟨_, .clientEnds hnext⟩
  | asked count hasks sql pipe hnext hitems hopen =>
      obtain ⟨-, hframed, -⟩ := hspeak.queries count sql hnext
      rcases Pipe.delivers_or_reads hitems (settled_readMessage hframed) with ⟨pipe', h⟩ | h
      · exact .inr ⟨_, .deliverToServer h⟩
      · exact .inr ⟨_, .serverReads h⟩
  | answered count hasks sql pipe hnext hitems hopen =>
      obtain ⟨-, -, hsends⟩ := hspeak.queries count sql hnext
      rcases Pipe.delivers_or_reads hitems (settled_answer hsends) with ⟨pipe', h⟩ | h
      · exact .inr ⟨_, .deliverToClient h⟩
      · exact .inr ⟨_, .clientReceives h⟩
  | ending count hasks pipe hnext hitems =>
      rcases Pipe.delivers_or_reads hitems (settled_readMessage wellFramed_terminateMessage) with ⟨pipe', h⟩ | h
      · exact .inr ⟨_, .deliverToServer h⟩
      · exact .inr ⟨_, .serverReads h⟩
  | ended count hasks pipe hnext hitems => exact .inl ⟨rfl, rfl, hitems, rfl⟩

/-- Past the last query, running more changes nothing. -/
theorem direct_add {count : ℕ} (hnext : script.next (direct text service defaults handler script state count).1 = none)
    (more : ℕ) : direct text service defaults handler script state (count + more) =
      direct text service defaults handler script state count := by
  induction more with
  | zero => rfl
  | succ more ih =>
      rw [Nat.add_succ, direct]
      simp only [ih, hnext]

/-- A script asks no more queries than it has. -/
theorem Asks.le {count total : ℕ} (h : Asks text service defaults handler script state count)
    (hends : script.next (direct text service defaults handler script state total).1 = none) : count ≤ total := by
  by_contra hmore
  exact h total (Nat.lt_of_not_le hmore) hends

/-- The last turn of a session of this many queries. -/
theorem Dialogue.Stage.turn_le {total turn : ℕ} {s : Dialogue σ}
    (hstage : Stage text service defaults handler script state turn s)
    (hends : script.next (direct text service defaults handler script state total).1 = none) :
    turn ≤ 3 * total + 5 := by
  cases hstage with
  | start | startup | greeting => omega
  | idle count hasks | asked count hasks | answered count hasks | ending count hasks | ended count hasks =>
      have := hasks.le hends
      omega

/-- Whatever the order of the steps, the client has the results of its queries, run directly and in order, the handler
has been asked nothing else, and neither side fails. -/
theorem session_delivers (hspeak : Speakable text service defaults handler script state) {s : Dialogue σ}
    (h : Dialogue.Reaches text service defaults handler script state s) :
    s.results = (direct text service defaults handler script state s.results.length).1 ∧
      (∀ context left, s.server = .serving context left → context = scriptContext service defaults script ∧
        (left = (direct text service defaults handler script state s.results.length).2 ∨
          left = (direct text service defaults handler script state (s.results.length + 1)).2)) ∧
      (∀ error, s.client ≠ .failed error) ∧
      (s.client = .finished → script.next s.results = none) ∧
      ∀ outcome, s.server = .closed outcome → outcome = some (.ok ()) ∧ s.client = .finished := by
  obtain ⟨turn, hstage⟩ := h.stage hspeak
  cases hstage with
  | start => exact ⟨rfl, nofun, nofun, nofun, nofun⟩
  | startup pipe hitems hopen => exact ⟨rfl, nofun, nofun, nofun, nofun⟩
  | greeting pipe hitems hopen => 
      refine ⟨rfl, ?_, nofun, nofun, nofun⟩
      rintro context left ⟨⟩
      exact ⟨rfl, .inl rfl⟩
  | idle count hasks =>
      refine ⟨by rw [length_direct hasks], ?_, nofun, nofun, nofun⟩
      rintro context left ⟨⟩
      rw [length_direct hasks]
      exact ⟨rfl, .inl rfl⟩
  | asked count hasks sql pipe hnext hitems hopen =>
      refine ⟨by rw [length_direct hasks], ?_, nofun, nofun, nofun⟩
      rintro context left ⟨⟩
      rw [length_direct hasks]
      exact ⟨rfl, .inl rfl⟩
  | answered count hasks sql pipe hnext hitems hopen =>
      refine ⟨by rw [length_direct hasks], ?_, nofun, nofun, nofun⟩
      rintro context left ⟨⟩
      rw [length_direct hasks, direct_succ hnext]
      exact ⟨rfl, .inr rfl⟩
  | ending count hasks pipe hnext hitems =>
      refine ⟨by rw [length_direct hasks], ?_, nofun, fun _ => hnext, nofun⟩
      rintro context left ⟨⟩
      rw [length_direct hasks]
      exact ⟨rfl, .inl rfl⟩
  | ended count hasks pipe hnext hitems =>
      refine ⟨by rw [length_direct hasks], nofun, nofun, fun _ => hnext, ?_⟩
      rintro outcome ⟨⟩
      exact ⟨rfl, rfl⟩

/-- The session of a client whose queries come to an end does not go on forever, and when nothing more can happen it
is over, with the result of every query. -/
theorem session_ends (hspeak : Speakable text service defaults handler script state) {total : ℕ}
    (hends : script.next (direct text service defaults handler script state total).1 = none) :
    (∀ s, Dialogue.Reaches text service defaults handler script state s →
      (∀ s', ¬ Dialogue.Step text service defaults handler script s s') →
        s.Over ∧ s.results = (direct text service defaults handler script state total).1) ∧
      ∀ run : ℕ → Dialogue σ, run 0 = .initial state →
        ¬ ∀ i, Dialogue.Step text service defaults handler script (run i) (run (i + 1)) := by
  constructor
  · intro s hreaches hstuck
    obtain ⟨turn, hstage⟩ := hreaches.stage hspeak
    have hover : s.Over := (hstage.over_or_step hspeak).resolve_right fun ⟨s', hstep⟩ => hstuck s' hstep
    refine ⟨hover, ?_⟩
    cases hstage with
    | start | startup | greeting | idle | asked | answered => cases hover.1
    | ending => cases hover.2.1
    | ended count hasks pipe hnext hitems =>
        obtain ⟨more, rfl⟩ := Nat.exists_eq_add_of_le (hasks.le hends)
        rw [direct_add hnext]
  · intro run hinitial hrun
    have hstart : Dialogue.Stage text service defaults handler script state 0 (run 0) := by
      rw [hinitial]
      exact .start
    exact not_forever (fun turn s hstage => hstage.turn_le hends)
      (fun turn s s' hstage hstep => hstage.step hspeak hstep) hrun hstart

end

end

namespace Sample

/-- Answers every query with the same rows, and counts the queries. -/
def counting : RequestHandler ℕ where
  execute count _ _ := (.ok ⟨namedResult, namedBatches⟩, count + 1)

/-- A client with one query. -/
def oneQuery : Client.Script := ⟨"ann", some "db", fun results => if results.isEmpty then some "select 1" else none⟩

theorem oneQuery_speakable : Speakable arrowText ⟨⟨.empty⟩⟩ ⟨none, none⟩ counting oneQuery 0 where
  user := by decide
  database := by decide
  startup := by decide
  queries count sql hnext := by
    obtain rfl : sql = "select 1" := by
      rw [oneQuery] at hnext
      dsimp only at hnext
      split at hnext
      · exact (Option.some.inj hnext).symm
      · cases hnext
    refine ⟨by decide, ?_, namedResult_sendable⟩
    show _ ≤ 16 * 1024 * 1024
    decide

/-- The dialogue once the client has sent its startup. -/
def started : Dialogue ℕ :=
  ⟨.awaitReady, [], Pipe.empty.send (Client.startupMessage "ann" (some "db")), .empty, .startup 0⟩

theorem reaches_started : Dialogue.Reaches arrowText ⟨⟨.empty⟩⟩ ⟨none, none⟩ counting oneQuery 0 started :=
  .single .clientStarts

end Sample

theorem session_delivers_oneQuery :
    Sample.started.results =
        (direct Sample.arrowText ⟨⟨.empty⟩⟩ ⟨none, none⟩ Sample.counting Sample.oneQuery 0 0).1 ∧
      ∀ error, Sample.started.client ≠ .failed error := by
  obtain ⟨hresults, -, hclient, -⟩ := session_delivers Sample.oneQuery_speakable Sample.reaches_started
  exact ⟨hresults, hclient⟩

theorem session_ends_oneQuery :
    Sample.oneQuery.next (direct Sample.arrowText ⟨⟨.empty⟩⟩ ⟨none, none⟩ Sample.counting Sample.oneQuery 0 1).1 = none ∧
      ¬ ∃ run : ℕ → Dialogue ℕ, run 0 = .initial 0 ∧
        ∀ i, Dialogue.Step Sample.arrowText ⟨⟨.empty⟩⟩ ⟨none, none⟩ Sample.counting Sample.oneQuery (run i)
          (run (i + 1)) := by
  have hends : Sample.oneQuery.next
      (direct Sample.arrowText ⟨⟨.empty⟩⟩ ⟨none, none⟩ Sample.counting Sample.oneQuery 0 1).1 = none := rfl
  refine ⟨hends, ?_⟩
  rintro ⟨run, hinitial, hrun⟩
  exact (session_ends Sample.oneQuery_speakable hends).2 run hinitial hrun

end BrewDB.PgWire

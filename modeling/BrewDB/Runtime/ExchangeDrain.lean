import BrewDB.Runtime.ExchangeBuffer

/-!
# Draining exchange buffers

Reference: `ExchangeBufferManager` of `brewdb-execution/src/runtime/exchange.rs`.

Senders, drains, and the one receiver that may be taken of an exchange all work on one manager, in whatever order its
lock lets them. For each exchange it is a queue of its own: what is done to the others makes no difference.
-/

namespace BrewDB

open Mpsc

namespace ExchangeBufferManager

variable {τ : Type} {codec : IpcCodec} (manager : ExchangeBufferManager τ codec)

/-- `enqueue_output`. -/
def enqueueOutput (sender : τ) (channel : ExchangeChannelDescriptor) (batch : RecordBatch) :
    Except ExchangeRuntimeError (ExchangeBufferManager τ codec) :=
  manager.enqueuePage sender (.fromRecordBatch channel.exchangeId batch)

/-- `drain_pages_by_id`. -/
def drainPagesById (id : ExchangeId) : List (τ × ExchangeDataPage codec) × ExchangeBufferManager τ codec :=
  match manager.buffers.get? id with
  | none => ([], manager)
  | some buffer => (buffer.drain.1, manager.put id buffer.drain.2)

/-- `drain_pages`. -/
def drainPages (channel : ExchangeChannelDescriptor) :
    List (τ × ExchangeDataPage codec) × ExchangeBufferManager τ codec := manager.drainPagesById channel.exchangeId

/-- `drain_input`. -/
def drainInput (channel : ExchangeChannelDescriptor) :
    Except ExchangeRuntimeError (List RecordBatch) × ExchangeBufferManager τ codec :=
  (((manager.drainPages channel).1.mapM fun item : τ × ExchangeDataPage codec => item.2.intoRecordBatches).map
      List.flatten,
    (manager.drainPages channel).2)

end ExchangeBufferManager

/-! ## Runs -/

/-- A call of the manager, or of a receiver taken from it. -/
inductive BufferCall (τ : Type) (codec : IpcCodec) where
  | enqueuePage (sender : τ) (page : ExchangeDataPage codec)
  | drainPages (id : ExchangeId)
  | takeReceiver (id : ExchangeId)
  | recvPage (id : ExchangeId)
  | dropReceiver (id : ExchangeId)

namespace BufferCall

variable {τ : Type} {codec : IpcCodec}

/-- The exchange that a call is about. -/
def exchangeId : BufferCall τ codec → ExchangeId
  | .enqueuePage _ page => page.exchangeId
  | .drainPages id | .takeReceiver id | .recvPage id | .dropReceiver id => id

/-- What it does to the channel of that exchange. -/
def op : BufferCall τ codec → Op (τ × ExchangeDataPage codec)
  | .enqueuePage sender page => .send (sender, page)
  | .drainPages _ => .drain
  | .takeReceiver _ => .take
  | .recvPage _ => .recv
  | .dropReceiver _ => .drop

end BufferCall

/-- The manager, with the pages that it accepted and those that it gave out, by exchange. -/
structure BufferHistory (τ : Type) (codec : IpcCodec) where
  manager : ExchangeBufferManager τ codec
  enqueued : ExchangeId → List (τ × ExchangeDataPage codec)
  delivered : ExchangeId → List (τ × ExchangeDataPage codec)

namespace BufferHistory

variable {τ : Type} {codec : IpcCodec}

/-- Nothing has happened. -/
def start : BufferHistory τ codec := ⟨.default, fun _ => [], fun _ => []⟩

/-- More pages of an exchange. -/
def more (pages : ExchangeId → List (τ × ExchangeDataPage codec)) (id : ExchangeId)
    (items : List (τ × ExchangeDataPage codec)) : ExchangeId → List (τ × ExchangeDataPage codec) :=
  Function.update pages id (pages id ++ items)

/-- A call; one that fails, or has nothing to receive, changes nothing. Only a receiver that was taken is dropped. -/
def call (history : BufferHistory τ codec) : BufferCall τ codec → BufferHistory τ codec
  | .enqueuePage sender page =>
      match history.manager.enqueuePage sender page with
      | .ok manager => { history with
          manager := manager, enqueued := more history.enqueued page.exchangeId [(sender, page)] }
      | .error _ => history
  | .drainPages id =>
      { history with
        manager := (history.manager.drainPagesById id).2
        delivered := more history.delivered id (history.manager.drainPagesById id).1 }
  | .takeReceiver id =>
      match history.manager.takeReceiver id with
      | .ok manager => { history with manager := manager }
      | .error _ => history
  | .recvPage id =>
      match history.manager.recvPage id with
      | some (item, manager) => { history with manager := manager, delivered := more history.delivered id [item] }
      | none => history
  | .dropReceiver id =>
      if (history.manager.entry id).receiver = .taken then { history with manager := history.manager.dropReceiver id }
      else history

/-- A run of calls. -/
def run (calls : List (BufferCall τ codec)) : BufferHistory τ codec := calls.foldl call start

/-- The account of one exchange. -/
def account (history : BufferHistory τ codec) (id : ExchangeId) : Account (τ × ExchangeDataPage codec) :=
  ⟨history.manager.entry id, history.enqueued id, history.delivered id⟩

/-! ## Each exchange by itself -/

theorem more_self (pages : ExchangeId → List (τ × ExchangeDataPage codec)) (id : ExchangeId)
    (items : List (τ × ExchangeDataPage codec)) : more pages id items id = pages id ++ items :=
  Function.update_self id _ pages

theorem more_of_ne (pages : ExchangeId → List (τ × ExchangeDataPage codec)) {id id' : ExchangeId} (h : id' ≠ id)
    (items : List (τ × ExchangeDataPage codec)) : more pages id items id' = pages id' :=
  Function.update_of_ne h _ pages

/-- The account of an exchange whose channel was replaced. -/
theorem account_put (history : BufferHistory τ codec) (id id' : ExchangeId)
    (buffer : Buffer (τ × ExchangeDataPage codec)) :
    account { history with manager := history.manager.put id buffer } id' =
      if id = id' then { history.account id' with buffer := buffer } else history.account id' := by
  by_cases h : id' = id
  · rw [if_pos h.symm, account, ExchangeBufferManager.entry_put, if_pos h]
    rfl
  · rw [if_neg (Ne.symm h), account, ExchangeBufferManager.entry_put, if_neg h]
    rfl

/-- Draining is draining the channel, which need not be there yet. -/
theorem drainPagesById_spec (manager : ExchangeBufferManager τ codec) (id id' : ExchangeId) :
    (manager.drainPagesById id).1 = (manager.entry id).drain.1 ∧
      (manager.drainPagesById id).2.entry id' = if id = id' then (manager.entry id).drain.2 else manager.entry id' := by
  rw [ExchangeBufferManager.drainPagesById]
  cases hget : manager.buffers.get? id with
  | none =>
      have hentry : manager.entry id = .new := by rw [ExchangeBufferManager.entry, hget, Option.getD_none]
      rw [hentry]
      refine ⟨rfl, ?_⟩
      split_ifs with h
      · rw [← h]
        exact hentry
      · rfl
  | some buffer =>
      have hentry : manager.entry id = buffer := by rw [ExchangeBufferManager.entry, hget, Option.getD_some]
      rw [hentry]
      refine ⟨rfl, ?_⟩
      rw [ExchangeBufferManager.entry_put]
      simp only [eq_comm]

/-- A call does to its exchange what it would do to a channel alone, and nothing to the others. -/
theorem account_call (history : BufferHistory τ codec) (c : BufferCall τ codec) (id : ExchangeId) :
    (history.call c).account id =
      if c.exchangeId = id then (history.account id).apply c.op else history.account id := by
  cases c with
  | enqueuePage sender page =>
      rw [call, BufferCall.exchangeId, BufferCall.op, ExchangeBufferManager.enqueuePage]
      by_cases h : page.exchangeId = id
      · subst h
        rw [if_pos rfl, Account.apply, account, account]
        cases hsend : (history.manager.entry page.exchangeId).send (sender, page) with
        | none => rfl
        | some buffer =>
            dsimp only
            rw [ExchangeBufferManager.entry_put_self, more_self]
      · rw [if_neg h]
        cases (history.manager.entry page.exchangeId).send (sender, page) with
        | none => rfl
        | some buffer =>
            dsimp only [account]
            rw [ExchangeBufferManager.entry_put, if_neg (Ne.symm h), more_of_ne _ (Ne.symm h)]
  | drainPages drained =>
      obtain ⟨hpages, hentry⟩ := drainPagesById_spec history.manager drained id
      rw [call, BufferCall.exchangeId, BufferCall.op]
      dsimp only [account]
      rw [hentry, hpages]
      by_cases h : drained = id
      · subst h
        rw [if_pos rfl, if_pos rfl, more_self]
        rfl
      · rw [if_neg h, if_neg h, more_of_ne _ (Ne.symm h)]
  | takeReceiver taken =>
      rw [call, BufferCall.exchangeId, BufferCall.op, ExchangeBufferManager.takeReceiver]
      cases htake : (history.manager.entry taken).take with
      | none =>
          dsimp only
          split_ifs with h
          · subst h
            simp only [Account.apply, account, htake]
          · rfl
      | some buffer =>
          dsimp only
          rw [account_put]
          split_ifs with h
          · subst h
            simp only [Account.apply, account, htake]
          · rfl
  | recvPage received =>
      rw [call, BufferCall.exchangeId, BufferCall.op, ExchangeBufferManager.recvPage]
      cases hrecv : (history.manager.entry received).recv with
      | none =>
          rw [Option.map_none]
          dsimp only
          split_ifs with h
          · subst h
            simp only [Account.apply, account, hrecv]
          · rfl
      | some result =>
          obtain ⟨item, buffer⟩ := result
          rw [Option.map_some]
          dsimp only [account]
          rw [ExchangeBufferManager.entry_put]
          by_cases h : received = id
          · subst h
            rw [if_pos rfl, if_pos rfl, more_self]
            simp only [Account.apply, hrecv]
          · rw [if_neg (Ne.symm h), if_neg h, more_of_ne _ (Ne.symm h)]
  | dropReceiver dropped =>
      rw [call, BufferCall.exchangeId, BufferCall.op]
      by_cases htaken : (history.manager.entry dropped).receiver = .taken
      · rw [if_pos htaken, ExchangeBufferManager.dropReceiver, account_put]
        split_ifs with h
        · subst h
          exact (if_pos htaken).symm
        · rfl
      · rw [if_neg htaken]
        split_ifs with h
        · subst h
          exact (if_neg htaken).symm
        · rfl

/-- In a run, each exchange is a channel of its own, on which the calls about it are made. -/
theorem account_run (calls : List (BufferCall τ codec)) (id : ExchangeId) :
    (run calls).account id =
      ((calls.filter fun c => c.exchangeId = id).map BufferCall.op).foldl Account.apply .new := by
  have hfold : ∀ (calls : List (BufferCall τ codec)) (history : BufferHistory τ codec),
      (calls.foldl call history).account id =
        ((calls.filter fun c => c.exchangeId = id).map BufferCall.op).foldl Account.apply (history.account id) := by
    intro calls
    induction calls with
    | nil => exact fun history => rfl
    | cons c calls ih =>
        intro history
        rw [List.foldl_cons, ih, account_call, List.filter_cons]
        by_cases h : c.exchangeId = id
        · rw [if_pos h, if_pos (decide_eq_true h), List.map_cons, List.foldl_cons]
        · rw [if_neg h, if_neg (by simpa using h)]
  exact hfold calls start

/-- Pages that were made from batches are read back as these. -/
theorem mapM_intoRecordBatches (id : ExchangeId) (outputs : List (τ × RecordBatch)) :
    ((outputs.map fun output => (output.1, (.fromRecordBatch id output.2 : ExchangeDataPage codec))).mapM
      fun item : τ × ExchangeDataPage codec => item.2.intoRecordBatches) =
        .ok (outputs.map fun output => [output.2]) := by
  rw [ExceptRun.mapM_eq_ok, List.forall₂_map_left_iff, List.forall₂_map_right_iff, List.forall₂_same]
  exact fun output _ => ExchangeDataPage.intoRecordBatches_fromRecordBatch id output.2

/-- Whatever the order of the calls, each exchange is a queue: what was delivered is what was accepted, in order and
without gaps, the rest is still queued until the receiver is dropped, and none of it depends on the other exchanges. An
exchange that was fed batches gives out, when it is drained, those that were not delivered yet. -/
theorem run_fifo (calls : List (BufferCall τ codec)) (id : ExchangeId) :
    ((run calls).account id).Fifo ∧
      (run calls).account id = (run (calls.filter fun c => c.exchangeId = id)).account id ∧
      ∀ (channel : ExchangeChannelDescriptor) (outputs : List (τ × RecordBatch)), channel.exchangeId = id →
        (run calls).enqueued id = (outputs.map fun output => (output.1, .fromRecordBatch id output.2)) →
        ((run calls).manager.entry id).receiver = .held →
        ((run calls).manager.drainInput channel).1 =
          .ok ((outputs.drop ((run calls).delivered id).length).map Prod.snd) := by
  have hfifo : ((run calls).account id).Fifo := by
    rw [account_run]
    exact Account.Fifo.new.foldl _
  refine ⟨hfifo, ?_, ?_⟩
  · rw [account_run, account_run, List.filter_filter]
    simp only [Bool.and_self]
  · rintro channel outputs rfl houtputs hheld
    have hopen : ((run calls).manager.entry channel.exchangeId).receiver ≠ .dropped := by
      rw [hheld]
      exact nofun
    have hqueue : ((run calls).manager.entry channel.exchangeId).queue =
        (outputs.drop ((run calls).delivered channel.exchangeId).length).map
          fun output => (output.1, .fromRecordBatch channel.exchangeId output.2) := by
      have hall : (run calls).enqueued channel.exchangeId = (run calls).delivered channel.exchangeId ++
        ((run calls).manager.entry channel.exchangeId).queue := hfifo.queued hopen
      rw [List.map_drop, ← houtputs, hall, List.drop_left]
    have hpages : ((run calls).manager.drainPages channel).1 =
        ((run calls).manager.entry channel.exchangeId).queue := by
      rw [ExchangeBufferManager.drainPages, (drainPagesById_spec _ _ channel.exchangeId).1, Buffer.drain, if_pos hheld]
    rw [ExchangeBufferManager.drainInput, hpages, hqueue, mapM_intoRecordBatches]
    show Except.ok _ = Except.ok _
    rw [← List.flatMap_def, ← List.map_eq_flatMap]

end BufferHistory

namespace Sample

/-- Batches as their own payloads. -/
def plainCodec : IpcCodec where
  Payload := Option RecordBatch
  empty := none
  write batch := some batch
  read payload := .ok payload.toList
  read_write _ := rfl

def channelThree : ExchangeChannelDescriptor :=
  ⟨3, 1, 0, 11, 12, 1, "rpc://worker-1", 0, "rpc://worker-0", .localScope, .gather, ⟨[], []⟩⟩

/-- Two batches of one exchange with a drain between them, and one of another exchange. -/
def drainedOnce : List (BufferCall Bool plainCodec) :=
  [.enqueuePage true (.fromRecordBatch 3 ⟨[], [[.integer 1]]⟩), .enqueuePage false (.fromRecordBatch 4 ⟨[], []⟩),
    .drainPages 3, .enqueuePage false (.fromRecordBatch 3 ⟨[], [[.integer 2]]⟩)]

end Sample

theorem run_fifo_drainedOnce :
    ((BufferHistory.run Sample.drainedOnce).manager.drainInput Sample.channelThree).1 = .ok [⟨[], [[.integer 2]]⟩] :=
  (BufferHistory.run_fifo Sample.drainedOnce 3).2.2 Sample.channelThree
    [(true, ⟨[], [[.integer 1]]⟩), (false, ⟨[], [[.integer 2]]⟩)] rfl rfl rfl

end BrewDB

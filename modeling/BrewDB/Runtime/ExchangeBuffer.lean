import BrewDB.Common.Mpsc
import BrewDB.Runtime.Exchange

/-!
# Exchange pages and buffers

Reference: `ExchangeDataPage` and `ExchangeBufferManager` of `brewdb-execution/src/runtime/exchange.rs`.

One manager serves every fragment instance of a worker. It maps exchange ids to unbounded channels;
whichever side comes first creates the channel, the receiver is handed out once, and entries are never
removed. Queued pages carry their sender (`τ`), which the code does not record and only proofs look at.
-/

namespace BrewDB

open Mpsc

/-- Arrow's IPC stream format: a written batch reads back as that batch. -/
structure IpcCodec where
  Payload : Type
  empty : Payload
  write : RecordBatch → Payload
  read : Payload → Except String (List RecordBatch)
  read_write : ∀ batch, read (write batch) = .ok [batch]

/-- A page on the wire. -/
structure ExchangeDataPage (codec : IpcCodec) where
  exchangeId : ExchangeId
  encoding : ExchangeDataEncoding
  payload : codec.Payload
  endOfStream : Bool

namespace ExchangeDataPage

variable {codec : IpcCodec}

/-- `from_record_batch`. -/
def fromRecordBatch (exchangeId : ExchangeId) (batch : RecordBatch) : ExchangeDataPage codec :=
  ⟨exchangeId, .arrowIpcStream, codec.write batch, false⟩

/-- `end_of_stream`. -/
def eos (exchangeId : ExchangeId) : ExchangeDataPage codec :=
  ⟨exchangeId, .arrowIpcStream, codec.empty, true⟩

/-- `into_record_batches`. -/
def intoRecordBatches (page : ExchangeDataPage codec) :
    Except ExchangeRuntimeError (List RecordBatch) :=
  if page.endOfStream then .ok []
  else
    match page.encoding with
    | .arrowIpcStream =>
        match codec.read page.payload with
        | .ok batches => .ok batches
        | .error reason => .error (.ipcSerializationFailed reason)

/-- A page decodes to the batch it was made from. -/
theorem intoRecordBatches_fromRecordBatch (exchangeId : ExchangeId) (batch : RecordBatch) :
    (fromRecordBatch exchangeId batch : ExchangeDataPage codec).intoRecordBatches = .ok [batch] := by
  simp [intoRecordBatches, fromRecordBatch, codec.read_write]

end ExchangeDataPage

/-- The channels of a worker, by exchange id. -/
structure ExchangeBufferManager (τ : Type) (codec : IpcCodec) where
  buffers : BTreeMap ExchangeId (Buffer (τ × ExchangeDataPage codec))

namespace ExchangeBufferManager

variable {τ : Type} {codec : IpcCodec}

/-- The manager without channels (`Default`). -/
def default : ExchangeBufferManager τ codec := ⟨BTreeMap.empty⟩

/-- `entry(id).or_insert_with(unbounded_channel)`. -/
def entry (manager : ExchangeBufferManager τ codec) (id : ExchangeId) :
    Buffer (τ × ExchangeDataPage codec) :=
  (manager.buffers.get? id).getD .new

/-- Store a channel. -/
def put (manager : ExchangeBufferManager τ codec) (id : ExchangeId)
    (buffer : Buffer (τ × ExchangeDataPage codec)) : ExchangeBufferManager τ codec :=
  ⟨manager.buffers.alter id fun _ => buffer⟩

/-- `enqueue_page`. -/
def enqueuePage (manager : ExchangeBufferManager τ codec) (sender : τ)
    (page : ExchangeDataPage codec) :
    Except ExchangeRuntimeError (ExchangeBufferManager τ codec) :=
  match (manager.entry page.exchangeId).send (sender, page) with
  | some buffer => .ok (manager.put page.exchangeId buffer)
  | none => .error (.exchangeReceiverClosed page.exchangeId)

/-- `take_receiver`. -/
def takeReceiver (manager : ExchangeBufferManager τ codec) (id : ExchangeId) :
    Except ExchangeRuntimeError (ExchangeBufferManager τ codec) :=
  match (manager.entry id).take with
  | some buffer => .ok (manager.put id buffer)
  | none => .error (.exchangeReceiverAlreadyTaken id)

/-- The next page of a taken receiver. -/
def recvPage (manager : ExchangeBufferManager τ codec) (id : ExchangeId) :
    Option ((τ × ExchangeDataPage codec) × ExchangeBufferManager τ codec) :=
  (manager.entry id).recv.map fun received => (received.1, manager.put id received.2)

/-- Drop a taken receiver. -/
def dropReceiver (manager : ExchangeBufferManager τ codec) (id : ExchangeId) :
    ExchangeBufferManager τ codec :=
  manager.put id .closed

@[simp] theorem entry_default (id : ExchangeId) :
    (default : ExchangeBufferManager τ codec).entry id = .new := rfl

@[simp] theorem entry_put_self (manager : ExchangeBufferManager τ codec) (id : ExchangeId)
    (buffer : Buffer (τ × ExchangeDataPage codec)) : (manager.put id buffer).entry id = buffer := by
  simp [entry, put]

theorem entry_put (manager : ExchangeBufferManager τ codec) (id id' : ExchangeId)
    (buffer : Buffer (τ × ExchangeDataPage codec)) :
    (manager.put id buffer).entry id' = if id' = id then buffer else manager.entry id' := by
  split
  next h =>
    subst h
    exact manager.entry_put_self id' buffer
  next h => simp [entry, put, BTreeMap.get?_alter_ne _ h]

theorem enqueuePage_eq_ok_iff {manager manager' : ExchangeBufferManager τ codec} {sender : τ}
    {page : ExchangeDataPage codec} :
    manager.enqueuePage sender page = .ok manager' ↔
      (manager.entry page.exchangeId).receiver ≠ .dropped ∧
      manager' = manager.put page.exchangeId
        { manager.entry page.exchangeId with
          queue := (manager.entry page.exchangeId).queue ++ [(sender, page)] } := by
  unfold enqueuePage
  cases hsend : (manager.entry page.exchangeId).send (sender, page) with
  | none => simp [Buffer.send_eq_none_iff.mp hsend]
  | some buffer =>
      obtain ⟨hopen, rfl⟩ := Buffer.send_eq_some_iff.mp hsend
      simp [hopen, eq_comm]

theorem enqueuePage_eq_error_iff {manager : ExchangeBufferManager τ codec} {sender : τ}
    {page : ExchangeDataPage codec} :
    (∃ error, manager.enqueuePage sender page = .error error) ↔
      (manager.entry page.exchangeId).receiver = .dropped := by
  unfold enqueuePage
  cases hsend : (manager.entry page.exchangeId).send (sender, page) with
  | none => simp [Buffer.send_eq_none_iff.mp hsend]
  | some buffer => simp [(Buffer.send_eq_some_iff.mp hsend).1]

theorem takeReceiver_eq_ok_iff {manager manager' : ExchangeBufferManager τ codec} {id : ExchangeId} :
    manager.takeReceiver id = .ok manager' ↔
      (manager.entry id).receiver = .held ∧
      manager' = manager.put id { manager.entry id with receiver := .taken } := by
  unfold takeReceiver
  cases htake : (manager.entry id).take with
  | none => simp [Buffer.take_eq_none_iff.mp htake]
  | some buffer =>
      obtain ⟨hheld, rfl⟩ := Buffer.take_eq_some_iff.mp htake
      simp [hheld, eq_comm]

theorem takeReceiver_eq_error_iff {manager : ExchangeBufferManager τ codec} {id : ExchangeId} :
    (∃ error, manager.takeReceiver id = .error error) ↔ (manager.entry id).receiver ≠ .held := by
  unfold takeReceiver
  rw [← Buffer.take_eq_none_iff]
  cases (manager.entry id).take <;> simp

theorem recvPage_eq_some_iff {manager manager' : ExchangeBufferManager τ codec} {id : ExchangeId}
    {item : τ × ExchangeDataPage codec} :
    manager.recvPage id = some (item, manager') ↔
      ∃ queue, manager.entry id = ⟨item :: queue, .taken⟩ ∧
        manager' = manager.put id ⟨queue, .taken⟩ := by
  rw [recvPage, Option.map_eq_some_iff]
  constructor
  · rintro ⟨⟨item', queue, receiver⟩, hrecv, hpair⟩
    obtain ⟨hentry, hreceiver⟩ := Buffer.recv_eq_some_iff.mp hrecv
    obtain ⟨rfl, rfl⟩ := Prod.mk.inj hpair
    obtain rfl : receiver = .taken := hreceiver
    exact ⟨queue, hentry, rfl⟩
  · rintro ⟨queue, hentry, rfl⟩
    exact ⟨(item, ⟨queue, .taken⟩), Buffer.recv_eq_some_iff.mpr ⟨hentry, rfl⟩, rfl⟩

end ExchangeBufferManager

end BrewDB

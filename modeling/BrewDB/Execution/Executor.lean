import BrewDB.Common.Transition
import BrewDB.Runtime.ExchangeBuffer

/-!
# Fragment execution as a transition system

Reference: `ExchangePartitionStream::execute` and `execute_physical_plan_streaming` of
`brewdb-execution/src/execution/executor.rs`.

The fragment instances of a worker run side by side and share its exchange buffers. One action is one
buffer operation or one local move of one instance, so runs are all interleavings. What the operators
of an instance compute is left open: they may open their input streams at any time, read and drop them
in any order, wait for any of them, produce any batches and fail at any point.

An instance

* opens an input stream by taking the receiver of its channel, and panics if it is gone;
* reads pages into the stream's pending batches and hands these to its operators one by one;
* routes every produced batch and sends the routed parts one after the other;
* after its output has ended, sends end-of-stream on every output channel;
* drops all its receivers when it ends, with or without an error.

The remaining fields record what happened, for proofs: the batches sent and the end-of-stream pages,
the batches handed to operators, the pages received, and who took a receiver.
-/

namespace BrewDB

/-- The channels of fragment instances `ι`. -/
structure Network (ι : Type) where
  inputs : ι → List ExchangeId
  outputs : ι → List ExchangeChannelDescriptor

/-- The ids of an instance's output channels. -/
def Network.outputIds {ι : Type} (N : Network ι) (t : ι) : List ExchangeId :=
  (N.outputs t).map ExchangeChannelDescriptor.exchangeId

/-- An input stream of an instance. -/
inductive StreamState where
  | unopened
  | opened (pending : List RecordBatch)
  | ended
  | dropped
deriving DecidableEq, Repr

/-- The stream owns its receiver. -/
def StreamState.isOpen : StreamState → Bool
  | opened _ => true
  | _ => false

/-- Why an instance failed: an error of its own, or a buffer operation that was refused because of
what another instance did with the receiver. -/
inductive Failure (ι : Type) where
  | own
  | receiverAlreadyTaken (id : ExchangeId) (taker : Option ι)
  | receiverClosed (id : ExchangeId) (taker : Option ι)
deriving DecidableEq

/-- Where an instance is in its output loop. -/
inductive Phase (ι : Type) where
  | running
  | waiting (ids : List ExchangeId)
  | sending (routed : List (ExchangeId × RecordBatch))
  | closing (ids : List ExchangeId)
  | finished
  | failed (cause : Failure ι)
deriving DecidableEq

namespace Phase

variable {ι : Type}

/-- The instance has returned. -/
def isTerminated : Phase ι → Bool
  | finished => true
  | failed _ => true
  | _ => false

/-- The instance has returned an error. -/
def isFailed : Phase ι → Bool
  | failed _ => true
  | _ => false

/-- The instance may receive on this channel. -/
def canReceive (id : ExchangeId) : Phase ι → Bool
  | running => true
  | waiting ids => id ∈ ids
  | _ => false

/-- The instance is at a point where an error can surface. -/
def canFail : Phase ι → Bool
  | running => true
  | sending _ => true
  | closing _ => true
  | _ => false

/-- The phase after some routed parts have been sent. -/
def afterSend : List (ExchangeId × RecordBatch) → Phase ι
  | [] => running
  | routed => sending routed

end Phase

/-- Fragment instances over one buffer manager. -/
structure ExecState (ι : Type) (codec : IpcCodec) where
  manager : ExchangeBufferManager ι codec
  phase : ι → Phase ι
  stream : ι → ExchangeId → StreamState
  sent : ι → ExchangeId → List RecordBatch
  eosSent : ι → ExchangeId → Bool
  yielded : ι → ExchangeId → List RecordBatch
  received : ι → ExchangeId → List (ι × ExchangeDataPage codec)
  taker : ExchangeId → Option ι

/-- One move of one instance. -/
inductive Action (ι : Type) where
  | openStream (t : ι) (id : ExchangeId)
  | wait (t : ι) (ids : List ExchangeId)
  | receive (t : ι) (id : ExchangeId)
  | yieldBatch (t : ι) (id : ExchangeId)
  | dropStream (t : ι) (id : ExchangeId)
  | produce (t : ι) (batch : RecordBatch)
  | send (t : ι)
  | finishOutput (t : ι)
  | close (t : ι)
  | finish (t : ι)
  | fail (t : ι)

/-- Change a two-place function at one place. -/
def update₂ {α β γ : Type} [DecidableEq α] [DecidableEq β] (f : α → β → γ) (a : α) (b : β) (c : γ) :
    α → β → γ :=
  fun a' b' => if a' = a ∧ b' = b then c else f a' b'

namespace ExecState

variable {ι : Type} [DecidableEq ι] {codec : IpcCodec}

/-- Everything is about to start, over the given buffers. -/
def init (manager : ExchangeBufferManager ι codec) : ExecState ι codec where
  manager := manager
  phase _ := .running
  stream _ _ := .unopened
  sent _ _ := []
  eosSent _ _ := false
  yielded _ _ := []
  received _ _ := []
  taker _ := none

/-- Change the phase of an instance. -/
def setPhase (st : ExecState ι codec) (t : ι) (phase : Phase ι) : ExecState ι codec :=
  { st with phase := Function.update st.phase t phase }

/-- Drop every receiver the instance owns. -/
def release (N : Network ι) (st : ExecState ι codec) (t : ι) : ExecState ι codec :=
  { st with
    manager := ((N.inputs t).filter fun id => (st.stream t id).isOpen).foldl
      ExchangeBufferManager.dropReceiver st.manager
    stream := Function.update st.stream t fun id =>
      if (st.stream t id).isOpen then .dropped else st.stream t id }

/-- The instance returns an error. -/
def failTask (N : Network ι) (st : ExecState ι codec) (t : ι) (cause : Failure ι) :
    ExecState ι codec :=
  (st.release N t).setPhase t (.failed cause)

/-- `ExchangePartitionStream::execute`: take the receiver, or panic. -/
def openStream (N : Network ι) (st : ExecState ι codec) (t : ι) (id : ExchangeId) :
    Option (ExecState ι codec) :=
  if st.phase t = .running ∧ id ∈ N.inputs t ∧ st.stream t id = .unopened then
    match st.manager.takeReceiver id with
    | .ok manager => some { st with
        manager := manager
        stream := update₂ st.stream t id (.opened [])
        taker := Function.update st.taker id (some t) }
    | .error _ => some (st.failTask N t (.receiverAlreadyTaken id (st.taker id)))
  else none

/-- The instance cannot go on before one of these streams, all of them without pending batches, has
received a page. -/
def wait (st : ExecState ι codec) (t : ι) (ids : List ExchangeId) : Option (ExecState ι codec) :=
  if st.phase t = .running ∧ ids ≠ [] ∧ ∀ id ∈ ids, st.stream t id = .opened [] then
    some (st.setPhase t (.waiting ids))
  else none

/-- The receiving part of the stream's loop: end-of-stream ends the stream and drops the receiver. -/
def receive (N : Network ι) (st : ExecState ι codec) (t : ι) (id : ExchangeId) :
    Option (ExecState ι codec) :=
  if (st.phase t).canReceive id ∧ st.stream t id = .opened [] then
    match st.manager.recvPage id with
    | none => none
    | some (item, manager) =>
        let st := { st with
          manager := manager
          received := update₂ st.received t id (st.received t id ++ [item]) }.setPhase t .running
        if item.2.endOfStream then some { st with
          manager := manager.dropReceiver id
          stream := update₂ st.stream t id .ended }
        else
          match item.2.intoRecordBatches with
          | .ok batches => some { st with stream := update₂ st.stream t id (.opened batches) }
          | .error _ => some (st.failTask N t .own)
  else none

/-- The yielding part of the stream's loop. -/
def yieldBatch (st : ExecState ι codec) (t : ι) (id : ExchangeId) : Option (ExecState ι codec) :=
  match st.phase t, st.stream t id with
  | .running, .opened (batch :: pending) => some { st with
      stream := update₂ st.stream t id (.opened pending)
      yielded := update₂ st.yielded t id (st.yielded t id ++ [batch]) }
  | _, _ => none

/-- An operator stops reading an input and drops its stream. -/
def dropStream (st : ExecState ι codec) (t : ι) (id : ExchangeId) : Option (ExecState ι codec) :=
  if st.phase t = .running ∧ (st.stream t id).isOpen then some { st with
    manager := st.manager.dropReceiver id
    stream := update₂ st.stream t id .dropped }
  else none

/-- The operators produce a batch: it is routed, or handed to the result sink if there are no output
channels. -/
def produce (N : Network ι) (hash : List TypedCell → ℕ) (st : ExecState ι codec) (t : ι)
    (batch : RecordBatch) : Option (ExecState ι codec) :=
  if st.phase t = .running then
    if (N.outputs t).isEmpty then some st
    else
      match routeExchangeBatch hash (N.outputs t) batch with
      | .ok routed => some (st.setPhase t
          (.afterSend (routed.map fun part => (part.1.exchangeId, part.2))))
      | .error _ => some (st.failTask N t .own)
  else none

/-- Send the next routed part. -/
def send (N : Network ι) (st : ExecState ι codec) (t : ι) : Option (ExecState ι codec) :=
  match st.phase t with
  | .sending ((id, batch) :: routed) =>
      match st.manager.enqueuePage t (.fromRecordBatch id batch) with
      | .ok manager => some ({ st with
          manager := manager
          sent := update₂ st.sent t id (st.sent t id ++ [batch]) }.setPhase t (.afterSend routed))
      | .error _ => some (st.failTask N t (.receiverClosed id (st.taker id)))
  | _ => none

/-- The output loop ends. -/
def finishOutput (N : Network ι) (st : ExecState ι codec) (t : ι) : Option (ExecState ι codec) :=
  if st.phase t = .running then some (st.setPhase t (.closing (N.outputIds t))) else none

/-- Send the next end-of-stream page. -/
def close (N : Network ι) (st : ExecState ι codec) (t : ι) : Option (ExecState ι codec) :=
  match st.phase t with
  | .closing (id :: ids) =>
      match st.manager.enqueuePage t (.eos id) with
      | .ok manager => some ({ st with
          manager := manager
          eosSent := update₂ st.eosSent t id true }.setPhase t (.closing ids))
      | .error _ => some (st.failTask N t (.receiverClosed id (st.taker id)))
  | _ => none

/-- The instance returns successfully. -/
def finish (N : Network ι) (st : ExecState ι codec) (t : ι) : Option (ExecState ι codec) :=
  if st.phase t = .closing [] then some ((st.release N t).setPhase t .finished) else none

/-- An operator, a storage read, routing, encoding or the transport fails. -/
def fail (N : Network ι) (st : ExecState ι codec) (t : ι) : Option (ExecState ι codec) :=
  if (st.phase t).canFail then some (st.failTask N t .own) else none

/-- The transition function. -/
def step (N : Network ι) (hash : List TypedCell → ℕ) (st : ExecState ι codec) :
    Action ι → Option (ExecState ι codec)
  | .openStream t id => st.openStream N t id
  | .wait t ids => st.wait t ids
  | .receive t id => st.receive N t id
  | .yieldBatch t id => st.yieldBatch t id
  | .dropStream t id => st.dropStream t id
  | .produce t batch => st.produce N hash t batch
  | .send t => st.send N t
  | .finishOutput t => st.finishOutput N t
  | .close t => st.close N t
  | .finish t => st.finish N t
  | .fail t => st.fail N t

end ExecState

end BrewDB

import BrewDB.Common.Arrow
import BrewDB.Common.ExceptState
import BrewDB.Common.Transition

/-!
# Paimon inserts

Reference: `brewdb-storage/src/paimon/writer.rs`.

Every input partition is written by its own writer, whose commit messages travel as JSON in a one-row
batch. The batches of all partitions meet in one stream, in any order; the commit operator collects
them and commits once. Paimon's writers and `commit`, the input streams and the JSON of the Paimon
structures are parameters, and each of their calls may fail. A row count is a `u64`.
-/

namespace BrewDB

/-! ## Commit messages -/

/-- The JSON form of a type (`serde`). -/
structure Serde (Json T : Type) where
  toValue : T → Json
  fromValue : Json → Except String T
  fromValue_toValue : ∀ value, fromValue (toValue value) = .ok value

/-- The JSON that commit messages are made of. An object with distinct keys gives back the fields it was
made from, and a printed list of values reads back. -/
structure CommitFormat where
  DataFile : Type
  IndexFile : Type
  Json : Type
  partition : Serde Json (List UInt8)
  bucket : Serde Json Int32
  dataFiles : Serde Json (List DataFile)
  indexFiles : Serde Json (List IndexFile)
  object : List (String × Json) → Json
  get : Json → String → Option Json
  get_object : ∀ fields name, (fields.map Prod.fst).Nodup → get (object fields) name = fields.lookup name
  toText : List Json → Except String String
  fromText : String → Except String (List Json)
  fromText_toText : ∀ {values text}, toText values = .ok text → fromText text = .ok values

/-- Paimon's `CommitMessage`. -/
structure CommitMessage (P : CommitFormat) where
  partition : List UInt8
  bucket : Int32
  newFiles : List P.DataFile
  newIndexFiles : List P.IndexFile
  deletedFiles : List P.DataFile

variable {P : CommitFormat}

/-- The JSON object of a commit message. -/
def CommitMessage.toJson (message : CommitMessage P) : P.Json :=
  P.object [("partition", P.partition.toValue message.partition),
    ("bucket", P.bucket.toValue message.bucket),
    ("new_files", P.dataFiles.toValue message.newFiles),
    ("new_index_files", P.indexFiles.toValue message.newIndexFiles),
    ("deleted_files", P.dataFiles.toValue message.deletedFiles)]

/-- `encode_commit_messages`. -/
def encodeCommitMessages (messages : List (CommitMessage P)) : Except String String :=
  P.toText (messages.map CommitMessage.toJson)

/-- `required_field`. -/
def requiredField {T : Type} (serde : Serde P.Json T) (value : P.Json) (name : String) :
    Except String T :=
  match P.get value name with
  | none => .error ("Execution error: missing Paimon commit message field: " ++ name)
  | some field => serde.fromValue field

/-- `decode_commit_message`. -/
def decodeCommitMessage (value : P.Json) : Except String (CommitMessage P) := do
  let partition ← requiredField P.partition value "partition"
  let bucket ← requiredField P.bucket value "bucket"
  let newFiles ← requiredField P.dataFiles value "new_files"
  let newIndexFiles ← requiredField P.indexFiles value "new_index_files"
  let deletedFiles ← requiredField P.dataFiles value "deleted_files"
  return ⟨partition, bucket, newFiles, newIndexFiles, deletedFiles⟩

/-- `decode_commit_messages`. -/
def decodeCommitMessages (encoded : String) : Except String (List (CommitMessage P)) := do
  let values ← P.fromText encoded
  values.mapM decodeCommitMessage

/-- A message comes back with all of its fields. -/
theorem decodeCommitMessage_toJson (message : CommitMessage P) :
    decodeCommitMessage message.toJson = .ok message := by
  have hfield : ∀ {T : Type} (serde : Serde P.Json T) (name : String) (value : T),
      [("partition", P.partition.toValue message.partition),
        ("bucket", P.bucket.toValue message.bucket),
        ("new_files", P.dataFiles.toValue message.newFiles),
        ("new_index_files", P.indexFiles.toValue message.newIndexFiles),
        ("deleted_files", P.dataFiles.toValue message.deletedFiles)].lookup name =
        some (serde.toValue value) →
      requiredField serde message.toJson name = .ok value := by
    intro T serde name value hlookup
    rw [requiredField, CommitMessage.toJson, P.get_object _ _ (by simp), hlookup]
    exact serde.fromValue_toValue value
  rw [decodeCommitMessage, hfield P.partition _ message.partition rfl,
    hfield P.bucket _ message.bucket rfl, hfield P.dataFiles "new_files" message.newFiles rfl,
    hfield P.indexFiles _ message.newIndexFiles rfl,
    hfield P.dataFiles "deleted_files" message.deletedFiles rfl]
  rfl

/-- What was encoded is decoded again. -/
theorem decode_encodeCommitMessages {messages : List (CommitMessage P)} {text : String}
    (h : encodeCommitMessages messages = .ok text) : decodeCommitMessages text = .ok messages := by
  rw [decodeCommitMessages, P.fromText_toText h]
  refine ExceptRun.mapM_eq_ok.mpr (List.forall₂_map_left_iff.mpr (List.forall₂_same.mpr ?_))
  intro message _
  exact decodeCommitMessage_toJson message

/-! ## One partition -/

/-- A batch of commit messages: its rows, each a row count and encoded messages. -/
abbrev CommitMessageBatch := List (UInt64 × String)

/-- What a partition writes from and to; every call may fail. -/
structure PartitionSink (P : CommitFormat) where
  Writer : Type
  newWrite : Except String Writer
  /-- The input stream, batch by batch. -/
  execute : Except String (List (Except String RecordBatch))
  writeArrowBatch : Writer → RecordBatch → Except String Writer
  prepareCommit : Writer → Except String (List (CommitMessage P))

namespace PartitionSink

variable (sink : PartitionSink P)

/-- The loop of `write_partition`. -/
def writeBatches : sink.Writer → UInt64 → List (Except String RecordBatch) →
    Except String (UInt64 × sink.Writer)
  | writer, rowCount, [] => .ok (rowCount, writer)
  | writer, rowCount, batch :: data => do
      let batch ← batch
      let writer ← sink.writeArrowBatch writer batch
      writeBatches writer (rowCount + UInt64.ofNat batch.numRows) data

/-- The end of `write_partition`. -/
def prepare (written : UInt64 × sink.Writer) : Except String (UInt64 × List (CommitMessage P)) := do
  let messages ← sink.prepareCommit written.2
  return (written.1, messages)

/-- `write_partition`. -/
def writePartition : Except String (UInt64 × List (CommitMessage P)) := do
  let writer ← sink.newWrite
  let data ← sink.execute
  let written ← sink.writeBatches writer 0 data
  sink.prepare written

/-- `make_commit_message_batch`: one row. -/
def makeCommitMessageBatch (written : UInt64 × List (CommitMessage P)) :
    Except String CommitMessageBatch := do
  let messages ← encodeCommitMessages written.2
  return [(written.1, messages)]

/-- What the sink operator returns for the partition. -/
def result : Except String CommitMessageBatch := sink.writePartition >>= makeCommitMessageBatch

/-- The partition was written and its messages encoded. -/
def Succeeded : Prop := ∃ batch, sink.result = .ok batch

/-- The messages the partition prepared. -/
def prepared : List (CommitMessage P) :=
  match sink.writePartition with
  | .ok (_, messages) => messages
  | .error _ => []

/-- The number of rows of the input. -/
def inputRows : ℕ :=
  match sink.execute with
  | .ok data => (data.map fun
      | .ok batch => batch.numRows
      | .error _ => 0).sum
  | .error _ => 0

/-- Where the writing of a partition stands. -/
inductive Phase where
  | created
  | writing (writer : sink.Writer) (rowCount : UInt64) (data : List (Except String RecordBatch))
  | finished (result : Except String CommitMessageBatch)
  | sent

/-- The next step of a partition: open writer and input, write one batch, or prepare the commit. -/
def advance : sink.Phase → Option sink.Phase
  | .created => some <|
      match sink.newWrite, sink.execute with
      | .ok writer, .ok data => .writing writer 0 data
      | .error e, _ => .finished (.error e)
      | _, .error e => .finished (.error e)
  | .writing writer rowCount [] =>
      some (.finished (sink.prepare (rowCount, writer) >>= makeCommitMessageBatch))
  | .writing writer rowCount (batch :: data) => some <|
      match batch with
      | .error e => .finished (.error e)
      | .ok batch =>
          match sink.writeArrowBatch writer batch with
          | .error e => .finished (.error e)
          | .ok writer => .writing writer (rowCount + UInt64.ofNat batch.numRows) data
  | .finished _ => none
  | .sent => none

end PartitionSink

/-! ## The operator -/

/-- What the commit operator has so far. -/
inductive CommitPhase (P : CommitFormat) where
  | collecting (rowCount : UInt64) (messages : List (CommitMessage P))
  | done (result : Except String UInt64)

/-- An insert: the sinks of its partitions and Paimon's `commit`. -/
structure PaimonInsert (P : CommitFormat) where
  partitions : ℕ
  sink : Fin partitions → PartitionSink P
  commit : List (CommitMessage P) → Except String Unit

namespace PaimonInsert

variable (insert : PaimonInsert P)

/-- The partitions, the stream that gathers their batches, the commit operator, and the commits made
so far. -/
structure State where
  phase : ∀ i, (insert.sink i).Phase
  gathered : List (Except String CommitMessageBatch)
  operator : CommitPhase P
  commits : List (List (CommitMessage P))

/-- One step: of a partition, of the gathering stream, or of the commit operator. -/
inductive Action where
  | work (i : Fin insert.partitions)
  | send (i : Fin insert.partitions)
  | receive
  | close

/-- Before the first step. -/
def init : insert.State := ⟨fun _ => .created, [], .collecting 0 [], []⟩

/-- The rows of a batch, one by one. -/
def collectRows (rowCount : UInt64) (messages : List (CommitMessage P)) :
    CommitMessageBatch → Except String (UInt64 × List (CommitMessage P))
  | [] => .ok (rowCount, messages)
  | (rows, encoded) :: batch => do
      let decoded ← decodeCommitMessages encoded
      collectRows (rowCount + rows) (messages ++ decoded) batch

/-- Take in one item of the stream. -/
def collect (rowCount : UInt64) (messages : List (CommitMessage P))
    (item : Except String CommitMessageBatch) : CommitPhase P :=
  match item >>= collectRows rowCount messages with
  | .ok (rowCount, messages) => .collecting rowCount messages
  | .error e => .done (.error e)

/-- A partition with this phase has sent its batch. -/
def isSent {sink : PartitionSink P} : sink.Phase → Bool
  | .sent => true
  | _ => false

/-- The transitions. The gathering operator refuses an input without partitions. -/
def step (s : insert.State) : insert.Action → Option insert.State
  | .work i => do
      let phase ← (insert.sink i).advance (s.phase i)
      return { s with phase := Function.update s.phase i phase }
  | .send i =>
      match s.phase i with
      | .finished result => some { s with
          phase := Function.update s.phase i .sent
          gathered := s.gathered ++ [result] }
      | _ => none
  | .receive =>
      match s.operator, s.gathered with
      | .collecting rowCount messages, item :: rest => some { s with
          gathered := rest
          operator := collect rowCount messages item }
      | _, _ => none
  | .close =>
      match s.operator, s.gathered with
      | .collecting rowCount messages, [] =>
          if insert.partitions = 0 then some { s with operator := .done (.error
            "Internal error: CoalescePartitionsExec requires at least one input partition") }
          else if ∀ i, isSent (s.phase i) then some { s with
            operator := .done ((insert.commit messages).map fun _ => rowCount)
            commits := s.commits ++ [messages] }
          else none
      | _, _ => none

end PaimonInsert

/-! ## What a partition sends -/

namespace PartitionSink

variable {sink : PartitionSink P}

/-- The rows of the batches that arrived. -/
def rowsOf (data : List (Except String RecordBatch)) : ℕ :=
  (data.map fun
    | .ok batch => batch.numRows
    | .error _ => 0).sum

/-- The loop counts the rows it writes. -/
theorem rowCount_of_writeBatches {writer writer' : sink.Writer} {rowCount rowCount' : UInt64}
    {data : List (Except String RecordBatch)}
    (h : sink.writeBatches writer rowCount data = .ok (rowCount', writer')) :
    rowCount' = rowCount + UInt64.ofNat (rowsOf data) := by
  induction data generalizing writer rowCount with
  | nil =>
      obtain ⟨rfl, -⟩ := Prod.mk.inj (Except.ok.inj h)
      simp [rowsOf]
  | cons item data ih =>
      simp only [writeBatches, ExceptRun.bind_eq_ok] at h
      obtain ⟨batch, rfl, next, -, h⟩ := h
      rw [ih h, add_assoc, ← UInt64.ofNat_add]
      simp [rowsOf]

/-- The batch of a partition that succeeded: its row count and its messages. -/
theorem result_eq_ok {batch : CommitMessageBatch} (h : sink.result = .ok batch) :
    ∃ text, batch = [(UInt64.ofNat sink.inputRows, text)] ∧
      decodeCommitMessages text = .ok sink.prepared := by
  obtain ⟨⟨rowCount, messages⟩, hwritten, h⟩ := ExceptRun.bind_eq_ok.mp h
  obtain ⟨text, htext, h⟩ := ExceptRun.bind_eq_ok.mp h
  obtain rfl := ExceptRun.pure_eq_ok.mp h
  have hprepared : sink.prepared = messages := by rw [prepared, hwritten]
  refine ⟨text, ?_, hprepared ▸ decode_encodeCommitMessages htext⟩
  obtain ⟨writer, -, h⟩ := ExceptRun.bind_eq_ok.mp hwritten
  obtain ⟨data, hdata, h⟩ := ExceptRun.bind_eq_ok.mp h
  obtain ⟨⟨written, writer'⟩, hbatches, h⟩ := ExceptRun.bind_eq_ok.mp h
  obtain ⟨messages', -, h⟩ := ExceptRun.bind_eq_ok.mp h
  obtain ⟨rfl, -⟩ := Prod.mk.inj (ExceptRun.pure_eq_ok.mp h)
  have hrows : sink.inputRows = rowsOf data := by
    rw [inputRows, hdata]
    rfl
  rw [rowCount_of_writeBatches hbatches, hrows, zero_add]

/-- A phase on the way to the partition's result. -/
def OnTheWay : sink.Phase → Prop
  | .created => True
  | .writing writer rowCount data =>
      (sink.writeBatches writer rowCount data >>= sink.prepare >>= makeCommitMessageBatch) = sink.result
  | .finished result => result = sink.result
  | .sent => True

/-- A step of a partition stays on the way, and does not send. -/
theorem onTheWay_advance {phase phase' : sink.Phase} (h : sink.advance phase = some phase')
    (hphase : OnTheWay phase) : OnTheWay phase' ∧ phase' ≠ .sent := by
  cases phase with
  | created =>
      simp only [advance, Option.some.injEq] at h
      subst h
      cases hwriter : sink.newWrite with
      | error e =>
          refine ⟨?_, by simp⟩
          simp [OnTheWay, result, writePartition, hwriter, bind, Except.bind]
      | ok writer =>
          cases hdata : sink.execute with
          | error e =>
              refine ⟨?_, by simp⟩
              simp [OnTheWay, result, writePartition, hwriter, hdata, bind, Except.bind]
          | ok data =>
              refine ⟨?_, by simp⟩
              simp [OnTheWay, result, writePartition, hwriter, hdata, bind, Except.bind]
  | writing writer rowCount data =>
      cases data with
      | nil =>
          simp only [advance, Option.some.injEq] at h
          subst h
          exact ⟨hphase, by simp⟩
      | cons item data =>
          simp only [advance, Option.some.injEq] at h
          subst h
          cases item with
          | error e =>
              refine ⟨?_, by simp⟩
              simpa [OnTheWay, writeBatches, bind, Except.bind] using hphase
          | ok batch =>
              cases hwrite : sink.writeArrowBatch writer batch with
              | error e =>
                  refine ⟨?_, by simp [hwrite]⟩
                  simpa [OnTheWay, writeBatches, hwrite, bind, Except.bind] using hphase
              | ok writer' =>
                  refine ⟨?_, by simp [hwrite]⟩
                  simpa [OnTheWay, writeBatches, hwrite, bind, Except.bind] using hphase
  | finished result => cases h
  | sent => cases h

end PartitionSink

/-! ## Runs -/

namespace PaimonInsert

variable {insert : PaimonInsert P}

/-- Every partition succeeded, and there is one. -/
def AllSucceeded (insert : PaimonInsert P) : Prop :=
  0 < insert.partitions ∧ ∀ i, (insert.sink i).Succeeded

/-- The messages of some partitions, in order. -/
def preparedBy (insert : PaimonInsert P) (order : List (Fin insert.partitions)) :
    List (CommitMessage P) :=
  order.flatMap fun i => (insert.sink i).prepared

/-- The rows of some partitions. -/
def rowsBy (insert : PaimonInsert P) (order : List (Fin insert.partitions)) : ℕ :=
  (order.map fun i => (insert.sink i).inputRows).sum

/-- While the operator collects: the partitions that have sent are those received and those gathered,
and everything received has been taken in. -/
structure Collecting (s : insert.State) (rowCount : UInt64) (messages : List (CommitMessage P)) : Prop where
  order : ∃ received pending : List (Fin insert.partitions), (received ++ pending).Nodup ∧
    (∀ i, i ∈ received ++ pending ↔ isSent (s.phase i) = true) ∧
    s.gathered = pending.map (fun i => (insert.sink i).result) ∧
    (∀ i ∈ received, (insert.sink i).Succeeded) ∧
    messages = insert.preparedBy received ∧ rowCount = UInt64.ofNat (insert.rowsBy received)
  commits : s.commits = []

/-- Once the operator is done: it has committed everything, or nothing because of a failure. -/
inductive Done (s : insert.State) (result : Except String UInt64) : Prop where
  | committed (order : List (Fin insert.partitions)) (perm : order.Perm (List.finRange insert.partitions))
      (succeeded : insert.AllSucceeded) (commits : s.commits = [insert.preparedBy order])
      (result_eq : result = (insert.commit (insert.preparedBy order)).map fun _ =>
        UInt64.ofNat (insert.rowsBy order))
  | failed (failed : ¬ insert.AllSucceeded) (commits : s.commits = [])
      (result_eq : ∃ e, result = .error e)

/-- What every reachable state satisfies. -/
structure Invariant (s : insert.State) : Prop where
  onTheWay : ∀ i, PartitionSink.OnTheWay (s.phase i)
  operator : match s.operator with
    | .collecting rowCount messages => Collecting s rowCount messages
    | .done result => Done s result

theorem invariant_init : Invariant insert.init where
  onTheWay _ := trivial
  operator := ⟨⟨[], [], by simp, fun i => by simp [init, isSent], rfl, by simp, rfl, rfl⟩, rfl⟩

/-- The operator takes in the batch of a partition that succeeded. -/
theorem collect_result {i : Fin insert.partitions} {rowCount : UInt64}
    {messages : List (CommitMessage P)} (h : (insert.sink i).Succeeded) :
    collect rowCount messages (insert.sink i).result =
      .collecting (rowCount + UInt64.ofNat (insert.sink i).inputRows)
        (messages ++ (insert.sink i).prepared) := by
  obtain ⟨batch, hbatch⟩ := h
  obtain ⟨text, rfl, hdecoded⟩ := PartitionSink.result_eq_ok hbatch
  simp [collect, hbatch, collectRows, hdecoded, bind, Except.bind]

/-- An error ends the collecting. -/
theorem collect_error {i : Fin insert.partitions} (h : ¬ (insert.sink i).Succeeded) :
    ∃ e, ∀ rowCount (messages : List (CommitMessage P)),
      collect rowCount messages (insert.sink i).result = .done (.error e) := by
  cases hresult : (insert.sink i).result with
  | ok batch => exact absurd ⟨batch, hresult⟩ h
  | error e => exact ⟨e, fun _ _ => rfl⟩

theorem invariant_work {s s' : insert.State} {i : Fin insert.partitions} (hs : Invariant s)
    (h : insert.step s (.work i) = some s') : Invariant s' := by
  obtain ⟨phase, hphase, h⟩ := Option.bind_eq_some_iff.mp h
  obtain rfl := Option.some.inj h
  obtain ⟨honTheWay, hnotSent⟩ := PartitionSink.onTheWay_advance hphase (hs.onTheWay i)
  have hsent : ∀ j, isSent (Function.update s.phase i phase j) = isSent (s.phase j) := by
    intro j
    by_cases hj : j = i
    · subst hj
      rw [Function.update_self]
      cases hold : s.phase j <;> rw [hold] at hphase <;> cases phase <;>
        first | rfl | exact absurd rfl hnotSent | cases hphase
    · rw [Function.update_of_ne hj]
  refine ⟨fun j => ?_, ?_⟩
  · show PartitionSink.OnTheWay (Function.update s.phase i phase j)
    by_cases hj : j = i
    · subst hj
      rwa [Function.update_self]
    · rw [Function.update_of_ne hj]
      exact hs.onTheWay j
  · have hoperator := hs.operator
    cases hop : s.operator with
    | collecting rowCount messages =>
        rw [hop] at hoperator
        obtain ⟨received, pending, hnodup, hmem, hrest⟩ := hoperator.order
        exact ⟨⟨received, pending, hnodup, fun j => by rw [hmem, hsent], hrest⟩, hoperator.commits⟩
    | done result =>
        rw [hop] at hoperator
        cases hoperator with
        | committed order perm succeeded commits result_eq =>
            exact .committed order perm succeeded commits result_eq
        | failed failed commits result_eq => exact .failed failed commits result_eq

theorem invariant_send {s s' : insert.State} {i : Fin insert.partitions} (hs : Invariant s)
    (h : insert.step s (.send i) = some s') : Invariant s' := by
  simp only [step] at h
  cases hphase : s.phase i with
  | created => simp [hphase] at h
  | writing writer rowCount data => simp [hphase] at h
  | sent => simp [hphase] at h
  | finished result =>
      simp only [hphase, Option.some.injEq] at h
      subst h
      have hresult : result = (insert.sink i).result := by
        have honTheWay := hs.onTheWay i
        rwa [hphase] at honTheWay
      refine ⟨fun j => ?_, ?_⟩
      · show PartitionSink.OnTheWay (Function.update s.phase i .sent j)
        by_cases hj : j = i
        · subst hj
          rw [Function.update_self]
          trivial
        · rw [Function.update_of_ne hj]
          exact hs.onTheWay j
      · have hoperator := hs.operator
        cases hop : s.operator with
        | collecting rowCount messages =>
            rw [hop] at hoperator
            obtain ⟨received, pending, hnodup, hmem, hgathered, hrest⟩ := hoperator.order
            have hfresh : i ∉ received ++ pending := by
              rw [hmem, hphase]
              simp [isSent]
            refine ⟨⟨received, pending ++ [i], ?_, ?_, ?_, hrest⟩, hoperator.commits⟩
            · rw [← List.append_assoc]
              exact hnodup.append (List.nodup_singleton i) (by simpa using hfresh)
            · intro j
              show _ ↔ isSent (Function.update s.phase i .sent j) = true
              rw [← List.append_assoc, List.mem_append, List.mem_singleton, hmem]
              by_cases hj : j = i
              · subst hj
                simp [isSent]
              · simp [hj]
            · simp [hgathered, hresult]
        | done result =>
            rw [hop] at hoperator
            cases hoperator with
            | committed order perm succeeded commits result_eq =>
                exact .committed order perm succeeded commits result_eq
            | failed failed commits result_eq => exact .failed failed commits result_eq

theorem invariant_receive {s s' : insert.State} (hs : Invariant s)
    (h : insert.step s .receive = some s') : Invariant s' := by
  simp only [step] at h
  have hoperator := hs.operator
  cases hop : s.operator with
  | done result => simp [hop] at h
  | collecting rowCount messages =>
      rw [hop] at hoperator
      obtain ⟨received, pending, hnodup, hmem, hgathered, hsucceeded, rfl, rfl⟩ := hoperator.order
      cases pending with
      | nil => simp [hop, hgathered] at h
      | cons i pending =>
          simp only [hop, hgathered, List.map_cons, Option.some.injEq] at h
          subst h
          refine ⟨hs.onTheWay, ?_⟩
          by_cases hi : (insert.sink i).Succeeded
          · simp only [collect_result hi]
            refine ⟨⟨received ++ [i], pending, by simpa using hnodup, by simpa using hmem, rfl, ?_, ?_, ?_⟩,
              hoperator.commits⟩
            · intro j hj
              rcases List.mem_append.mp hj with hj | hj
              · exact hsucceeded j hj
              · rwa [List.mem_singleton.mp hj]
            · simp [preparedBy]
            · simp [rowsBy, UInt64.ofNat_add]
          · obtain ⟨e, he⟩ := collect_error hi
            simp only [he]
            exact .failed (fun hall => hi (hall.2 i)) hoperator.commits ⟨e, rfl⟩

theorem invariant_close {s s' : insert.State} (hs : Invariant s)
    (h : insert.step s .close = some s') : Invariant s' := by
  simp only [step] at h
  have hoperator := hs.operator
  cases hop : s.operator with
  | done result => simp [hop] at h
  | collecting rowCount messages =>
      rw [hop] at hoperator
      obtain ⟨received, pending, hnodup, hmem, hgathered, hsucceeded, rfl, rfl⟩ := hoperator.order
      cases pending with
      | cons i pending => simp [hop, hgathered] at h
      | nil =>
          simp only [hop, hgathered, List.map_nil] at h
          by_cases hzero : insert.partitions = 0
          · rw [if_pos hzero] at h
            obtain rfl := Option.some.inj h
            have hnone : ¬ insert.AllSucceeded := fun hall => absurd hzero hall.1.ne'
            exact ⟨hs.onTheWay, .failed hnone hoperator.commits ⟨_, rfl⟩⟩
          · rw [if_neg hzero] at h
            by_cases hall : ∀ i, isSent (s.phase i) = true
            · rw [if_pos hall] at h
              obtain rfl := Option.some.inj h
              -- Nothing is pending any more, so everything that was sent has been received.
              have hreceived : ∀ i, i ∈ received := by
                intro i
                simpa using (hmem i).mpr (hall i)
              have hperm : received.Perm (List.finRange insert.partitions) := by
                refine (List.perm_ext_iff_of_nodup ?_ (List.nodup_finRange _)).mpr fun i => ?_
                · simpa using hnodup
                · simp [hreceived i]
              have hsuccess : insert.AllSucceeded :=
                ⟨Nat.pos_of_ne_zero hzero, fun i => hsucceeded i (hreceived i)⟩
              refine ⟨hs.onTheWay, .committed received hperm hsuccess ?_ rfl⟩
              simp [hoperator.commits]
            · rw [if_neg hall] at h
              cases h

theorem invariant_step (s : insert.State) (action : insert.Action) (s' : insert.State)
    (hs : Invariant s) (h : insert.step s action = some s') : Invariant s' := by
  cases action with
  | work i => exact invariant_work hs h
  | send i => exact invariant_send hs h
  | receive => exact invariant_receive hs h
  | close => exact invariant_close hs h

/-! ## Termination -/

/-- The steps a partition has left, its batch counted as one of the operator's steps. -/
def remaining {sink : PartitionSink P} : sink.Phase → ℕ
  | .created =>
      match sink.execute with
      | .ok data => data.length + 4
      | .error _ => 4
  | .writing _ _ data => data.length + 3
  | .finished _ => 2
  | .sent => 0

theorem remaining_advance {sink : PartitionSink P} {phase phase' : sink.Phase}
    (h : sink.advance phase = some phase') : remaining phase' < remaining phase := by
  cases phase with
  | created =>
      simp only [PartitionSink.advance, Option.some.injEq] at h
      subst h
      cases hwriter : sink.newWrite <;> cases hdata : sink.execute <;> simp [remaining, hdata]
  | writing writer rowCount data =>
      cases data with
      | nil =>
          simp only [PartitionSink.advance, Option.some.injEq] at h
          subst h
          simp [remaining]
      | cons item data =>
          simp only [PartitionSink.advance, Option.some.injEq] at h
          subst h
          cases item with
          | error e => simp [remaining]
          | ok batch =>
              cases hwrite : sink.writeArrowBatch writer batch <;> simp [remaining, hwrite]
  | finished result => cases h
  | sent => cases h

/-- The steps the operator has left. -/
def CommitPhase.remaining : CommitPhase P → ℕ
  | .collecting _ _ => 1
  | .done _ => 0

/-- A bound on the steps that are left. -/
def stepsLeft (s : insert.State) : ℕ :=
  (∑ i, remaining (s.phase i)) + s.gathered.length + CommitPhase.remaining s.operator

/-- Changing one partition changes one summand. -/
theorem sum_remaining_update (phase : ∀ i, (insert.sink i).Phase) (i : Fin insert.partitions)
    (next : (insert.sink i).Phase) :
    (∑ j, remaining (Function.update phase i next j)) + remaining (phase i) =
      (∑ j, remaining (phase j)) + remaining next := by
  have hi := Finset.mem_univ i
  rw [← Finset.add_sum_erase _ (fun j => remaining (Function.update phase i next j)) hi,
    ← Finset.add_sum_erase _ (fun j => remaining (phase j)) hi]
  have hrest : ∑ j ∈ Finset.univ.erase i, remaining (Function.update phase i next j) =
      ∑ j ∈ Finset.univ.erase i, remaining (phase j) := by
    refine Finset.sum_congr rfl fun j hj => ?_
    rw [Function.update_of_ne (Finset.ne_of_mem_erase hj)]
  simp only [Function.update_self, hrest]
  omega

/-- Every step is one step less to go. -/
theorem stepsLeft_step (s : insert.State) (action : insert.Action) (s' : insert.State)
    (h : insert.step s action = some s') : stepsLeft s' < stepsLeft s := by
  cases action with
  | work i =>
      obtain ⟨phase, hphase, h⟩ := Option.bind_eq_some_iff.mp h
      obtain rfl := Option.some.inj h
      have hless := remaining_advance hphase
      have hsum := sum_remaining_update s.phase i phase
      simp only [stepsLeft]
      omega
  | send i =>
      simp only [step] at h
      cases hphase : s.phase i with
      | created => simp [hphase] at h
      | writing writer rowCount data => simp [hphase] at h
      | sent => simp [hphase] at h
      | finished result =>
          simp only [hphase, Option.some.injEq] at h
          subst h
          have hsum := sum_remaining_update s.phase i .sent
          rw [hphase] at hsum
          simp only [stepsLeft, List.length_append, List.length_singleton]
          simp only [remaining] at hsum ⊢
          omega
  | receive =>
      simp only [step] at h
      cases hop : s.operator with
      | done result => simp [hop] at h
      | collecting rowCount messages =>
          cases hgathered : s.gathered with
          | nil => simp [hop, hgathered] at h
          | cons item rest =>
              simp only [hop, hgathered, Option.some.injEq] at h
              subst h
              have hle : CommitPhase.remaining (collect rowCount messages item) ≤ 1 := by
                cases collect rowCount messages item <;> simp [CommitPhase.remaining]
              simp only [stepsLeft, hop, hgathered, List.length_cons, CommitPhase.remaining] at hle ⊢
              omega
  | close =>
      simp only [step] at h
      split at h
      · rename_i rowCount messages hop hgathered
        split at h
        · obtain rfl := Option.some.inj h
          simp [stepsLeft, hop, CommitPhase.remaining]
        · split at h
          · obtain rfl := Option.some.inj h
            simp [stepsLeft, hop, CommitPhase.remaining]
          · cases h
      · cases h

/-- As long as the operator is not done, something can happen. -/
theorem exists_step {s : insert.State} (h : ∀ result, s.operator ≠ .done result) :
    ∃ action, (insert.step s action).isSome := by
  cases hop : s.operator with
  | done result => exact absurd hop (h result)
  | collecting rowCount messages =>
      cases hgathered : s.gathered with
      | cons item rest => exact ⟨.receive, by simp [step, hop, hgathered]⟩
      | nil =>
          by_cases hzero : insert.partitions = 0
          · exact ⟨.close, by simp [step, hop, hgathered, if_pos hzero]⟩
          · by_cases hall : ∀ i, isSent (s.phase i) = true
            · exact ⟨.close, by simp [step, hop, hgathered, if_neg hzero, if_pos hall]⟩
            · obtain ⟨i, hi⟩ := not_forall.mp hall
              cases hphase : s.phase i with
              | created => exact ⟨.work i, by simp [step, hphase, PartitionSink.advance]⟩
              | writing writer rows data =>
                  refine ⟨.work i, ?_⟩
                  cases data <;> simp [step, hphase, PartitionSink.advance]
              | finished result => exact ⟨.send i, by simp [step, hphase]⟩
              | sent => simp [hphase, isSent] at hi

/-! ## Everything once or nothing -/

/-- The insert commits at most once, exactly under a condition, and then the messages of all
partitions; a count it reports is that of all input rows. -/
structure CommitsExactlyWhen (condition : Prop) (s : insert.State) : Prop where
  once : s.commits.length ≤ 1
  onlyWhen : s.commits ≠ [] → condition
  whenDone : condition → ∀ result, s.operator = .done result → s.commits ≠ []
  everything : ∀ messages ∈ s.commits,
    messages.Perm (insert.preparedBy (List.finRange insert.partitions))
  count : ∀ rowCount, s.operator = .done (.ok rowCount) →
    rowCount = UInt64.ofNat (insert.rowsBy (List.finRange insert.partitions))

/-- The messages of the partitions do not depend on their order, up to a permutation. -/
theorem preparedBy_perm {order order' : List (Fin insert.partitions)} (h : order.Perm order') :
    (insert.preparedBy order).Perm (insert.preparedBy order') :=
  h.flatMap_right _

theorem rowsBy_perm {order order' : List (Fin insert.partitions)} (h : order.Perm order') :
    insert.rowsBy order = insert.rowsBy order' :=
  (h.map _).sum_eq

theorem commitsExactlyWhen_of_invariant {s : insert.State} (hs : Invariant s) :
    CommitsExactlyWhen insert.AllSucceeded s := by
  have hoperator := hs.operator
  cases hop : s.operator with
  | collecting rowCount messages =>
      rw [hop] at hoperator
      have hnone := hoperator.commits
      refine ⟨by simp [hnone], fun h => absurd hnone h, ?_, by simp [hnone], ?_⟩
      · intro _ result h
        cases hop.symm.trans h
      · intro rowCount h
        cases hop.symm.trans h
  | done result =>
      rw [hop] at hoperator
      cases hoperator with
      | committed order perm succeeded commits result_eq =>
          refine ⟨by simp [commits], fun _ => succeeded, fun _ _ _ => by simp [commits], ?_, ?_⟩
          · intro messages hmessages
            rw [commits, List.mem_singleton] at hmessages
            exact hmessages ▸ preparedBy_perm perm
          · intro rowCount h
            rw [hop, CommitPhase.done.injEq, result_eq, ExceptRun.map_eq_ok] at h
            obtain ⟨-, -, h⟩ := h
            rw [← h, rowsBy_perm perm]
      | failed failed commits result_eq =>
          refine ⟨by simp [commits], fun h => absurd commits h, fun h => absurd h failed, ?_, ?_⟩
          · simp [commits]
          · intro rowCount h
            obtain ⟨e, rfl⟩ := result_eq
            rw [hop, CommitPhase.done.injEq] at h
            cases h

/-- In every run, an insert commits the messages of all partitions once or nothing, and it commits
when all partitions have succeeded and there is one. Runs are bounded and end with the operator
done. -/
theorem commits_all_or_nothing {actions : List insert.Action} {s : insert.State}
    (h : Transition.exec insert.step insert.init actions = some s) :
    CommitsExactlyWhen insert.AllSucceeded s ∧
      ((∀ action, insert.step s action = none) → ∃ result, s.operator = .done result) ∧
      actions.length ≤ stepsLeft insert.init := by
  have hs : Invariant s := Transition.invariant_of_exec invariant_step invariant_init h
  refine ⟨commitsExactlyWhen_of_invariant hs, fun hstuck => ?_, ?_⟩
  · by_contra hrunning
    obtain ⟨action, haction⟩ := exists_step (not_exists.mp hrunning)
    simp [hstuck action] at haction
  · have hlength := Transition.length_add_le_of_exec stepsLeft_step h
    omega

end PaimonInsert

/-! ## Two partitions -/

namespace Sample

/-- JSON, as far as one commit message needs it. -/
inductive Json where
  | bytes (values : List UInt8)
  | number (value : Int32)
  | strings (values : List String)
  | object (fields : List (String × Json))

def serde {T : Type} (toValue : T → Json) (read : Json → Option T)
    (h : ∀ value, read (toValue value) = some value) : Serde Json T where
  toValue := toValue
  fromValue value := (read value).elim (.error "invalid type") .ok
  fromValue_toValue value := by rw [h]; rfl

/-- The text of the messages of a partition that wrote one file of bucket 0. -/
def oneFileText : String :=
  "[\x7b\"bucket\":0,\"deleted_files\":[],\"new_files\":[\"data-0.parquet\"]," ++
    "\"new_index_files\":[],\"partition\":[]\x7d]"

def oneFile : Json :=
  .object [("partition", .bytes []), ("bucket", .number 0), ("new_files", .strings ["data-0.parquet"]),
    ("new_index_files", .strings []), ("deleted_files", .strings [])]

/-- A format that can write and read these messages. -/
def commitFormat : CommitFormat where
  DataFile := String
  IndexFile := String
  Json := Json
  partition := serde .bytes (fun | .bytes values => some values | _ => none) fun _ => rfl
  bucket := serde .number (fun | .number value => some value | _ => none) fun _ => rfl
  dataFiles := serde .strings (fun | .strings values => some values | _ => none) fun _ => rfl
  indexFiles := serde .strings (fun | .strings values => some values | _ => none) fun _ => rfl
  object := .object
  get value name :=
    match value with
    | .object fields => fields.lookup name
    | _ => none
  get_object _ _ _ := rfl
  toText
    | [] => .ok "[]"
    | [.object [("partition", .bytes []), ("bucket", .number 0), ("new_files", .strings ["data-0.parquet"]),
        ("new_index_files", .strings []), ("deleted_files", .strings [])]] => .ok oneFileText
    | _ => .error "unsupported"
  fromText text :=
    if text = "[]" then .ok []
    else if text = oneFileText then .ok [oneFile]
    else .error "unsupported"
  fromText_toText := by
    intro values text h
    split at h
    · obtain rfl := Except.ok.inj h
      rfl
    · obtain rfl := Except.ok.inj h
      have hne : oneFileText ≠ "[]" := by decide +kernel
      rw [if_neg hne, if_pos rfl]
      rfl
    · cases h

def oneFileMessage : CommitMessage commitFormat := ⟨[], 0, ["data-0.parquet"], [], []⟩

/-- A partition whose writer counts its batches and makes one file of them, if there are any. -/
def sinkOf (data : List (Except String RecordBatch)) : PartitionSink commitFormat where
  Writer := ℕ
  newWrite := .ok 0
  execute := .ok data
  writeArrowBatch written _ := .ok (written + 1)
  prepareCommit
    | 0 => .ok []
    | _ => .ok [oneFileMessage]

/-- The input has one row in its first partition and none in the others. -/
def insertOf (partitions : ℕ) : PaimonInsert commitFormat where
  partitions := partitions
  sink i := sinkOf (if i.1 = 0 then [.ok ⟨[⟨"id", .int64, false⟩], [[.integer 7]]⟩] else [])
  commit _ := .ok ()

/-- Two partitions, the second one faster. -/
def secondFirst : List (insertOf 2).Action :=
  let first : Fin (insertOf 2).partitions := (0 : Fin 2)
  let second : Fin (insertOf 2).partitions := (1 : Fin 2)
  [.work first, .work second, .work second, .send second, .receive, .work first, .work first,
    .send first, .receive, .close]

end Sample

namespace PaimonInsert

/-- One commit, of the one message, with one row reported. -/
theorem commits_all_or_nothing_secondFirst :
    ∃ s, Transition.exec (Sample.insertOf 2).step (Sample.insertOf 2).init Sample.secondFirst = some s ∧
      s.commits = [[Sample.oneFileMessage]] ∧ s.operator = .done (.ok 1) ∧
      CommitsExactlyWhen (Sample.insertOf 2).AllSucceeded s := by
  refine ⟨_, rfl, ?_, ?_, (@commits_all_or_nothing _ _ Sample.secondFirst _ rfl).1⟩
  · rfl
  · rfl

/-- Without partitions there is none that fails, and still nothing is committed: the gathering
operator refuses to run. -/
theorem not_commitsExactlyWhen_noPartitions :
    let insert := Sample.insertOf 0
    ∃ s, Transition.exec insert.step insert.init [.close] = some s ∧
      ¬ CommitsExactlyWhen (∀ i, (insert.sink i).Succeeded) s := by
  refine ⟨_, rfl, fun h => ?_⟩
  have hcommitted := h.whenDone (fun i => i.elim0) _ rfl
  exact hcommitted rfl

end PaimonInsert

end BrewDB

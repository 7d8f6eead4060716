import BrewDB.Runtime.Scheduler

/-!
# Exchange channels and routing

Reference: `brewdb-execution/src/runtime/exchange.rs` (channels and routing) and
`build_fragment_instances_from_graph` of `runtime/coordinator.rs`.

The hash of a row is one fixed function of the types and values of the key columns, in key order;
it is a parameter of routing.
-/

namespace BrewDB

/-- How a page encodes its batches. -/
inductive ExchangeDataEncoding where
  | arrowIpcStream
deriving DecidableEq, Repr

/-- Failures of the exchange runtime. -/
inductive ExchangeRuntimeError where
  | sourceFragmentNotScheduled (fragmentId : PlanFragmentId)
  | targetFragmentNotScheduled (fragmentId : PlanFragmentId)
  | exchangeReceiverAlreadyTaken (exchangeId : ExchangeId)
  | exchangeReceiverClosed (exchangeId : ExchangeId)
  | emptyExchangeOutputs
  | invalidExchangeRouting (reason : String)
  | ipcSerializationFailed (reason : String)
  | unsupportedDataEncoding (encoding : ExchangeDataEncoding)
  | bufferLockPoisoned
deriving DecidableEq, Repr

/-! ## Channels -/

/-- The instances of a fragment, in the order they were scheduled. -/
def ExecutionGraph.placements (graph : ExecutionGraph) (id : PlanFragmentId) :
    List FragmentInstance :=
  graph.instances.filter (·.fragmentId = id)

/-- The ends of one channel. -/
structure ChannelEnds where
  exchange : ExchangeNode
  source : FragmentInstance
  target : FragmentInstance

/-- The channels of one exchange: every source instance with every target instance. -/
def exchangeEnds (graph : ExecutionGraph) (exchange : ExchangeNode) :
    Except ExchangeRuntimeError (List ChannelEnds) :=
  if (graph.placements exchange.sourceFragmentId).isEmpty then
    .error (.sourceFragmentNotScheduled exchange.sourceFragmentId)
  else if (graph.placements exchange.targetFragmentId).isEmpty then
    .error (.targetFragmentNotScheduled exchange.targetFragmentId)
  else
    .ok ((graph.placements exchange.sourceFragmentId).flatMap fun source =>
      (graph.placements exchange.targetFragmentId).map fun target => ⟨exchange, source, target⟩)

/-- The descriptor of the `index`-th channel; the id is the index as a `u32`. -/
def ChannelEnds.descriptor (ends : ChannelEnds) (index : ℕ) : ExchangeChannelDescriptor where
  exchangeId := index % 2 ^ 32
  sourceFragmentId := ends.exchange.sourceFragmentId
  targetFragmentId := ends.exchange.targetFragmentId
  sourceInstanceId := ends.source.instanceId
  targetInstanceId := ends.target.instanceId
  sourceWorkerId := ends.source.workerId
  sourceEndpoint := ends.source.endpoint
  targetWorkerId := ends.target.workerId
  targetEndpoint := ends.target.endpoint
  scope := ends.exchange.scope
  exchangeType := ends.exchange.exchangeType
  partitioningScheme := ends.exchange.partitioningScheme

/-- `build_exchange_channels`: channels are numbered from 0 on in the order they are pushed. -/
def buildExchangeChannels (exchanges : List ExchangeNode) (graph : ExecutionGraph) :
    Except ExchangeRuntimeError (List ExchangeChannelDescriptor) := do
  let ends ← exchanges.mapM (exchangeEnds graph)
  return ends.flatten.zipIdx.map fun e => e.1.descriptor e.2

/-- `build_fragment_instances_from_graph`: hand every instance its channels. -/
def buildFragmentInstancesFromGraph (graph : ExecutionGraph) (exchanges : List ExchangeNode)
    (tableCatalogs : List TableCatalogEntry) :
    Except ExchangeRuntimeError (List FragmentInstance) := do
  let channels ← buildExchangeChannels exchanges graph
  return graph.instances.map fun inst => { inst with
    exchangeInputs := channels.filter fun channel =>
      channel.targetFragmentId = inst.fragmentId && channel.targetInstanceId = inst.instanceId
    exchangeOutputs := channels.filter fun channel =>
      channel.sourceFragmentId = inst.fragmentId && channel.sourceInstanceId = inst.instanceId
    tableCatalogs := tableCatalogs }

/-! ## Routing -/

/-- What is hashed of one key column. -/
abbrev TypedCell := Option ArrowDataType × Value

/-- The error of Arrow's `Schema::index_of`. -/
def fieldNotFound (schema : List Field) (name : String) : String :=
  "Arrow error: Schema error: Unable to get field named \"" ++ name ++ "\". Valid fields: [" ++
    String.intercalate ", " (schema.map fun f => "\"" ++ f.name ++ "\"") ++ "]"

/-- The positions of the partition keys: the first field of each key's unqualified name. -/
def partitionIndices (partitionKeys : List Column) (schema : List Field) :
    Except ExchangeRuntimeError (List ℕ) :=
  partitionKeys.mapM fun key =>
    match RecordBatch.indexOf schema key.name with
    | some index => .ok index
    | none => .error (.invalidExchangeRouting (fieldNotFound schema key.name))

/-- The hashed part of a row. -/
def hashedCells (schema : List Field) (indices : List ℕ) (row : Row) : List TypedCell :=
  indices.map fun index => RecordBatch.typedCell schema index row

/-- `route_repartition_batch`: each row goes to the channel its hash selects; a channel that gets no
row gets no batch. -/
def routeRepartitionBatch (hash : List TypedCell → ℕ) (partitionKeys : List Column)
    (channels : List ExchangeChannelDescriptor) (batch : RecordBatch) :
    Except ExchangeRuntimeError (List (ExchangeChannelDescriptor × RecordBatch)) :=
  if partitionKeys.isEmpty then
    .error (.invalidExchangeRouting "repartition exchange requires at least one partition key")
  else do
    let indices ← partitionIndices partitionKeys batch.schema
    return channels.zipIdx.filterMap fun channel =>
      let routed := batch.filterRows fun row =>
        hash (hashedCells batch.schema indices row) % channels.length = channel.2
      if routed.rows.isEmpty then none else some (channel.1, routed)

/-- `route_exchange_batch`: the first channel decides how all of them are used. -/
def routeExchangeBatch (hash : List TypedCell → ℕ) (channels : List ExchangeChannelDescriptor)
    (batch : RecordBatch) :
    Except ExchangeRuntimeError (List (ExchangeChannelDescriptor × RecordBatch)) :=
  match channels with
  | [] => .error .emptyExchangeOutputs
  | first :: _ =>
      match first.exchangeType with
      | .gather | .replicate => .ok (channels.map fun channel => (channel, batch))
      | .repartition =>
          routeRepartitionBatch hash first.partitioningScheme.partitionKeys channels batch

/-! ## What routing does -/

/-- The channels of one source instance for an exchange: told apart, and carrying the exchange's type
and partition keys. -/
structure ChannelsOf (exchange : ExchangeNode) (channels : List ExchangeChannelDescriptor) : Prop where
  nodup : channels.Nodup
  ne_nil : channels ≠ []
  exchangeType_eq : ∀ channel ∈ channels, channel.exchangeType = exchange.exchangeType
  scheme_eq : ∀ channel ∈ channels, channel.partitioningScheme = exchange.partitioningScheme

/-- The partition indices are the fields of the key names, one by one. -/
theorem partitionIndices_eq_ok {keys : List Column} {schema : List Field} {indices : List ℕ} :
    partitionIndices keys schema = .ok indices ↔
      List.Forall₂ (fun key index => RecordBatch.indexOf schema key.name = some index) keys indices := by
  rw [partitionIndices, ExceptRun.mapM_eq_ok]
  refine ⟨List.Forall₂.imp fun key index h => ?_, List.Forall₂.imp fun key index h => by rw [h]⟩
  cases hkey : RecordBatch.indexOf schema key.name with
  | none => simp [hkey] at h
  | some index' => simpa [hkey] using h

/-- Partition keys resolve exactly when every key name is a field. -/
theorem exists_partitionIndices_iff {keys : List Column} {schema : List Field} :
    (∃ indices, partitionIndices keys schema = .ok indices) ↔
      ∀ key ∈ keys, ∃ index, RecordBatch.indexOf schema key.name = some index := by
  simp only [partitionIndices_eq_ok]
  induction keys with
  | nil => simp
  | cons key keys ih =>
      rw [List.forall_mem_cons, ← ih]
      simp only [List.forall₂_cons_left_iff]
      constructor
      · rintro ⟨-, index, rest, hindex, hrest, rfl⟩
        exact ⟨⟨index, hindex⟩, rest, hrest⟩
      · rintro ⟨⟨index, hindex⟩, rest, hrest⟩
        exact ⟨_, index, rest, hindex, hrest, rfl⟩

/-- Routing succeeds unless a repartition has no key or a key without a field. -/
theorem routeExchangeBatch_eq_ok_iff {hash : List TypedCell → ℕ} {exchange : ExchangeNode}
    {channels : List ExchangeChannelDescriptor} (h : ChannelsOf exchange channels)
    (batch : RecordBatch) :
    (∃ out, routeExchangeBatch hash channels batch = .ok out) ↔
      (exchange.exchangeType = .repartition →
        exchange.partitioningScheme.partitionKeys ≠ [] ∧
        ∀ key ∈ exchange.partitioningScheme.partitionKeys,
          ∃ index, RecordBatch.indexOf batch.schema key.name = some index) := by
  obtain ⟨first, rest, rfl⟩ := List.exists_cons_of_ne_nil h.ne_nil
  rw [← h.exchangeType_eq first List.mem_cons_self, ← h.scheme_eq first List.mem_cons_self]
  cases htype : first.exchangeType with
  | gather => simp [routeExchangeBatch, htype]
  | replicate => simp [routeExchangeBatch, htype]
  | repartition =>
      simp only [routeExchangeBatch, htype, routeRepartitionBatch, forall_const]
      rw [← exists_partitionIndices_iff]
      cases hkeys : first.partitioningScheme.partitionKeys with
      | nil => simp
      | cons key keys =>
          simp only [List.isEmpty_cons, Bool.false_eq_true, if_false, ExceptRun.bind_eq_ok,
            ExceptRun.pure_eq_ok, ne_eq, reduceCtorEq, not_false_eq_true, true_and]
          constructor
          · rintro ⟨out, indices, hindices, -⟩
            exact ⟨indices, hindices⟩
          · rintro ⟨indices, hindices⟩
            exact ⟨_, indices, hindices, rfl⟩

/-- Routed parts go to the given channels. -/
theorem mem_channels_of_routeExchangeBatch {hash : List TypedCell → ℕ}
    {channels : List ExchangeChannelDescriptor} {batch : RecordBatch}
    {out : List (ExchangeChannelDescriptor × RecordBatch)}
    (h : routeExchangeBatch hash channels batch = .ok out) : ∀ part ∈ out, part.1 ∈ channels := by
  cases channels with
  | nil => cases h
  | cons first rest =>
      have hcopy : ∀ part ∈ (first :: rest).map (fun channel => (channel, batch)),
          part.1 ∈ first :: rest := by
        intro part hpart
        obtain ⟨channel, hchannel, rfl⟩ := List.mem_map.mp hpart
        exact hchannel
      cases htype : first.exchangeType with
      | gather =>
          rw [routeExchangeBatch, htype] at h
          obtain rfl := Except.ok.inj h
          exact hcopy
      | replicate =>
          rw [routeExchangeBatch, htype] at h
          obtain rfl := Except.ok.inj h
          exact hcopy
      | repartition =>
          simp only [routeExchangeBatch, htype, routeRepartitionBatch] at h
          split at h
          · cases h
          · obtain ⟨indices, -, h⟩ := ExceptRun.bind_eq_ok.mp h
            obtain rfl := ExceptRun.pure_eq_ok.mp h
            intro part hpart
            obtain ⟨⟨channel, ordinal⟩, hzip, hsome⟩ := List.mem_filterMap.mp hpart
            simp only [Option.ite_none_left_eq_some, Option.some.injEq] at hsome
            rw [← hsome.2]
            exact List.mem_of_getElem? (List.mem_zipIdx_iff_getElem?.mp hzip)

end BrewDB

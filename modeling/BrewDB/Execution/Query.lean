import BrewDB.Execution.Executor
import BrewDB.Runtime.Channels

/-!
# The network of a planned query

Reference: `QueryCoordinator::build_fragment_instances` of `brewdb-execution/src/runtime/coordinator.rs`.

A planned query is one that went through the planner, the scheduler and the channel builder. Its
channels form a wired network: each has one source and one target instance, and data flows from
fragments with larger ids to fragments with smaller ids.
-/

namespace BrewDB

/-- A channel that one instance writes to, and only one reads from. -/
structure ChannelOf {ι : Type} (N : Network ι) (source target : ι) (id : ExchangeId) : Prop where
  source_unique : ∀ s, id ∈ N.outputIds s → s = source
  target_unique : ∀ t, id ∈ N.inputs t → t = target
  nodup : (N.outputIds source).Nodup

/-- Every channel has one source and one target, and there is no cycle. -/
structure Network.Wired {ι : Type} (N : Network ι) : Prop where
  target : ∀ {s id}, id ∈ N.outputIds s → ∃ t, id ∈ N.inputs t ∧ ChannelOf N s t id
  source : ∀ {t id}, id ∈ N.inputs t → ∃ s, id ∈ N.outputIds s ∧ ChannelOf N s t id
  acyclic : ∃ rank : ι → ℕ, ∀ {s t id}, id ∈ N.outputIds s → id ∈ N.inputs t → rank t < rank s

/-- A query ready to be executed. Instance ids are distinct, and there are few enough channels for
their ids. -/
structure PlannedQuery where
  env : PlannerEnv
  logicalPlan : LogicalPlan
  plan : DistributedFragmentPlan
  built : build env logicalPlan = .ok plan
  selectWorker : WorkerSelector
  newV4 : ℕ → Uuid
  newV4_injective : Function.Injective newV4
  workers : List WorkerInfo
  graph : ExecutionGraph
  scheduled : schedule selectWorker newV4 (.fromPlanFragments plan.fragments)
    plan.fragmentScanSplits workers = .ok graph
  channels : List ExchangeChannelDescriptor
  connected : buildExchangeChannels plan.exchanges graph = .ok channels
  ids_fit : channels.length ≤ 2 ^ 32
  tableCatalogs : List TableCatalogEntry
  instances : List FragmentInstance
  instances_eq : buildFragmentInstancesFromGraph graph plan.exchanges tableCatalogs = .ok instances

namespace PlannedQuery

variable (q : PlannedQuery)

/-- The instances of a query. -/
abbrev Instance : Type := Fin q.instances.length

/-- The channels of the instances. -/
def network : Network q.Instance where
  inputs i := (q.instances.get i).exchangeInputs.map ExchangeChannelDescriptor.exchangeId
  outputs i := (q.instances.get i).exchangeOutputs

/-- The query is about to start, on fresh buffers. -/
def start (codec : IpcCodec) : ExecState q.Instance codec :=
  .init .default

/-- The channels of a query, from their ends. -/
theorem channels_eq : q.channels =
    (channelEnds q.graph q.plan.exchanges).zipIdx.map fun e => e.1.descriptor e.2 :=
  (buildExchangeChannels_eq_ok_iff.mp q.connected).2

/-- Channel ids are distinct. -/
theorem channelIds_nodup : (q.channels.map ExchangeChannelDescriptor.exchangeId).Nodup := by
  have hfit := q.ids_fit
  rw [q.channels_eq, List.length_map, List.length_zipIdx] at hfit
  rw [q.channels_eq]
  exact exchangeIds_nodup hfit

/-- A channel is known by its id. -/
theorem channel_eq_of_id {c c' : ExchangeChannelDescriptor} (hc : c ∈ q.channels)
    (hc' : c' ∈ q.channels) (hid : c.exchangeId = c'.exchangeId) : c = c' :=
  List.inj_on_of_nodup_map q.channelIds_nodup hc hc' hid

/-- Handing out the channels keeps the instances. -/
theorem instances_eq_map : q.instances = q.graph.connect q.channels q.tableCatalogs := by
  obtain ⟨channels, hchannels, h⟩ := buildFragmentInstancesFromGraph_eq_ok_iff.mp q.instances_eq
  obtain rfl := Except.ok.inj (q.connected.symm.trans hchannels)
  exact h

/-- Instance ids are distinct. -/
theorem instanceIds_nodup : (q.instances.map FragmentInstance.instanceId).Nodup := by
  have hids := (scheduled_of_schedule q.scheduled).instanceIds_eq
  rw [q.instances_eq_map, ExecutionGraph.connect, List.map_map]
  show (q.graph.instances.map FragmentInstance.instanceId).Nodup
  rw [hids]
  exact List.nodup_range.map q.newV4_injective

/-- An instance is known by its id. -/
theorem eq_of_instanceId {i j : q.Instance}
    (h : (q.instances.get i).instanceId = (q.instances.get j).instanceId) : i = j := by
  have hnodup := q.instanceIds_nodup
  have hinj := List.nodup_iff_injective_getElem.mp hnodup
  have heq : (⟨i, by simp⟩ : Fin (q.instances.map FragmentInstance.instanceId).length) =
      ⟨j, by simp⟩ := hinj (by simpa using h)
  exact Fin.ext (Fin.mk.inj heq)

theorem exchangeInputs_eq {inst : FragmentInstance} (h : inst ∈ q.instances) :
    inst.exchangeInputs = q.channels.filter fun channel =>
      channel.targetFragmentId = inst.fragmentId && channel.targetInstanceId = inst.instanceId := by
  rw [q.instances_eq_map] at h
  obtain ⟨scheduled, -, rfl⟩ := List.mem_map.mp h
  rfl

theorem exchangeOutputs_eq {inst : FragmentInstance} (h : inst ∈ q.instances) :
    inst.exchangeOutputs = q.channels.filter fun channel =>
      channel.sourceFragmentId = inst.fragmentId && channel.sourceInstanceId = inst.instanceId := by
  rw [q.instances_eq_map] at h
  obtain ⟨scheduled, -, rfl⟩ := List.mem_map.mp h
  rfl

/-- The inputs of an instance are the channels that name it as their target. -/
theorem mem_inputs {i : q.Instance} {id : ExchangeId} :
    id ∈ q.network.inputs i ↔ ∃ c ∈ q.channels,
      (c.targetFragmentId = (q.instances.get i).fragmentId ∧
        c.targetInstanceId = (q.instances.get i).instanceId) ∧ c.exchangeId = id := by
  show id ∈ (q.instances.get i).exchangeInputs.map ExchangeChannelDescriptor.exchangeId ↔ _
  rw [q.exchangeInputs_eq (List.get_mem _ _), List.mem_map]
  simp only [List.mem_filter, Bool.and_eq_true, decide_eq_true_eq, and_assoc]

/-- The outputs of an instance are the channels that name it as their source. -/
theorem mem_outputIds {i : q.Instance} {id : ExchangeId} :
    id ∈ q.network.outputIds i ↔ ∃ c ∈ q.channels,
      (c.sourceFragmentId = (q.instances.get i).fragmentId ∧
        c.sourceInstanceId = (q.instances.get i).instanceId) ∧ c.exchangeId = id := by
  show id ∈ (q.instances.get i).exchangeOutputs.map ExchangeChannelDescriptor.exchangeId ↔ _
  rw [q.exchangeOutputs_eq (List.get_mem _ _), List.mem_map]
  simp only [List.mem_filter, Bool.and_eq_true, decide_eq_true_eq, and_assoc]

/-- A scheduled instance of a fragment is an instance of the query. -/
theorem exists_instance {id : PlanFragmentId} {inst : FragmentInstance}
    (h : inst ∈ q.graph.placements id) : ∃ i : q.Instance,
      id = (q.instances.get i).fragmentId ∧
      inst.instanceId = (q.instances.get i).instanceId := by
  obtain ⟨hmem, hid⟩ := List.mem_filter.mp h
  have hinst : inst.connect q.channels q.tableCatalogs ∈ q.instances := by
    rw [q.instances_eq_map]
    exact List.mem_map_of_mem hmem
  obtain ⟨i, hi⟩ := List.mem_iff_get.mp hinst
  refine ⟨i, ?_, by rw [hi]; rfl⟩
  rw [hi]
  exact (of_decide_eq_true hid).symm

/-- A channel leads from one instance to another, of a fragment with a smaller id. -/
theorem channel_ends {c : ExchangeChannelDescriptor} (hc : c ∈ q.channels) :
    (∃ s : q.Instance, c.sourceFragmentId = (q.instances.get s).fragmentId ∧
      c.sourceInstanceId = (q.instances.get s).instanceId) ∧
    (∃ t : q.Instance, c.targetFragmentId = (q.instances.get t).fragmentId ∧
      c.targetInstanceId = (q.instances.get t).instanceId) ∧
    c.targetFragmentId < c.sourceFragmentId := by
  rw [q.channels_eq] at hc
  obtain ⟨⟨e, index⟩, he, rfl⟩ := List.mem_map.mp hc
  obtain ⟨hexchange, hsource, htarget⟩ := mem_channelEnds.mp (List.fst_mem_of_mem_zipIdx he)
  refine ⟨q.exists_instance hsource, q.exists_instance htarget, ?_⟩
  obtain ⟨r⟩ := build_spec q.built
  obtain ⟨piece, hpiece, heq⟩ := r.mem_exchanges.mp hexchange
  show e.exchange.targetFragmentId < e.exchange.sourceFragmentId
  rw [← heq]
  exact r.forest.target_lt piece hpiece

/-- Every channel of a query has its source and its target. -/
theorem channelOf {c : ExchangeChannelDescriptor} (hc : c ∈ q.channels) {s t : q.Instance}
    (hs : c.exchangeId ∈ q.network.outputIds s) (ht : c.exchangeId ∈ q.network.inputs t) :
    ChannelOf q.network s t c.exchangeId where
  source_unique s' hs' := by
    obtain ⟨c₁, hc₁, ⟨-, hid₁⟩, heq₁⟩ := q.mem_outputIds.mp hs
    obtain ⟨c₂, hc₂, ⟨-, hid₂⟩, heq₂⟩ := q.mem_outputIds.mp hs'
    obtain rfl := q.channel_eq_of_id hc₁ hc heq₁
    obtain rfl := q.channel_eq_of_id hc₂ hc₁ heq₂
    exact q.eq_of_instanceId (hid₂.symm.trans hid₁)
  target_unique t' ht' := by
    obtain ⟨c₁, hc₁, ⟨-, hid₁⟩, heq₁⟩ := q.mem_inputs.mp ht
    obtain ⟨c₂, hc₂, ⟨-, hid₂⟩, heq₂⟩ := q.mem_inputs.mp ht'
    obtain rfl := q.channel_eq_of_id hc₁ hc heq₁
    obtain rfl := q.channel_eq_of_id hc₂ hc₁ heq₂
    exact q.eq_of_instanceId (hid₂.symm.trans hid₁)
  nodup := by
    show ((q.instances.get s).exchangeOutputs.map ExchangeChannelDescriptor.exchangeId).Nodup
    rw [q.exchangeOutputs_eq (List.get_mem _ _)]
    exact q.channelIds_nodup.sublist (List.filter_sublist.map _)

/-- The network of a planned query is wired. -/
theorem wired : q.network.Wired where
  target {s id} hs := by
    obtain ⟨c, hc, -, rfl⟩ := q.mem_outputIds.mp hs
    obtain ⟨-, ⟨t, ht⟩, -⟩ := q.channel_ends hc
    have hinput := q.mem_inputs.mpr ⟨c, hc, ht, rfl⟩
    exact ⟨t, hinput, q.channelOf hc hs hinput⟩
  source {t id} ht := by
    obtain ⟨c, hc, -, rfl⟩ := q.mem_inputs.mp ht
    obtain ⟨⟨s, hs⟩, -, -⟩ := q.channel_ends hc
    have houtput := q.mem_outputIds.mpr ⟨c, hc, hs, rfl⟩
    exact ⟨s, houtput, q.channelOf hc houtput ht⟩
  acyclic := by
    refine ⟨fun i => (q.instances.get i).fragmentId, fun {s t id} hs ht => ?_⟩
    obtain ⟨c, hc, ⟨hsource, -⟩, rfl⟩ := q.mem_outputIds.mp hs
    obtain ⟨c', hc', ⟨htarget, -⟩, heq⟩ := q.mem_inputs.mp ht
    obtain rfl := q.channel_eq_of_id hc' hc heq
    show (q.instances.get t).fragmentId < (q.instances.get s).fragmentId
    rw [← hsource, ← htarget]
    exact (q.channel_ends hc).2.2

end PlannedQuery

/-! ## A small query -/

/-- `SELECT count(*) FROM orders`: the scan of the one split, and the count. -/
def Sample.countQuery : PlannedQuery where
  env := Sample.env
  logicalPlan := .aggregate Sample.countAll Sample.scanOrders
  plan := _
  built := rfl
  selectWorker := firstWorkerSelector
  newV4 := id
  newV4_injective := Function.injective_id
  workers := Sample.workers
  graph := _
  scheduled := rfl
  channels := _
  connected := rfl
  ids_fit := by decide
  tableCatalogs := [Sample.orders]
  instances := _
  instances_eq := rfl

/-- The instance that scans. -/
def Sample.scanner : Sample.countQuery.Instance := ⟨0, by decide⟩

/-- The instance that counts. -/
def Sample.counter : Sample.countQuery.Instance := ⟨1, by decide⟩

/-- A codec whose payload is the batches themselves. -/
def Sample.codec : IpcCodec where
  Payload := List RecordBatch
  empty := []
  write batch := [batch]
  read payload := .ok payload
  read_write _ := rfl

/-- A batch with one order. -/
def Sample.orderBatch : RecordBatch :=
  ⟨[⟨"id", .int64, false⟩, ⟨"amount", .int64, true⟩], [[.integer 1, .null]]⟩

example : Sample.countQuery.network.inputs Sample.counter = [0] := by decide

end BrewDB

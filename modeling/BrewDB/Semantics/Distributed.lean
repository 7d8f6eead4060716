import BrewDB.Semantics.Relational
import BrewDB.Runtime.Channels

/-!
# Distributed runs

Reference: `execute_physical_plan_streaming` and `materialize_exchange_inputs` of
`brewdb-execution/src/execution/executor.rs`, `LocalTableScanRewriteRule` of
`brewdb-planner/src/local/mod.rs`.

A distributed run gives every fragment instance the batches it produces. An instance evaluates its
local plan: its scans read the splits assigned to it, and a remote source receives what the instances
of the source fragment sent on the instance's input channels. What is stored in the tables is given
by split: `read scan split` is what the scan gets out of the split, its projection and its filters
included, as these act on each row separately.
-/

namespace BrewDB

/-- The rows of some batches. -/
def batchRows (batches : List RecordBatch) : List Row := batches.flatMap RecordBatch.rows

/-- What a scan reads from some splits. -/
def scanRows (read : TableScan → TableScanSplit → Multiset Row) (scan : TableScan)
    (splits : List TableScanSplit) : Multiset Row :=
  (splits.map (read scan)).sum

/-- What a scan reads in one piece: all its planned splits. -/
def tableRows (env : PlannerEnv) (read : TableScan → TableScanSplit → Multiset Row)
    (scan : TableScan) : Multiset Row :=
  match scan.plannedSplits env.engines with
  | .ok planned => scanRows read scan planned
  | .error _ => 0

/-- The rows of a batch that are routed to the selected channels. -/
def routedRows (hash : List TypedCell → ℕ) (outputs : List ExchangeChannelDescriptor)
    (selects : ExchangeChannelDescriptor → Bool) (batch : RecordBatch) : List Row :=
  match routeExchangeBatch hash outputs batch with
  | .ok parts => parts.flatMap fun part => if selects part.1 then part.2.rows else []
  | .error _ => []

namespace FragmentInstance

/-- What a scan reads on an instance. -/
def tableRows (env : PlannerEnv) (read : TableScan → TableScanSplit → Multiset Row)
    (inst : FragmentInstance) (scan : TableScan) : Multiset Row :=
  match scan.plannedSplits env.engines with
  | .ok planned => scanRows read scan
      ((LocalTableScanRewriteRule.mk inst.tableCatalogs inst.tableScanSplit).splitsRead scan planned)
  | .error _ => 0

/-- The instance reads this channel for the remote source of a fragment. -/
def reads (inst : FragmentInstance) (id : PlanFragmentId) (channel : ExchangeChannelDescriptor) :
    Bool :=
  channel ∈ inst.exchangeInputs && channel.sourceFragmentId = id

/-- What a remote source receives on an instance. -/
def receives (hash : List TypedCell → ℕ) (instances : List FragmentInstance)
    (run : Uuid → List RecordBatch) (inst : FragmentInstance) (ids : List PlanFragmentId) :
    Multiset Row :=
  (ids.map fun id => (instances.map fun source =>
    (((run source.instanceId).flatMap (routedRows hash source.exchangeOutputs (inst.reads id)) :
      List Row) : Multiset Row)).sum).sum

end FragmentInstance

section Run

variable (env : PlannerEnv) (ops : Operators) (hash : List TypedCell → ℕ)
  (read : TableScan → TableScanSplit → Multiset Row) (instances : List FragmentInstance)

/-- An instance may produce these batches: rows that its local plan may return, under the plan's
schema. -/
def FragmentInstance.Returns (run : Uuid → List RecordBatch) (inst : FragmentInstance)
    (batches : List RecordBatch) : Prop :=
  ∃ localPlan, inst.executionFragment.fragment.localPlan = some localPlan ∧
    Evaluates ops (inst.tableRows env read) (inst.receives hash instances run) localPlan
      (batchRows batches) ∧
    ∀ batch ∈ batches, batch.schema = localPlan.schema.asArrow

/-- Every instance produces something that it may produce, given what the others send it. -/
def DistributedRun (run : Uuid → List RecordBatch) : Prop :=
  ∀ inst ∈ instances, inst.Returns env ops hash read instances run (run inst.instanceId)

/-- Distributed execution returns a result, and only results that the plan may return in one piece. -/
structure Agrees (p : LogicalPlan) : Prop where
  exists_run : ∃ run, DistributedRun env ops hash read instances run
  routed : ∀ run, DistributedRun env ops hash read instances run → ∀ inst ∈ instances,
    inst.exchangeOutputs ≠ [] → ∀ batch ∈ run inst.instanceId,
      ∃ parts, routeExchangeBatch hash inst.exchangeOutputs batch = .ok parts
  one_root : ∃ root, instances.filter (fun inst => inst.executionFragment.fragment.kind = .root) =
    [root] ∧ ∀ run, DistributedRun env ops hash read instances run →
      Evaluates ops (tableRows env read) (fun _ => 0) p (batchRows (run root.instanceId))

end Run

/-! ## What one batch delivers -/

/-- The position of the channel that the hash of a row selects among `n` channels. -/
def ExchangeNode.ordinal (hash : List TypedCell → ℕ) (exchange : ExchangeNode) (schema : List Field)
    (n : ℕ) (row : Row) : ℕ :=
  hash (exchange.partitioningScheme.partitionKeys.filterMap fun key =>
    cellNamed schema row key.name) % n

/-- What reaches the target at position `j` of `n`. -/
def ExchangeNode.delivers (hash : List TypedCell → ℕ) (exchange : ExchangeNode)
    (schema : List Field) (n j : ℕ) (rows : Multiset Row) : Multiset Row :=
  if exchange.exchangeType = .repartition then
    rows.filter fun row => exchange.ordinal hash schema n row = j
  else rows

/-- Resolved keys are hashed in order. -/
theorem filterMap_cellNamed {keys : List Column} {schema : List Field} {indices : List ℕ}
    (h : partitionIndices keys schema = .ok indices) (row : Row) :
    (keys.filterMap fun key => cellNamed schema row key.name) = hashedCells schema indices row := by
  have hcells := map_cellNamed (partitionIndices_eq_ok.mp h) row
  calc (keys.filterMap fun key => cellNamed schema row key.name)
      = (keys.map fun key => cellNamed schema row key.name).filterMap id := by
        rw [List.filterMap_map]
        rfl
    _ = hashedCells schema indices row := by
        rw [hcells, List.filterMap_map]
        exact List.filterMap_some

/-- A repartition gives every channel the rows that select its position. -/
theorem rows_of_routeRepartitionBatch {hash : List TypedCell → ℕ} {keys : List Column}
    {channels : List ExchangeChannelDescriptor} {batch : RecordBatch}
    {parts : List (ExchangeChannelDescriptor × RecordBatch)}
    (h : routeRepartitionBatch hash keys channels batch = .ok parts)
    (selects : ExchangeChannelDescriptor → Bool) :
    (parts.flatMap fun part => if selects part.1 then part.2.rows else []) =
      channels.zipIdx.flatMap fun c =>
        if selects c.1 then
          batch.rows.filter fun row =>
            hash (keys.filterMap fun key => cellNamed batch.schema row key.name) %
              channels.length = c.2
        else [] := by
  unfold routeRepartitionBatch at h
  split at h
  · cases h
  obtain ⟨indices, hindices, h⟩ := ExceptRun.bind_eq_ok.mp h
  obtain rfl := ExceptRun.pure_eq_ok.mp h
  simp only [filterMap_cellNamed hindices]
  rw [List.filterMap_eq_flatMap_toList, List.flatMap_assoc]
  -- a channel without rows is left out, which makes no difference to the rows
  have hpart : ∀ (c : ExchangeChannelDescriptor) (kept : List Row),
      ((if kept.isEmpty then none else some (c, RecordBatch.mk batch.schema kept)).toList.flatMap
        fun part => if selects part.1 then part.2.rows else []) = if selects c then kept else [] := by
    intro c kept
    cases kept with
    | nil => simp
    | cons row rest => simp
  exact List.flatMap_congr fun c _ => hpart c.1 _

/-- The rows of a batch that reach the target of the channel at position `j`. -/
theorem routedRows_eq {hash : List TypedCell → ℕ} {exchange : ExchangeNode}
    {channels : List ExchangeChannelDescriptor} (h : ChannelsOf exchange channels)
    {batch : RecordBatch} {parts : List (ExchangeChannelDescriptor × RecordBatch)}
    (hparts : routeExchangeBatch hash channels batch = .ok parts)
    {selects : ExchangeChannelDescriptor → Bool} {channel : ExchangeChannelDescriptor} {j : ℕ}
    (hj : channels[j]? = some channel) (hselects : ∀ c ∈ channels, selects c = true ↔ c = channel) :
    ((routedRows hash channels selects batch : List Row) : Multiset Row) =
      exchange.delivers hash batch.schema channels.length j batch.rows := by
  have hchannel : channel ∈ channels := List.mem_of_getElem? hj
  have hselected : selects channel = true := (hselects channel hchannel).mpr rfl
  obtain ⟨first, rest, hcons⟩ := List.exists_cons_of_ne_nil h.ne_nil
  have hfirst : first ∈ channels := hcons ▸ List.mem_cons_self
  have htype := h.exchangeType_eq first hfirst
  simp only [routedRows, hparts, ExchangeNode.delivers]
  -- a gather or replicate exchange sends a copy of the batch on every channel
  have hcopy : parts = channels.map (fun c => (c, batch)) →
      parts.flatMap (fun part => if selects part.1 then part.2.rows else []) = batch.rows := by
    rintro rfl
    rw [List.flatMap_map, flatMap_eq_of_mem h.nodup hchannel, if_pos hselected]
    intro c hc hne
    rw [if_neg (mt (hselects c hc).mp hne)]
  cases hexchange : exchange.exchangeType with
  | gather =>
      rw [hcons, routeExchangeBatch, htype, hexchange, ← hcons] at hparts
      simp [hcopy (Except.ok.inj hparts).symm]
  | replicate =>
      rw [hcons, routeExchangeBatch, htype, hexchange, ← hcons] at hparts
      simp [hcopy (Except.ok.inj hparts).symm]
  | repartition =>
      rw [hcons, routeExchangeBatch, htype, hexchange, ← hcons, h.scheme_eq first hfirst] at hparts
      have hzip : (channel, j) ∈ channels.zipIdx := List.mem_zipIdx_iff_getElem?.mpr hj
      have hnodup : channels.zipIdx.Nodup := by
        refine List.Nodup.of_map Prod.snd ?_
        rw [List.zipIdx_map_snd]
        exact List.nodup_range'
      rw [rows_of_routeRepartitionBatch hparts, flatMap_eq_of_mem hnodup hzip, if_pos hselected]
      · rfl
      · rintro ⟨c, i⟩ hc hne
        have hget : channels[i]? = some c := List.mem_zipIdx_iff_getElem?.mp hc
        refine if_neg fun hsel => hne ?_
        obtain rfl := (hselects c (List.mem_of_getElem? hget)).mp hsel
        have hij : i = j := (List.getElem?_inj (List.getElem?_eq_some_iff.mp hget).1 h.nodup).mp
          (hget.trans hj.symm)
        rw [hij]

end BrewDB

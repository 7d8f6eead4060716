import BrewDB.Semantics.Regions

/-!
# The instances of a built plan

What reaches the instances of a scheduled and connected plan in a distributed run: the instances of a
fragment together read the planned splits of its scans, and its remote sources receive the output of
the fragment they name, distributed by the exchange between the two.
-/

namespace BrewDB

open Finset (range)
open LogicalPlan

/-! ## Sums over instances -/

section Sums

variable {α M : Type} [AddCommMonoid M]

/-- Members that contribute nothing can be left out. -/
theorem sum_map_filter_of_eq_zero {l : List α} (keep : α → Bool) {f : α → M}
    (h : ∀ a ∈ l, keep a = false → f a = 0) : (l.map f).sum = ((l.filter keep).map f).sum := by
  induction l with
  | nil => rfl
  | cons a l ih =>
      rw [List.forall_mem_cons] at h
      cases hkeep : keep a with
      | true => simp [hkeep, ih h.2]
      | false => simp [hkeep, ih h.2, h.1 hkeep]

/-- Summing by position. -/
theorem sum_range_getD (l : List α) (d : α) (f : α → M) :
    ∑ j ∈ range l.length, f (l.getD j d) = (l.map f).sum := by
  induction l with
  | nil => rfl
  | cons a l ih =>
      rw [List.length_cons, Finset.sum_range_succ', List.map_cons, List.sum_cons, ← ih, add_comm]
      rfl

end Sums

/-- The splits of several instances are read one after the other. -/
theorem scanRows_flatMap {α : Type} (read : TableScan → TableScanSplit → Multiset Row)
    (scan : TableScan) (l : List α) (splits : α → List TableScanSplit) :
    scanRows read scan (l.flatMap splits) = (l.map fun a => scanRows read scan (splits a)).sum := by
  induction l with
  | nil => rfl
  | cons a l ih =>
      rw [List.flatMap_cons, List.map_cons, List.sum_cons, ← ih]
      simp [scanRows]

/-- The order of the splits does not matter. -/
theorem scanRows_perm (read : TableScan → TableScanSplit → Multiset Row) (scan : TableScan)
    {splits splits' : List TableScanSplit} (h : splits.Perm splits') :
    scanRows read scan splits = scanRows read scan splits' :=
  (h.map _).sum_eq

/-! ## Delivery adds up -/

section Delivers

variable {hash : List TypedCell → ℕ} {exchange : ExchangeNode} {schema : List Field} {n j : ℕ}

theorem ExchangeNode.delivers_add (s t : Multiset Row) :
    exchange.delivers hash schema n j (s + t) =
      exchange.delivers hash schema n j s + exchange.delivers hash schema n j t := by
  unfold delivers
  split
  · exact Multiset.filter_add _ s t
  · rfl

theorem ExchangeNode.delivers_zero : exchange.delivers hash schema n j 0 = 0 := by
  unfold delivers
  split <;> rfl

theorem ExchangeNode.delivers_sum (l : List (Multiset Row)) :
    exchange.delivers hash schema n j l.sum = (l.map (exchange.delivers hash schema n j)).sum := by
  induction l with
  | nil => exact delivers_zero
  | cons s l ih => rw [List.sum_cons, delivers_add, ih, List.map_cons, List.sum_cons]

/-- What some batches deliver. -/
theorem ExchangeNode.delivers_batchRows {batches : List RecordBatch} {f : RecordBatch → List Row}
    (h : ∀ batch ∈ batches, (f batch : Multiset Row) = exchange.delivers hash schema n j batch.rows) :
    ((batches.flatMap f : List Row) : Multiset Row) =
      exchange.delivers hash schema n j (batchRows batches) := by
  induction batches with
  | nil => exact delivers_zero.symm
  | cons batch batches ih =>
      rw [List.forall_mem_cons] at h
      have hrows : batchRows (batch :: batches) = batch.rows ++ batchRows batches := rfl
      rw [List.flatMap_cons, hrows, ← Multiset.coe_add, ← Multiset.coe_add, delivers_add, h.1, ih h.2]

end Delivers

/-- The output of a fragment: that of all its instances. -/
def fragmentRows (instances : List FragmentInstance) (run : Uuid → List RecordBatch)
    (id : PlanFragmentId) : Multiset Row :=
  ((instances.filter (·.fragmentId = id)).map fun inst =>
    (batchRows (run inst.instanceId) : Multiset Row)).sum

/-- The output of a fragment, from the scheduled instances. -/
theorem fragmentRows_connect (graph : ExecutionGraph) (channels : List ExchangeChannelDescriptor)
    (tableCatalogs : List TableCatalogEntry) (run : Uuid → List RecordBatch) (id : PlanFragmentId) :
    fragmentRows (graph.connect channels tableCatalogs) run id =
      ((graph.placements id).map fun inst => (batchRows (run inst.instanceId) : Multiset Row)).sum := by
  rw [fragmentRows, ExecutionGraph.connect, List.filter_map, List.map_map]
  rfl

/-- Nothing is routed to channels that are not selected. -/
theorem flatMap_routedRows_eq_nil {hash : List TypedCell → ℕ}
    {outputs : List ExchangeChannelDescriptor} {selects : ExchangeChannelDescriptor → Bool}
    (h : ∀ c ∈ outputs, selects c = false) (batches : List RecordBatch) :
    batches.flatMap (routedRows hash outputs selects) = [] := by
  refine List.flatMap_eq_nil_iff.mpr fun batch _ => ?_
  unfold routedRows
  split
  next parts hparts =>
    refine List.flatMap_eq_nil_iff.mpr fun part hpart => ?_
    rw [h part.1 (mem_channels_of_routeExchangeBatch hparts part hpart)]
    rfl
  next => rfl

/-! ## Scheduled and connected -/

/-- The instances of a distributed plan, scheduled under distinct ids, and their channels. -/
structure Deployed (plan : DistributedFragmentPlan) (newV4 : ℕ → Uuid) (graph : ExecutionGraph)
    (channels : List ExchangeChannelDescriptor) : Prop where
  scheduled : Scheduled newV4 plan.fragments plan.fragmentScanSplits graph
  newV4_injective : Function.Injective newV4
  connected : buildExchangeChannels plan.exchanges graph = .ok channels

namespace Deployed

variable {env : PlannerEnv} {p : LogicalPlan} {plan : DistributedFragmentPlan}
  {newV4 : ℕ → Uuid} {graph : ExecutionGraph} {channels : List ExchangeChannelDescriptor}

theorem instanceIds_nodup (h : Deployed plan newV4 graph channels) :
    (graph.instances.map FragmentInstance.instanceId).Nodup := by
  rw [h.scheduled.instanceIds_eq]
  exact List.nodup_range.map h.newV4_injective

theorem channels_eq (h : Deployed plan newV4 graph channels) :
    channels = (channelEnds graph plan.exchanges).zipIdx.map fun e => e.1.descriptor e.2 :=
  (buildExchangeChannels_eq_ok_iff.mp h.connected).2

/-- An instance runs a fragment of the plan. -/
theorem fragment_mem (h : Deployed plan newV4 graph channels) {inst : FragmentInstance}
    (hinst : inst ∈ graph.instances) : inst.executionFragment.fragment ∈ plan.fragments := by
  have hpair : (inst.executionFragment, inst.tableScanSplit) ∈
      assignedFragments graph.fragments plan.fragmentScanSplits :=
    h.scheduled.instances_eq ▸ List.mem_map_of_mem hinst
  obtain ⟨f, hf, hpair⟩ := List.mem_flatMap.mp hpair
  obtain ⟨split, -, heq⟩ := List.mem_map.mp hpair
  obtain rfl : f = inst.executionFragment := congrArg Prod.fst heq
  obtain ⟨fragment, hfragment, hmk⟩ := List.mem_map.mp (h.scheduled.fragments_perm.mem_iff.mp hf)
  rwa [← hmk]

/-- An instance runs the fragment of its id. -/
theorem fragment_eq (h : Deployed plan newV4 graph channels) (r : BuildResult env p plan)
    {fragment : PlanFragment} (hf : fragment ∈ plan.fragments) {inst : FragmentInstance}
    (hinst : inst ∈ graph.placements fragment.fragmentId) :
    inst.executionFragment.fragment = fragment := by
  obtain ⟨hmem, hid⟩ := List.mem_filter.mp hinst
  exact List.inj_on_of_nodup_map r.fragmentIds_nodup (h.fragment_mem hmem) hf (of_decide_eq_true hid)

/-- Fragment ids are bounded by the number of pieces. -/
theorem fragmentId_lt (h : Deployed plan newV4 graph channels) (r : BuildResult env p plan)
    {inst : FragmentInstance} (hinst : inst ∈ graph.instances) :
    inst.fragmentId < 1 + r.pieces.length := by
  rcases r.mem_fragments.mp (h.fragment_mem hinst) with heq | ⟨piece, hpiece, heq⟩
  · have hid : inst.fragmentId = 0 := congrArg PlanFragment.fragmentId heq
    rw [hid]
    exact Nat.add_pos_left Nat.one_pos _
  · have hid : piece.id = inst.fragmentId := congrArg PlanFragment.fragmentId heq
    rw [← hid]
    exact (r.forest.id_mem hpiece).2

/-- A channel leads to a fragment with a smaller id. -/
theorem target_lt_source (h : Deployed plan newV4 graph channels) (r : BuildResult env p plan)
    {channel : ExchangeChannelDescriptor} (hchannel : channel ∈ channels) :
    channel.targetFragmentId < channel.sourceFragmentId := by
  rw [h.channels_eq] at hchannel
  obtain ⟨⟨e, index⟩, he, rfl⟩ := List.mem_map.mp hchannel
  obtain ⟨hexchange, -, -⟩ := mem_channelEnds.mp (List.fst_mem_of_mem_zipIdx he)
  obtain ⟨piece, hpiece, heq⟩ := r.mem_exchanges.mp hexchange
  show e.exchange.targetFragmentId < e.exchange.sourceFragmentId
  rw [← heq]
  exact r.forest.target_lt piece hpiece

section Outputs

variable (tableCatalogs : List TableCatalogEntry)

/-- The output channels of a piece's instance, up to what tells them apart from other channels. -/
theorem exchangeOutputs_eq (h : Deployed plan newV4 graph channels) (r : BuildResult env p plan)
    {piece : Piece} (hpiece : piece ∈ r.pieces) {source : FragmentInstance}
    (hsource : source ∈ graph.placements piece.id) :
    (source.connect channels tableCatalogs).exchangeOutputs.map (fun channel =>
        (channel.targetFragmentId, channel.targetInstanceId, channel.exchangeType,
          channel.partitioningScheme)) =
      (graph.placements piece.target).map fun target =>
        (piece.target, target.instanceId, (piece.exchange env).exchangeType,
          (piece.exchange env).partitioningScheme) := by
  have hexchange : piece.exchange env ∈ plan.exchanges := r.mem_exchanges.mpr ⟨piece, hpiece, rfl⟩
  have hnodup : (plan.exchanges.map ExchangeNode.sourceFragmentId).Nodup := by
    rw [r.map_sourceFragmentId]
    exact r.ids_nodup
  rw [h.channels_eq, exchangeOutputs_map tableCatalogs source (g := fun e =>
      (e.exchange.targetFragmentId, e.target.instanceId, e.exchange.exchangeType,
        e.exchange.partitioningScheme)) fun _ _ => rfl,
    endsFrom_eq hnodup h.instanceIds_nodup hexchange hsource, List.map_map]
  rfl

theorem map_targetInstanceId (h : Deployed plan newV4 graph channels) (r : BuildResult env p plan)
    {piece : Piece} (hpiece : piece ∈ r.pieces) {source : FragmentInstance}
    (hsource : source ∈ graph.placements piece.id) :
    (source.connect channels tableCatalogs).exchangeOutputs.map
        ExchangeChannelDescriptor.targetInstanceId =
      (graph.placements piece.target).map FragmentInstance.instanceId := by
  have hmap := congrArg (List.map fun ends => ends.2.1)
    (h.exchangeOutputs_eq tableCatalogs r hpiece hsource)
  rwa [List.map_map, List.map_map] at hmap

theorem targetInstanceIds_nodup (h : Deployed plan newV4 graph channels)
    (r : BuildResult env p plan) {piece : Piece} (hpiece : piece ∈ r.pieces)
    {source : FragmentInstance} (hsource : source ∈ graph.placements piece.id) :
    ((source.connect channels tableCatalogs).exchangeOutputs.map
      ExchangeChannelDescriptor.targetInstanceId).Nodup := by
  rw [h.map_targetInstanceId tableCatalogs r hpiece hsource]
  exact h.instanceIds_nodup.sublist (List.filter_sublist.map _)

/-- What an output channel of a piece's instance says of its exchange. -/
theorem mem_exchangeOutputs (h : Deployed plan newV4 graph channels) (r : BuildResult env p plan)
    {piece : Piece} (hpiece : piece ∈ r.pieces) {source : FragmentInstance}
    (hsource : source ∈ graph.placements piece.id) {channel : ExchangeChannelDescriptor}
    (hchannel : channel ∈ (source.connect channels tableCatalogs).exchangeOutputs) :
    channel ∈ channels ∧ channel.sourceFragmentId = piece.id ∧
      channel.targetFragmentId = piece.target ∧
      channel.exchangeType = (piece.exchange env).exchangeType ∧
      channel.partitioningScheme = (piece.exchange env).partitioningScheme := by
  obtain ⟨hmem, hends⟩ := List.mem_filter.mp hchannel
  have hid : source.fragmentId = piece.id := of_decide_eq_true (List.mem_filter.mp hsource).2
  have hfrom : channel.sourceFragmentId = piece.id := by
    rw [← hid]
    exact of_decide_eq_true (Bool.and_eq_true_iff.mp hends).1
  have hmap : (channel.targetFragmentId, channel.targetInstanceId, channel.exchangeType,
      channel.partitioningScheme) ∈ (graph.placements piece.target).map fun target =>
        (piece.target, target.instanceId, (piece.exchange env).exchangeType,
          (piece.exchange env).partitioningScheme) := by
    rw [← h.exchangeOutputs_eq tableCatalogs r hpiece hsource]
    exact List.mem_map_of_mem hchannel
  obtain ⟨target, -, heq⟩ := List.mem_map.mp hmap
  simp only [Prod.mk.injEq] at heq
  exact ⟨hmem, hfrom, heq.1.symm, heq.2.2.1.symm, heq.2.2.2.symm⟩

theorem channelsOf (h : Deployed plan newV4 graph channels) (r : BuildResult env p plan)
    {piece : Piece} (hpiece : piece ∈ r.pieces) {source : FragmentInstance}
    (hsource : source ∈ graph.placements piece.id) :
    ChannelsOf (piece.exchange env) (source.connect channels tableCatalogs).exchangeOutputs where
  nodup := List.Nodup.of_map _ (h.targetInstanceIds_nodup tableCatalogs r hpiece hsource)
  ne_nil := by
    have hends := (buildExchangeChannels_eq_ok_iff.mp h.connected).1 (piece.exchange env)
      (r.mem_exchanges.mpr ⟨piece, hpiece, rfl⟩)
    intro hnil
    have hmap := h.exchangeOutputs_eq tableCatalogs r hpiece hsource
    rw [hnil, List.map_nil, eq_comm, List.map_eq_nil_iff] at hmap
    exact hends.2 hmap
  exchangeType_eq channel hchannel :=
    (h.mem_exchangeOutputs tableCatalogs r hpiece hsource hchannel).2.2.2.1
  scheme_eq channel hchannel :=
    (h.mem_exchangeOutputs tableCatalogs r hpiece hsource hchannel).2.2.2.2

/-- Of the output channels of a piece's instance, the target at position `j` reads the one at
position `j`. -/
theorem exists_reads (h : Deployed plan newV4 graph channels) (r : BuildResult env p plan)
    {piece : Piece} (hpiece : piece ∈ r.pieces) {source : FragmentInstance}
    (hsource : source ∈ graph.placements piece.id) {target : FragmentInstance} {j : ℕ}
    (hj : (graph.placements piece.target)[j]? = some target) :
    ∃ channel, (source.connect channels tableCatalogs).exchangeOutputs[j]? = some channel ∧
      ∀ c ∈ (source.connect channels tableCatalogs).exchangeOutputs,
        (target.connect channels tableCatalogs).reads piece.id c = true ↔ c = channel := by
  have htarget : target.fragmentId = piece.target :=
    of_decide_eq_true (List.mem_filter.mp (List.mem_of_getElem? hj)).2
  have hids := h.map_targetInstanceId tableCatalogs r hpiece hsource
  have hget := congrArg (fun l => l[j]?) hids
  simp only [List.getElem?_map, hj, Option.map_some] at hget
  obtain ⟨channel, hchannel, hid⟩ := Option.map_eq_some_iff.mp hget
  refine ⟨channel, hchannel, fun c hc => ?_⟩
  obtain ⟨hmem, hfrom, hto, -, -⟩ := h.mem_exchangeOutputs tableCatalogs r hpiece hsource hc
  have hread : (target.connect channels tableCatalogs).reads piece.id c = true ↔
      c.targetInstanceId = target.instanceId := by
    have hinput : c ∈ (target.connect channels tableCatalogs).exchangeInputs ↔
        c.targetInstanceId = target.instanceId := by
      show c ∈ channels.filter _ ↔ _
      simp [List.mem_filter, hmem, hto, htarget]
    simp [FragmentInstance.reads, hinput, hfrom]
  rw [hread, ← hid]
  constructor
  · exact fun heq => List.inj_on_of_nodup_map (h.targetInstanceIds_nodup tableCatalogs r hpiece hsource)
      hc (List.mem_of_getElem? hchannel) heq
  · exact fun heq => by rw [heq]

/-- A channel of another fragment is not read for this one. -/
theorem reads_eq_false {source inst : FragmentInstance} {id : PlanFragmentId}
    (hid : source.fragmentId ≠ id) {c : ExchangeChannelDescriptor}
    (hc : c ∈ (source.connect channels tableCatalogs).exchangeOutputs) : inst.reads id c = false := by
  have hfrom : c.sourceFragmentId = source.fragmentId :=
    of_decide_eq_true (Bool.and_eq_true_iff.mp (List.mem_filter.mp hc).2).1
  have hne : c.sourceFragmentId ≠ id := hfrom.symm ▸ hid
  simp [FragmentInstance.reads, hne]

section Receives

variable {hash : List TypedCell → ℕ} {run : Uuid → List RecordBatch}

/-- A remote source receives on the instance at position `j` what the exchange delivers there of the
output of the fragment it names. -/
theorem receives_eq (h : Deployed plan newV4 graph channels) (r : BuildResult env p plan)
    {piece : Piece} (hpiece : piece ∈ r.pieces)
    (hbatches : ∀ source ∈ graph.placements piece.id, ∀ batch ∈ run source.instanceId,
      batch.schema = piece.sourcePlan.schema.asArrow ∧ ∃ parts, routeExchangeBatch hash
        (source.connect channels tableCatalogs).exchangeOutputs batch = .ok parts)
    {target : FragmentInstance} {j : ℕ} (hj : (graph.placements piece.target)[j]? = some target) :
    (target.connect channels tableCatalogs).receives hash
        (graph.connect channels tableCatalogs) run [piece.id] =
      (piece.exchange env).delivers hash piece.sourcePlan.schema.asArrow
        (graph.placements piece.target).length j
        (fragmentRows (graph.connect channels tableCatalogs) run piece.id) := by
  rw [FragmentInstance.receives, List.map_singleton, List.sum_singleton,
    sum_map_filter_of_eq_zero fun inst => decide (inst.fragmentId = piece.id)]
  · rw [fragmentRows, ExchangeNode.delivers_sum, List.map_map]
    refine congrArg List.sum (List.map_congr_left fun inst hinst => ?_)
    obtain ⟨hmem, hid⟩ := List.mem_filter.mp hinst
    obtain ⟨source, hsource, rfl⟩ := List.mem_map.mp hmem
    have hplaced : source ∈ graph.placements piece.id := List.mem_filter.mpr ⟨hsource, hid⟩
    obtain ⟨channel, hchannel, hreads⟩ := h.exists_reads tableCatalogs r hpiece hplaced hj
    have hlength : (source.connect channels tableCatalogs).exchangeOutputs.length =
        (graph.placements piece.target).length := by
      simpa using congrArg List.length (h.map_targetInstanceId tableCatalogs r hpiece hplaced)
    refine ExchangeNode.delivers_batchRows fun batch hbatch => ?_
    obtain ⟨hschema, parts, hparts⟩ := hbatches source hplaced batch hbatch
    rw [routedRows_eq (h.channelsOf tableCatalogs r hpiece hplaced) hparts hchannel hreads, hschema,
      hlength]
  · intro inst hinst hne
    obtain ⟨source, -, rfl⟩ := List.mem_map.mp hinst
    have hid : source.fragmentId ≠ piece.id := of_decide_eq_false hne
    rw [flatMap_routedRows_eq_nil fun c hc => reads_eq_false tableCatalogs hid hc]
    rfl

/-- What an instance receives depends on fragments with larger ids only. -/
theorem receives_congr (h : Deployed plan newV4 graph channels) (r : BuildResult env p plan)
    {run' : Uuid → List RecordBatch} {inst : FragmentInstance}
    (hrun : ∀ source ∈ graph.instances, inst.fragmentId < source.fragmentId →
      run source.instanceId = run' source.instanceId) :
    (inst.connect channels tableCatalogs).receives hash
        (graph.connect channels tableCatalogs) run =
      (inst.connect channels tableCatalogs).receives hash
        (graph.connect channels tableCatalogs) run' := by
  funext ids
  refine congrArg List.sum (List.map_congr_left fun id _ => ?_)
  rw [ExecutionGraph.connect, List.map_map, List.map_map]
  refine congrArg List.sum (List.map_congr_left fun source hsource => ?_)
  show ((List.flatMap _ (run source.instanceId) : List Row) : Multiset Row) =
    ((List.flatMap _ (run' source.instanceId) : List Row) : Multiset Row)
  by_cases hlt : inst.fragmentId < source.fragmentId
  · rw [hrun source hsource hlt]
  · have hnone : ∀ c ∈ (source.connect channels tableCatalogs).exchangeOutputs,
        (inst.connect channels tableCatalogs).reads id c = false := by
      intro c hc
      obtain ⟨hmem, hends⟩ := List.mem_filter.mp hc
      have hfrom : c.sourceFragmentId = source.fragmentId :=
        of_decide_eq_true (Bool.and_eq_true_iff.mp hends).1
      have hlt' := h.target_lt_source r hmem
      have hnot : c ∉ (inst.connect channels tableCatalogs).exchangeInputs := by
        intro hinput
        have hto : c.targetFragmentId = inst.fragmentId :=
          of_decide_eq_true (Bool.and_eq_true_iff.mp (List.mem_filter.mp hinput).2).1
        rw [hto, hfrom] at hlt'
        exact hlt hlt'
      simp [FragmentInstance.reads, hnot]
    rw [flatMap_routedRows_eq_nil hnone, flatMap_routedRows_eq_nil hnone]

end Receives

/-! ## Scans and numbers of instances -/

/-- The instances of a covered fragment together read the whole of each table. -/
theorem sum_tableRows {read : TableScan → TableScanSplit → Multiset Row}
    (hcovers : ScheduleCovers env plan tableCatalogs graph) {fragment : PlanFragment}
    (hf : fragment ∈ plan.fragments) {localPlan : LogicalPlan}
    (hplan : fragment.localPlan = some localPlan) {scan : TableScan}
    (hscan : scan ∈ localPlan.tableScans) :
    ((graph.placements fragment.fragmentId).map fun inst =>
      (inst.connect channels tableCatalogs).tableRows env read scan).sum =
        tableRows env read scan := by
  cases hplanned : scan.plannedSplits env.engines with
  | error err => simp [FragmentInstance.tableRows, tableRows, hplanned]
  | ok planned =>
      have hperm := hcovers.splits fragment hf localPlan hplan scan hscan planned hplanned
      simp only [FragmentInstance.tableRows, tableRows, hplanned]
      rw [← scanRows_perm read scan hperm, scanRows_flatMap]
      rfl

/-- A piece without remote sources has an instance for each planned split of its only scan, or a
single one. -/
theorem runsInParts (h : Deployed plan newV4 graph channels) (r : BuildResult env p plan)
    (hremote : p.containsRemoteSource = false) {piece : Piece} (hpiece : piece ∈ r.pieces)
    (hlength : 2 ≤ (graph.placements piece.id).length) :
    ∃ scan planned, piece.sourcePlan.fragmentScans = [scan] ∧
      scan.plannedSplits env.engines = .ok planned ∧ 2 ≤ planned.length := by
  have hsplits := h.scheduled.splits_of_fragment r.fragmentIds_nodup
    (r.mem_fragments.mpr (Or.inr ⟨piece, hpiece, rfl⟩))
  have hcount : 2 ≤ (assignedInstances .source piece.splits).length := by
    rw [← r.assignedInstances_piece hpiece, ← r.fragment_kind hremote hpiece]
    have hlen := congrArg List.length hsplits
    rw [List.length_map] at hlen
    exact hlen ▸ hlength
  have hlists := r.piece_splitLists hpiece
  cases hempty : piece.splits.isEmpty with
  | true =>
      rw [assignedInstances_of_isEmpty _ hempty, List.length_singleton] at hcount
      omega
  | false =>
      rw [assignedInstances_source hempty] at hcount
      split at hcount
      next only honly =>
        rw [honly] at hlists
        obtain ⟨scan, scans, hscan, hnil, hscans⟩ := List.forall₂_cons_right_iff.mp hlists
        obtain rfl := List.forall₂_nil_right_iff.mp hnil
        exact ⟨scan, only, hscans, hscan, by simpa using hcount⟩
      next =>
        rw [List.length_nil] at hcount
        omega

end Outputs

end Deployed

end BrewDB

import BrewDB.Runtime.Exchange

/-!
# The channels of a query

What `build_exchange_channels` and `build_fragment_instances_from_graph` return: for every exchange a
channel from each source instance to each target instance, in this order, and for every instance the
channels it is named in. The output channels of an instance lead to the instances of the target
fragment, in the order they were scheduled.
-/

namespace BrewDB

/-- The channel ends of all exchanges. -/
def channelEnds (graph : ExecutionGraph) (exchanges : List ExchangeNode) : List ChannelEnds :=
  exchanges.flatMap fun exchange => (graph.placements exchange.sourceFragmentId).flatMap fun source =>
    (graph.placements exchange.targetFragmentId).map fun target => ⟨exchange, source, target⟩

theorem mem_channelEnds {graph : ExecutionGraph} {exchanges : List ExchangeNode} {e : ChannelEnds} :
    e ∈ channelEnds graph exchanges ↔ e.exchange ∈ exchanges ∧
      e.source ∈ graph.placements e.exchange.sourceFragmentId ∧
      e.target ∈ graph.placements e.exchange.targetFragmentId := by
  simp only [channelEnds, List.mem_flatMap, List.mem_map]
  constructor
  · rintro ⟨exchange, hexchange, source, hsource, target, htarget, rfl⟩
    exact ⟨hexchange, hsource, htarget⟩
  · rintro ⟨hexchange, hsource, htarget⟩
    exact ⟨e.exchange, hexchange, e.source, hsource, e.target, htarget, rfl⟩

theorem exchangeEnds_eq_ok_iff {graph : ExecutionGraph} {exchange : ExchangeNode}
    {ends : List ChannelEnds} :
    exchangeEnds graph exchange = .ok ends ↔
      (graph.placements exchange.sourceFragmentId ≠ [] ∧
        graph.placements exchange.targetFragmentId ≠ []) ∧
      ends = (graph.placements exchange.sourceFragmentId).flatMap fun source =>
        (graph.placements exchange.targetFragmentId).map fun target => ⟨exchange, source, target⟩ := by
  unfold exchangeEnds
  by_cases hsource : graph.placements exchange.sourceFragmentId = []
  · simp [hsource]
  · by_cases htarget : graph.placements exchange.targetFragmentId = []
    · simp [hsource, htarget]
    · have hsource' : (graph.placements exchange.sourceFragmentId).isEmpty = false := by
        simpa using hsource
      have htarget' : (graph.placements exchange.targetFragmentId).isEmpty = false := by
        simpa using htarget
      rw [hsource', htarget']
      simp only [Bool.false_eq_true, if_false, Except.ok.injEq]
      exact ⟨fun h => ⟨⟨hsource, htarget⟩, h.symm⟩, fun h => h.2.symm⟩

/-- Channels are built exactly when both ends of every exchange are scheduled. -/
theorem buildExchangeChannels_eq_ok_iff {exchanges : List ExchangeNode} {graph : ExecutionGraph}
    {channels : List ExchangeChannelDescriptor} :
    buildExchangeChannels exchanges graph = .ok channels ↔
      (∀ exchange ∈ exchanges, graph.placements exchange.sourceFragmentId ≠ [] ∧
        graph.placements exchange.targetFragmentId ≠ []) ∧
      channels = (channelEnds graph exchanges).zipIdx.map fun e => e.1.descriptor e.2 := by
  have hends : ∀ {l : List ExchangeNode} {ends : List (List ChannelEnds)},
      l.mapM (exchangeEnds graph) = .ok ends ↔
        (∀ exchange ∈ l, graph.placements exchange.sourceFragmentId ≠ [] ∧
          graph.placements exchange.targetFragmentId ≠ []) ∧
        ends = l.map fun exchange => (graph.placements exchange.sourceFragmentId).flatMap fun source =>
          (graph.placements exchange.targetFragmentId).map fun target =>
            ⟨exchange, source, target⟩ := by
    intro l ends
    rw [ExceptRun.mapM_eq_ok]
    simp only [exchangeEnds_eq_ok_iff]
    induction l generalizing ends with
    | nil => simp
    | cons exchange l ih =>
        rw [List.forall₂_cons_left_iff, List.forall_mem_cons, List.map_cons]
        constructor
        · rintro ⟨first, rest, ⟨hne, rfl⟩, hrest, rfl⟩
          obtain ⟨hall, rfl⟩ := ih.mp hrest
          exact ⟨⟨hne, hall⟩, rfl⟩
        · rintro ⟨⟨hne, hall⟩, rfl⟩
          exact ⟨_, _, ⟨hne, rfl⟩, ih.mpr ⟨hall, rfl⟩, rfl⟩
  rw [buildExchangeChannels, ExceptRun.bind_eq_ok]
  simp only [hends, ExceptRun.pure_eq_ok]
  constructor
  · rintro ⟨ends, ⟨hall, rfl⟩, rfl⟩
    exact ⟨hall, by rw [channelEnds, List.flatMap_def]⟩
  · rintro ⟨hall, rfl⟩
    exact ⟨_, ⟨hall, rfl⟩, by rw [channelEnds, List.flatMap_def]⟩

/-- An instance with its channels. -/
def FragmentInstance.connect (channels : List ExchangeChannelDescriptor)
    (tableCatalogs : List TableCatalogEntry) (inst : FragmentInstance) : FragmentInstance :=
  { inst with
    exchangeInputs := channels.filter fun channel =>
      channel.targetFragmentId = inst.fragmentId && channel.targetInstanceId = inst.instanceId
    exchangeOutputs := channels.filter fun channel =>
      channel.sourceFragmentId = inst.fragmentId && channel.sourceInstanceId = inst.instanceId
    tableCatalogs := tableCatalogs }

/-- The instances of a graph with their channels. -/
def ExecutionGraph.connect (graph : ExecutionGraph) (channels : List ExchangeChannelDescriptor)
    (tableCatalogs : List TableCatalogEntry) : List FragmentInstance :=
  graph.instances.map (FragmentInstance.connect channels tableCatalogs)

theorem buildFragmentInstancesFromGraph_eq_ok_iff {graph : ExecutionGraph}
    {exchanges : List ExchangeNode} {tableCatalogs : List TableCatalogEntry}
    {instances : List FragmentInstance} :
    buildFragmentInstancesFromGraph graph exchanges tableCatalogs = .ok instances ↔
      ∃ channels, buildExchangeChannels exchanges graph = .ok channels ∧
        instances = graph.connect channels tableCatalogs := by
  rw [buildFragmentInstancesFromGraph, ExceptRun.bind_eq_ok]
  refine exists_congr fun channels => and_congr_right fun _ => ?_
  rw [ExceptRun.pure_eq_ok, eq_comm]
  rfl

/-! ## The output channels of an instance -/

/-- A list traversal in which only one member contributes. -/
theorem flatMap_eq_of_mem {α β : Type} {l : List α} {f : α → List β} {a : α} (hl : l.Nodup)
    (ha : a ∈ l) (h : ∀ b ∈ l, b ≠ a → f b = []) : l.flatMap f = f a := by
  induction l with
  | nil => cases ha
  | cons b l ih =>
      obtain ⟨hb, hl⟩ := List.nodup_cons.mp hl
      rw [List.forall_mem_cons] at h
      rcases List.mem_cons.mp ha with rfl | ha
      · have hrest : l.flatMap f = [] :=
          List.flatMap_eq_nil_iff.mpr fun c hc => h.2 c hc fun heq => hb (heq ▸ hc)
        rw [List.flatMap_cons, hrest, List.append_nil]
      · rw [List.flatMap_cons, h.1 fun heq => hb (heq ▸ ha), ih hl ha h.2, List.nil_append]

/-- The ends of the channels that start at an instance. -/
def endsFrom (graph : ExecutionGraph) (exchanges : List ExchangeNode) (source : FragmentInstance) :
    List ChannelEnds :=
  (channelEnds graph exchanges).filter fun e =>
    e.exchange.sourceFragmentId = source.fragmentId && e.source.instanceId = source.instanceId

section Outputs

variable {graph : ExecutionGraph} {exchanges : List ExchangeNode}

/-- The output channels of an instance, up to their numbers. -/
theorem exchangeOutputs_map {κ : Type} (tableCatalogs : List TableCatalogEntry)
    (source : FragmentInstance) {f : ExchangeChannelDescriptor → κ} {g : ChannelEnds → κ}
    (hfg : ∀ e index, f (ChannelEnds.descriptor e index) = g e) :
    (source.connect ((channelEnds graph exchanges).zipIdx.map fun e => e.1.descriptor e.2)
      tableCatalogs).exchangeOutputs.map f = (endsFrom graph exchanges source).map g := by
  show (((channelEnds graph exchanges).zipIdx.map fun e => e.1.descriptor e.2).filter _).map f = _
  rw [List.filter_map, List.map_map]
  have hcomp : (f ∘ fun e : ChannelEnds × ℕ => e.1.descriptor e.2) = g ∘ Prod.fst :=
    funext fun e => hfg e.1 e.2
  rw [hcomp, ← List.map_map, endsFrom]
  conv_rhs => rw [← List.zipIdx_map_fst 0 (channelEnds graph exchanges), List.filter_map]
  rfl

/-- The channels that start at an instance: the exchanges of its fragment, each with a channel to
every target instance. -/
theorem endsFrom_eq_flatMap (hinstances : (graph.instances.map FragmentInstance.instanceId).Nodup)
    {source : FragmentInstance} (hsource : source ∈ graph.instances) :
    endsFrom graph exchanges source =
      (exchanges.filter (·.sourceFragmentId = source.fragmentId)).flatMap fun exchange =>
        (graph.placements exchange.targetFragmentId).map fun target => ⟨exchange, source, target⟩ := by
  rw [endsFrom, channelEnds, List.filter_flatMap]
  induction exchanges with
  | nil => rfl
  | cons exchange exchanges ih =>
      rw [List.flatMap_cons, ih, List.filter_cons]
      by_cases hid : exchange.sourceFragmentId = source.fragmentId
      · have hmem : source ∈ graph.placements exchange.sourceFragmentId :=
          List.mem_filter.mpr ⟨hsource, decide_eq_true hid.symm⟩
        have hsources : ((graph.placements exchange.sourceFragmentId).map
            FragmentInstance.instanceId).Nodup := hinstances.sublist (List.filter_sublist.map _)
        rw [if_pos (decide_eq_true hid), List.flatMap_cons, List.filter_flatMap,
          flatMap_eq_of_mem (List.Nodup.of_map _ hsources) hmem]
        · congr 1
          refine List.filter_eq_self.mpr fun e he => ?_
          obtain ⟨target, -, rfl⟩ := List.mem_map.mp he
          simp [hid]
        · intro other hother hne
          refine List.filter_eq_nil_iff.mpr fun e he => ?_
          obtain ⟨target, -, rfl⟩ := List.mem_map.mp he
          have hids : other.instanceId ≠ source.instanceId := fun heq =>
            hne (List.inj_on_of_nodup_map hsources hother hmem heq)
          simp [hids]
      · rw [if_neg (by simpa using hid)]
        convert List.nil_append _
        refine List.filter_eq_nil_iff.mpr fun e he => ?_
        obtain ⟨source', -, he⟩ := List.mem_flatMap.mp he
        obtain ⟨target, -, rfl⟩ := List.mem_map.mp he
        simp [hid]

/-- With one exchange for each source fragment, an instance has a channel to each target instance. -/
theorem endsFrom_eq (hexchanges : (exchanges.map ExchangeNode.sourceFragmentId).Nodup)
    (hinstances : (graph.instances.map FragmentInstance.instanceId).Nodup) {exchange : ExchangeNode}
    (hexchange : exchange ∈ exchanges) {source : FragmentInstance}
    (hsource : source ∈ graph.placements exchange.sourceFragmentId) :
    endsFrom graph exchanges source =
      (graph.placements exchange.targetFragmentId).map fun target =>
        ⟨exchange, source, target⟩ := by
  obtain ⟨hmem, hid⟩ := List.mem_filter.mp hsource
  have hid : source.fragmentId = exchange.sourceFragmentId := of_decide_eq_true hid
  have hnodup : (exchanges.filter (·.sourceFragmentId = source.fragmentId)).Nodup :=
    (List.Nodup.of_map _ hexchanges).filter _
  rw [endsFrom_eq_flatMap hinstances hmem, flatMap_eq_of_mem hnodup]
  · exact List.mem_filter.mpr ⟨hexchange, decide_eq_true hid.symm⟩
  · intro other hother hne
    obtain ⟨hother, hids⟩ := List.mem_filter.mp hother
    have hids : other.sourceFragmentId = exchange.sourceFragmentId := (of_decide_eq_true hids).trans hid
    exact absurd (List.inj_on_of_nodup_map hexchanges hother hexchange hids) hne

end Outputs

/-! ## The wiring of a graph -/

/-- Channel ids are distinct as long as they fit in a `u32`. -/
theorem exchangeIds_nodup {ends : List ChannelEnds} (hfit : ends.length ≤ 2 ^ 32) :
    ((ends.zipIdx.map fun e => e.1.descriptor e.2).map
      ExchangeChannelDescriptor.exchangeId).Nodup := by
  have hids : (ends.zipIdx.map fun e => e.1.descriptor e.2).map
      ExchangeChannelDescriptor.exchangeId = List.range ends.length := by
    rw [List.map_map]
    refine List.ext_getElem (by simp) fun n hn hn' => ?_
    have hlt : n < 2 ^ 32 := by
      simp only [List.length_map, List.length_zipIdx] at hn
      omega
    simp only [List.getElem_map, List.getElem_zipIdx, List.getElem_range, Function.comp_apply,
      ChannelEnds.descriptor, Nat.zero_add]
    exact Nat.mod_eq_of_lt hlt
  rw [hids]
  exact List.nodup_range

/-- The position of an exchange with an instance of its source and one of its target fragment. -/
def exchangePairs (graph : ExecutionGraph) (exchanges : List ExchangeNode) :
    List (ℕ × FragmentInstance × FragmentInstance) :=
  exchanges.zipIdx.flatMap fun exchange =>
    (graph.placements exchange.1.sourceFragmentId).flatMap fun source =>
      (graph.placements exchange.1.targetFragmentId).map fun target => (exchange.2, source, target)

/-- What `build_fragment_instances_from_graph` makes of the channels of a graph. -/
structure Wiring (graph : ExecutionGraph) (exchanges : List ExchangeNode)
    (channels : List ExchangeChannelDescriptor) (instances : List FragmentInstance) : Prop where
  -- the channels stand for the triples of an exchange, a source and a target, one for one
  one_channel_each : ∃ pairs : List (ℕ × FragmentInstance × FragmentInstance), pairs.Nodup ∧
    (∀ index source target, (index, source, target) ∈ pairs ↔
      ∃ exchange, exchanges[index]? = some exchange ∧
        (source ∈ graph.instances ∧ source.fragmentId = exchange.sourceFragmentId) ∧
        (target ∈ graph.instances ∧ target.fragmentId = exchange.targetFragmentId)) ∧
    List.Forall₂ (fun channel pair => ∃ exchange, exchanges[pair.1]? = some exchange ∧
      channel = ChannelEnds.descriptor ⟨exchange, pair.2.1, pair.2.2⟩ channel.exchangeId)
      channels pairs
  ids_nodup : (channels.map ExchangeChannelDescriptor.exchangeId).Nodup
  instanceIds_eq : instances.map FragmentInstance.instanceId =
    graph.instances.map FragmentInstance.instanceId
  exists_source : ∀ channel ∈ channels, ∃ inst ∈ instances,
    inst.instanceId = channel.sourceInstanceId
  exists_target : ∀ channel ∈ channels, ∃ inst ∈ instances,
    inst.instanceId = channel.targetInstanceId
  count_outputs : ∀ inst ∈ instances, ∀ channel, inst.exchangeOutputs.count channel =
    if channel ∈ channels ∧ inst.instanceId = channel.sourceInstanceId then 1 else 0
  count_inputs : ∀ inst ∈ instances, ∀ channel, inst.exchangeInputs.count channel =
    if channel ∈ channels ∧ inst.instanceId = channel.targetInstanceId then 1 else 0
  targets_in_order : ∀ inst ∈ instances,
    inst.exchangeOutputs.map (fun channel => (channel.targetFragmentId, channel.targetInstanceId)) =
      (exchanges.filter (·.sourceFragmentId = inst.fragmentId)).flatMap fun exchange =>
        (graph.placements exchange.targetFragmentId).map fun target =>
          (exchange.targetFragmentId, target.instanceId)

section Wiring

variable {graph : ExecutionGraph} {exchanges : List ExchangeNode}

theorem mem_placements {id : PlanFragmentId} {inst : FragmentInstance} :
    inst ∈ graph.placements id ↔ inst ∈ graph.instances ∧ inst.fragmentId = id := by
  rw [ExecutionGraph.placements, List.mem_filter, decide_eq_true_eq]

theorem mem_exchangePairs {index : ℕ} {source target : FragmentInstance} :
    (index, source, target) ∈ exchangePairs graph exchanges ↔
      ∃ exchange, exchanges[index]? = some exchange ∧
        (source ∈ graph.instances ∧ source.fragmentId = exchange.sourceFragmentId) ∧
        (target ∈ graph.instances ∧ target.fragmentId = exchange.targetFragmentId) := by
  simp only [exchangePairs, List.mem_flatMap, List.mem_map, Prod.mk.injEq]
  constructor
  · rintro ⟨⟨exchange, _⟩, hzip, source', hsource, target', htarget, rfl, rfl, rfl⟩
    exact ⟨exchange, List.mem_zipIdx_iff_getElem?.mp hzip, mem_placements.mp hsource,
      mem_placements.mp htarget⟩
  · rintro ⟨exchange, hget, hsource, htarget⟩
    exact ⟨(exchange, index), List.mem_zipIdx_iff_getElem?.mpr hget, source,
      mem_placements.mpr hsource, target, mem_placements.mpr htarget, rfl, rfl, rfl⟩

theorem nodup_exchangePairs (hinstances : graph.instances.Nodup) :
    (exchangePairs graph exchanges).Nodup := by
  have hplacements : ∀ id, (graph.placements id).Nodup := fun id => hinstances.filter _
  rw [exchangePairs, List.nodup_flatMap]
  refine ⟨fun exchange _ => ?_, ?_⟩
  · rw [List.nodup_flatMap]
    refine ⟨fun source _ => (hplacements _).map fun t t' h => ?_,
      (hplacements _).imp fun hne p hp hp' => ?_⟩
    · exact (Prod.mk.inj (Prod.mk.inj h).2).2
    · obtain ⟨_, -, rfl⟩ := List.mem_map.mp hp
      obtain ⟨_, -, h⟩ := List.mem_map.mp hp'
      exact hne (Prod.mk.inj (Prod.mk.inj h).2).1.symm
  · -- pairs of different exchanges differ in the position
    have hpositions : (exchanges.zipIdx.map Prod.snd).Nodup := by
      rw [List.zipIdx_map_snd]
      exact List.nodup_range'
    refine (List.pairwise_map.mp hpositions).imp fun hne p hp hp' => ?_
    obtain ⟨_, -, hp⟩ := List.mem_flatMap.mp hp
    obtain ⟨_, -, rfl⟩ := List.mem_map.mp hp
    obtain ⟨_, -, hp'⟩ := List.mem_flatMap.mp hp'
    obtain ⟨_, -, h⟩ := List.mem_map.mp hp'
    exact hne (Prod.mk.inj h).1.symm

/-- The channel ends of an exchange in its position. -/
theorem forall₂_channelEnds (graph : ExecutionGraph) (exchanges : List ExchangeNode) (k : ℕ) :
    List.Forall₂ (fun ends pair => ends.source = pair.2.1 ∧ ends.target = pair.2.2 ∧
        k ≤ pair.1 ∧ exchanges[pair.1 - k]? = some ends.exchange)
      (channelEnds graph exchanges)
      ((exchanges.zipIdx k).flatMap fun exchange =>
        (graph.placements exchange.1.sourceFragmentId).flatMap fun source =>
          (graph.placements exchange.1.targetFragmentId).map fun target =>
            (exchange.2, source, target)) := by
  induction exchanges generalizing k with
  | nil => exact .nil
  | cons exchange exchanges ih =>
      rw [channelEnds, List.flatMap_cons, List.zipIdx_cons, List.flatMap_cons]
      refine List.rel_append ?_ ((ih (k + 1)).imp ?_)
      · refine List.rel_flatMap (R := Eq) (List.forall₂_refl _) fun source _ hsource => ?_
        subst hsource
        refine List.forall₂_map_left_iff.mpr (List.forall₂_map_right_iff.mpr ?_)
        refine List.forall₂_same.mpr fun target _ => ?_
        simp
      · rintro ends pair ⟨hsource, htarget, hle, hget⟩
        refine ⟨hsource, htarget, by omega, ?_⟩
        rw [show pair.1 - k = pair.1 - (k + 1) + 1 from by omega, List.getElem?_cons_succ]
        exact hget

/-- Every channel of a list of distinct ones goes to the instances its filter selects, once. -/
theorem count_filter_channels {channels : List ExchangeChannelDescriptor} (hnodup : channels.Nodup)
    {p : ExchangeChannelDescriptor → Bool} {q : Prop} [Decidable q]
    {channel : ExchangeChannelDescriptor} (hp : channel ∈ channels → (p channel = true ↔ q)) :
    (channels.filter p).count channel = if channel ∈ channels ∧ q then 1 else 0 := by
  have hmem : channel ∈ channels.filter p ↔ channel ∈ channels ∧ q := by
    rw [List.mem_filter]
    exact and_congr_right hp
  split
  · next h => exact List.count_eq_one_of_mem (hnodup.filter p) (hmem.mpr h)
  · next h => exact List.count_eq_zero_of_not_mem fun hin => h (hmem.mp hin)

/-- A channel comes from an instance of the source fragment and leads to one of the target fragment. -/
theorem ends_of_mem_channels {channel : ExchangeChannelDescriptor}
    (h : channel ∈ (channelEnds graph exchanges).zipIdx.map fun e => e.1.descriptor e.2) :
    (∃ source ∈ graph.instances, source.fragmentId = channel.sourceFragmentId ∧
      source.instanceId = channel.sourceInstanceId) ∧
    ∃ target ∈ graph.instances, target.fragmentId = channel.targetFragmentId ∧
      target.instanceId = channel.targetInstanceId := by
  obtain ⟨⟨e, index⟩, he, rfl⟩ := List.mem_map.mp h
  obtain ⟨-, hsource, htarget⟩ := mem_channelEnds.mp (List.fst_mem_of_mem_zipIdx he)
  obtain ⟨hsource, hsourceId⟩ := mem_placements.mp hsource
  obtain ⟨htarget, htargetId⟩ := mem_placements.mp htarget
  exact ⟨⟨e.source, hsource, hsourceId, rfl⟩, ⟨e.target, htarget, htargetId, rfl⟩⟩

/-- An instance is the end of a channel when it has the id the channel names. -/
theorem isEnd_iff (hids : (graph.instances.map FragmentInstance.instanceId).Nodup)
    {inst : FragmentInstance} (hinst : inst ∈ graph.instances) {fragmentId : PlanFragmentId}
    {instanceId : Uuid} (hend : ∃ e ∈ graph.instances, e.fragmentId = fragmentId ∧
      e.instanceId = instanceId) :
    (decide (fragmentId = inst.fragmentId) && decide (instanceId = inst.instanceId)) = true ↔
      inst.instanceId = instanceId := by
  rw [Bool.and_eq_true, decide_eq_true_eq, decide_eq_true_eq]
  constructor
  · rintro ⟨-, h⟩
    exact h.symm
  · intro h
    obtain ⟨e, he, hfragment, hid⟩ := hend
    obtain rfl : e = inst := List.inj_on_of_nodup_map hids he hinst (hid.trans h.symm)
    exact ⟨hfragment.symm, hid.symm⟩

/-- Instances with distinct ids are wired. -/
theorem wiring_connect (hids : (graph.instances.map FragmentInstance.instanceId).Nodup)
    (hfit : (channelEnds graph exchanges).length ≤ 2 ^ 32) (tableCatalogs : List TableCatalogEntry) :
    Wiring graph exchanges ((channelEnds graph exchanges).zipIdx.map fun e => e.1.descriptor e.2)
      (graph.connect ((channelEnds graph exchanges).zipIdx.map fun e => e.1.descriptor e.2)
        tableCatalogs) where
  one_channel_each := by
    refine ⟨exchangePairs graph exchanges, nodup_exchangePairs (List.Nodup.of_map _ hids),
      fun index source target => mem_exchangePairs, ?_⟩
    have hends := forall₂_channelEnds graph exchanges 0
    rw [← List.zipIdx_map_fst 0 (channelEnds graph exchanges), List.forall₂_map_left_iff] at hends
    refine List.forall₂_map_left_iff.mpr (hends.imp fun e pair h => ?_)
    obtain ⟨hsource, htarget, -, hget⟩ := h
    refine ⟨e.1.exchange, hget, ?_⟩
    rw [← hsource, ← htarget]
    simp only [ChannelEnds.descriptor, Nat.mod_mod]
  ids_nodup := exchangeIds_nodup hfit
  instanceIds_eq := by
    rw [ExecutionGraph.connect, List.map_map]
    rfl
  exists_source channel hchannel := by
    obtain ⟨⟨source, hsource, -, hid⟩, -⟩ := ends_of_mem_channels hchannel
    exact ⟨_, List.mem_map_of_mem hsource, hid⟩
  exists_target channel hchannel := by
    obtain ⟨-, target, htarget, -, hid⟩ := ends_of_mem_channels hchannel
    exact ⟨_, List.mem_map_of_mem htarget, hid⟩
  count_outputs inst hinst channel := by
    obtain ⟨scheduled, hscheduled, rfl⟩ := List.mem_map.mp hinst
    exact count_filter_channels (List.Nodup.of_map _ (exchangeIds_nodup hfit)) fun hchannel =>
      isEnd_iff hids hscheduled (ends_of_mem_channels hchannel).1
  count_inputs inst hinst channel := by
    obtain ⟨scheduled, hscheduled, rfl⟩ := List.mem_map.mp hinst
    exact count_filter_channels (List.Nodup.of_map _ (exchangeIds_nodup hfit)) fun hchannel =>
      isEnd_iff hids hscheduled (ends_of_mem_channels hchannel).2
  targets_in_order inst hinst := by
    obtain ⟨scheduled, hscheduled, rfl⟩ := List.mem_map.mp hinst
    rw [exchangeOutputs_map tableCatalogs scheduled
      (g := fun e => (e.exchange.targetFragmentId, e.target.instanceId)) fun e index => rfl,
      endsFrom_eq_flatMap hids hscheduled, List.map_flatMap]
    refine List.flatMap_congr fun exchange _ => ?_
    rw [List.map_map]
    rfl

/-- Channels are missing exactly when an end of an exchange has no instance. -/
theorem buildExchangeChannels_eq_error_iff :
    (∃ err, buildExchangeChannels exchanges graph = .error err) ↔
      ∃ exchange ∈ exchanges, (∀ inst ∈ graph.instances, inst.fragmentId ≠ exchange.sourceFragmentId) ∨
        ∀ inst ∈ graph.instances, inst.fragmentId ≠ exchange.targetFragmentId := by
  have hplacements : ∀ id, graph.placements id = [] ↔ ∀ inst ∈ graph.instances, inst.fragmentId ≠ id := by
    intro id
    simp only [List.eq_nil_iff_forall_not_mem, mem_placements, not_and, ne_eq]
  simp only [← hplacements]
  constructor
  · rintro ⟨err, herr⟩
    by_contra hnone
    push Not at hnone
    have hok := buildExchangeChannels_eq_ok_iff.mpr ⟨hnone, rfl⟩
    rw [herr] at hok
    cases hok
  · rintro ⟨exchange, hexchange, hempty⟩
    cases hbuilt : buildExchangeChannels exchanges graph with
    | error err => exact ⟨err, rfl⟩
    | ok channels =>
        obtain ⟨hsource, htarget⟩ :=
          (buildExchangeChannels_eq_ok_iff.mp hbuilt).1 exchange hexchange
        exact absurd hempty (not_or.mpr ⟨hsource, htarget⟩)

/-- Channel wiring is a perfect matching. -/
theorem buildFragmentInstances_wiring
    (hids : (graph.instances.map FragmentInstance.instanceId).Nodup)
    (tableCatalogs : List TableCatalogEntry) :
    ((∃ err, buildExchangeChannels exchanges graph = .error err) ↔
      ∃ exchange ∈ exchanges, (∀ inst ∈ graph.instances, inst.fragmentId ≠ exchange.sourceFragmentId) ∨
        ∀ inst ∈ graph.instances, inst.fragmentId ≠ exchange.targetFragmentId) ∧
    ∀ channels, buildExchangeChannels exchanges graph = .ok channels → channels.length < 2 ^ 32 →
      ∃ instances, buildFragmentInstancesFromGraph graph exchanges tableCatalogs = .ok instances ∧
        Wiring graph exchanges channels instances := by
  refine ⟨buildExchangeChannels_eq_error_iff, fun channels hbuilt hfit => ?_⟩
  obtain ⟨-, rfl⟩ := buildExchangeChannels_eq_ok_iff.mp hbuilt
  rw [List.length_map, List.length_zipIdx] at hfit
  exact ⟨_, buildFragmentInstancesFromGraph_eq_ok_iff.mpr ⟨_, hbuilt, rfl⟩,
    wiring_connect hids hfit.le tableCatalogs⟩

end Wiring

/-- Two instances that scan `orders`, and one that gathers their rows. -/
def Sample.gatherGraph : ExecutionGraph where
  fragments := []
  instances :=
    let scan : ExecutionFragment := ⟨⟨1, .source, some Sample.scanOrders, none⟩⟩
    let root : ExecutionFragment := ⟨⟨0, .root, some Sample.scanOrders, none⟩⟩
    [.scheduled 10 scan 0 "rpc://worker-0" none, .scheduled 11 scan 0 "rpc://worker-0" none,
      .scheduled 12 root 0 "rpc://worker-0" none]

theorem buildFragmentInstances_wiring_gather :
    ∃ channels, buildExchangeChannels [.gather 1 0] Sample.gatherGraph = .ok channels ∧
      channels.length = 2 ∧
      ∃ instances, buildFragmentInstancesFromGraph Sample.gatherGraph [.gather 1 0] [Sample.orders] =
        .ok instances ∧ Wiring Sample.gatherGraph [.gather 1 0] channels instances := by
  refine ⟨_, rfl, rfl, ?_⟩
  exact (buildFragmentInstances_wiring (by decide) [Sample.orders]).2 _ rfl (by decide)

end BrewDB

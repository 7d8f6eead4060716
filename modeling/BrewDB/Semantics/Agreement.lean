import BrewDB.Execution.Query
import BrewDB.Semantics.Deployment

/-!
# Distributed and standalone execution

A distributed run of a built plan returns at its root what the plan may return in one piece, if every
fragment gets its instances, every batch can be routed, and fragments that run in several instances
have only operators that can be repeated there.

Only aggregates and joins cut the plan. Every other operator is repeated in all instances of the
fragment it is found in, whether it acts on single rows or not: below a cut, a `LIMIT`, a `DISTINCT` or
a window over a table with two splits is computed once for each split.
-/

namespace BrewDB

open Finset (range)
open LogicalPlan

/-- The fragment below this input runs in several instances: its only scan has several splits. -/
def RunsInParts (env : PlannerEnv) (input : LogicalPlan) : Prop :=
  ∃ scan planned, input.fragmentScans = [scan] ∧
    scan.plannedSplits env.engines = .ok planned ∧ 2 ≤ planned.length

/-- Every input that is cut off gets its instances and can be routed, and if it runs in several
instances, its operators can be repeated. -/
def Distributes (env : PlannerEnv) (ops : Operators)
    (read : TableScan → TableScanSplit → Multiset Row) (p : LogicalPlan) : Prop :=
  ∀ cut ∈ p.cuts, Schedulable env cut.2 ∧ KeysRoutable cut ∧
    (RunsInParts env cut.2 → cut.2.Splittable ops (tableRows env read))

/-- Local plans have a meaning if the plan has one. -/
theorem Rewrites.allInScope {env : PlannerEnv} {current next : ℕ} {ps qs : List LogicalPlan}
    {pieces : List Piece} (h : Rewrites env current next ps qs pieces) (hps : AllInScope ps) :
    AllInScope qs := by
  induction h with
  | nil => trivial
  | cons _ _ ihp ihps => exact ⟨(ihp ⟨hps.1, trivial⟩).1, ihps hps.2⟩
  | copied _ => exact hps
  | unary _ _ ih =>
      obtain ⟨hp, -⟩ := hps
      rw [InScope] at hp
      refine ⟨?_, trivial⟩
      rw [InScope]
      exact (ih ⟨hp, trivial⟩).1
  | union _ _ ih =>
      obtain ⟨hp, -⟩ := hps
      rw [InScope] at hp
      refine ⟨?_, trivial⟩
      rw [InScope]
      exact ih hp
  | aggregate _ _ _ _ =>
      refine ⟨?_, trivial⟩
      rw [InScope, RemoteSourceNode.plan, InScope]
      trivial
  | join _ _ _ _ _ _ _ _ =>
      refine ⟨?_, trivial⟩
      rw [InScope, RemoteSourceNode.plan, RemoteSourceNode.plan, InScope, InScope]
      exact ⟨trivial, trivial⟩

/-- What is cut off a plan has a meaning if the plan has one. -/
theorem LogicalPlan.inScope_of_mem_cuts {p : LogicalPlan} (hp : p.InScope)
    {cut : CutOperator × LogicalPlan} (hcut : cut ∈ p.cuts) : cut.2.InScope := by
  refine of_mem_cuts (P := InScope) (fun node input h => ?_) (fun inputs schema h => ?_)
    (fun agg input h => ?_) (fun j left right h => ?_) hp hcut
  · rwa [InScope] at h
  · rwa [InScope, allInScope_iff] at h
  · rwa [InScope] at h
  · rwa [InScope] at h

section Agreement

variable {env : PlannerEnv} {p : LogicalPlan} {plan : DistributedFragmentPlan} {newV4 : ℕ → Uuid}
  {graph : ExecutionGraph} {channels : List ExchangeChannelDescriptor}
  {tableCatalogs : List TableCatalogEntry} {ops : Operators} {hash : List TypedCell → ℕ}
  {read : TableScan → TableScanSplit → Multiset Row} {run : Uuid → List RecordBatch}

/-- Every fragment has a local plan with a meaning. -/
theorem BuildResult.exists_localPlan (r : BuildResult env p plan) (hp : p.InScope)
    {fragment : PlanFragment} (hf : fragment ∈ plan.fragments) :
    ∃ localPlan, fragment.localPlan = some localPlan ∧ localPlan.InScope := by
  rcases r.mem_fragments.mp hf with rfl | ⟨piece, hpiece, rfl⟩
  · exact ⟨_, rfl, (r.rewrites.allInScope ⟨hp, trivial⟩).1⟩
  · obtain ⟨inner, hinner, -, -⟩ := r.forest.parts piece hpiece
    have hcut : (piece.operator, piece.sourcePlan) ∈ p.cuts :=
      r.map_cut ▸ List.mem_map_of_mem hpiece
    exact ⟨_, rfl, (hinner.allInScope ⟨inScope_of_mem_cuts hp hcut, trivial⟩).1⟩

namespace Deployed

/-! ## There is a run -/

/-- A function on distinct keys can be chosen member by member. -/
theorem exists_of_nodup_map {α κ β : Type} [DecidableEq κ] [Inhabited β] {key : α → κ} {l : List α}
    (h : (l.map key).Nodup) (f : α → β) : ∃ g : κ → β, ∀ a ∈ l, g (key a) = f a := by
  induction l with
  | nil => exact ⟨fun _ => default, List.forall_mem_nil _⟩
  | cons a l ih =>
      rw [List.map_cons, List.nodup_cons] at h
      obtain ⟨g, hg⟩ := ih h.2
      refine ⟨Function.update g (key a) (f a), List.forall_mem_cons.mpr ⟨?_, fun b hb => ?_⟩⟩
      · exact Function.update_self _ _ _
      · have hne : key b ≠ key a := fun heq => h.1 (heq ▸ List.mem_map_of_mem hb)
        rw [Function.update_of_ne hne, hg b hb]

/-- Whatever it receives, an instance can produce something. -/
theorem exists_returns (h : Deployed plan newV4 graph channels) (r : BuildResult env p plan)
    (hp : p.InScope) (run : Uuid → List RecordBatch) {inst : FragmentInstance}
    (hinst : inst ∈ graph.instances) :
    ∃ batches, (inst.connect channels tableCatalogs).Returns env ops hash read
      (graph.connect channels tableCatalogs) run batches := by
  obtain ⟨localPlan, hlocal, hscope⟩ := r.exists_localPlan hp (h.fragment_mem hinst)
  obtain ⟨rows, hrows⟩ := exists_evaluates ops
    ((inst.connect channels tableCatalogs).tableRows env read)
    ((inst.connect channels tableCatalogs).receives hash (graph.connect channels tableCatalogs) run)
    hscope
  refine ⟨[⟨localPlan.schema.asArrow, rows⟩], localPlan, hlocal, ?_, List.forall_mem_singleton.mpr rfl⟩
  simpa [batchRows] using hrows

/-- The fragments whose ids are within `k` of the largest have run. -/
def RanDownTo (env : PlannerEnv) (ops : Operators) (hash : List TypedCell → ℕ)
    (read : TableScan → TableScanSplit → Multiset Row) (graph : ExecutionGraph)
    (channels : List ExchangeChannelDescriptor) (tableCatalogs : List TableCatalogEntry)
    (bound k : ℕ) (run : Uuid → List RecordBatch) : Prop :=
  ∀ inst ∈ graph.instances, bound ≤ inst.fragmentId + k →
    (inst.connect channels tableCatalogs).Returns env ops hash read
      (graph.connect channels tableCatalogs) run (run inst.instanceId)

/-- The next fragment can run on what the others sent it, and they are not disturbed. -/
theorem exists_ranDownTo_succ (h : Deployed plan newV4 graph channels) (r : BuildResult env p plan)
    (hp : p.InScope) {bound k : ℕ} {run : Uuid → List RecordBatch}
    (hrun : RanDownTo env ops hash read graph channels tableCatalogs bound k run) :
    ∃ run', RanDownTo env ops hash read graph channels tableCatalogs bound (k + 1) run' := by
  have hbatches : ∀ inst ∈ graph.instances, ∃ batches,
      (inst.connect channels tableCatalogs).Returns env ops hash read
        (graph.connect channels tableCatalogs) run batches :=
    fun inst hinst => h.exists_returns r hp run hinst
  choose! batches hbatches using hbatches
  obtain ⟨run', hrun'⟩ := exists_of_nodup_map h.instanceIds_nodup fun inst =>
    if bound ≤ inst.fragmentId + k then run inst.instanceId else batches inst
  refine ⟨run', fun inst hinst hle => ?_⟩
  -- senders have larger ids, and for these nothing has changed
  have hsame : (inst.connect channels tableCatalogs).receives hash
      (graph.connect channels tableCatalogs) run =
      (inst.connect channels tableCatalogs).receives hash
        (graph.connect channels tableCatalogs) run' := by
    refine h.receives_congr tableCatalogs r fun source hsource hlt => ?_
    have hdone : bound ≤ source.fragmentId + k := by
      rw [← Nat.succ_add_eq_add_succ] at hle
      exact le_trans hle (Nat.add_le_add_right hlt k)
    rw [hrun' source hsource, if_pos hdone]
  have hreturns : (inst.connect channels tableCatalogs).Returns env ops hash read
      (graph.connect channels tableCatalogs) run (run' inst.instanceId) := by
    rw [hrun' inst hinst]
    split
    next hdone => exact hrun inst hinst hdone
    next => exact hbatches inst hinst
  unfold FragmentInstance.Returns at hreturns ⊢
  rwa [hsame] at hreturns

/-- There is a distributed run: fragments are run by descending id, as none receives anything from a
fragment with a smaller id. -/
theorem exists_distributedRun (h : Deployed plan newV4 graph channels) (r : BuildResult env p plan)
    (hp : p.InScope) :
    ∃ run, DistributedRun env ops hash read (graph.connect channels tableCatalogs) run := by
  have hran : ∀ k, ∃ run, RanDownTo env ops hash read graph channels tableCatalogs
      (1 + r.pieces.length) k run := by
    intro k
    induction k with
    | zero =>
        refine ⟨fun _ => [], fun inst hinst hle => ?_⟩
        exact absurd (h.fragmentId_lt r hinst) (Nat.not_lt_of_le hle)
    | succ k ih =>
        obtain ⟨run, hrun⟩ := ih
        exact h.exists_ranDownTo_succ r hp hrun
  obtain ⟨run, hrun⟩ := hran (1 + r.pieces.length)
  refine ⟨run, fun inst hinst => ?_⟩
  obtain ⟨source, hsource, rfl⟩ := List.mem_map.mp hinst
  exact hrun source hsource (Nat.le_add_left _ _)

/-! ## What a run returns -/

section Run

variable (h : Deployed plan newV4 graph channels) (r : BuildResult env p plan)
  (hp : p.Constructed env.df) (hd : Distributes env ops read p)
  (hrun : DistributedRun env ops hash read (graph.connect channels tableCatalogs) run)
include h r hp hd hrun

/-- The batches of a piece have the schema of its source plan and can be routed. -/
theorem routes {piece : Piece} (hpiece : piece ∈ r.pieces) {source : FragmentInstance}
    (hsource : source ∈ graph.placements piece.id) {batch : RecordBatch}
    (hbatch : batch ∈ run source.instanceId) :
    batch.schema = piece.sourcePlan.schema.asArrow ∧ ∃ parts, routeExchangeBatch hash
      (source.connect channels tableCatalogs).exchangeOutputs batch = .ok parts := by
  have hmem : source ∈ graph.instances := (List.mem_filter.mp hsource).1
  obtain ⟨localPlan, hlocal, -, hschema⟩ :=
    hrun (source.connect channels tableCatalogs) (List.mem_map_of_mem hmem)
  have hfragment : source.executionFragment.fragment = piece.fragment :=
    h.fragment_eq r (r.mem_fragments.mpr (Or.inr ⟨piece, hpiece, rfl⟩)) hsource
  have hplan : source.executionFragment.fragment.localPlan = some localPlan := hlocal
  rw [hfragment] at hplan
  obtain rfl := Option.some.inj hplan
  have hschema : batch.schema = piece.sourcePlan.schema.asArrow := by
    rw [hschema batch hbatch, r.localPlan_schema hp hpiece]
  refine ⟨hschema, (routeExchangeBatch_eq_ok_iff
    (h.channelsOf tableCatalogs r hpiece hsource) batch).mpr ?_⟩
  have hcut : (piece.operator, piece.sourcePlan) ∈ p.cuts :=
    r.map_cut ▸ List.mem_map_of_mem hpiece
  simpa only [hschema, RecordBatch.exists_indexOf_iff] using
    (piece.keysRoutable_iff env).mpr (hd _ hcut).2.1

/-- What the instances of a fragment read, if the pieces below it return what they may return in one
piece. -/
theorem fragmentReads {id next : ℕ} {source localPlan : LogicalPlan} {pieces : List Piece}
    (hrewrites : Rewrites env id next [source] [localPlan] pieces) (hpieces : pieces ⊆ r.pieces)
    {fragment : PlanFragment} (hf : fragment ∈ plan.fragments) (hid : fragment.fragmentId = id)
    (hlocal : fragment.localPlan = some localPlan)
    (hbelow : ∀ piece ∈ r.pieces, id < piece.id → ∃ rows : List Row,
      Evaluates ops (tableRows env read) (fun _ => 0) piece.sourcePlan rows ∧
      (rows : Multiset Row) =
        fragmentRows (graph.connect channels tableCatalogs) run piece.id)
    (d : FragmentInstance) :
    FragmentReads env ops hash (tableRows env read) (graph.placements id).length
      (fun j => (((graph.placements id).getD j d).connect channels tableCatalogs).tableRows env read)
      (fun j => (((graph.placements id).getD j d).connect channels tableCatalogs).receives hash
        (graph.connect channels tableCatalogs) run)
      id source.fragmentScans pieces := by
  have hscans := hrewrites.allTableScans_eq
  simp only [allTableScans, allFragmentScans, List.append_nil] at hscans
  have hcovers : ScheduleCovers env plan tableCatalogs graph :=
    (r.scheduleCovers_iff h.scheduled tableCatalogs).mpr fun cut hcut => (hd cut hcut).1
  constructor
  · intro scan hscan
    subst hid
    rw [sum_range_getD (graph.placements fragment.fragmentId) d fun inst =>
      (inst.connect channels tableCatalogs).tableRows env read scan]
    exact sum_tableRows tableCatalogs hcovers hf hlocal (hscans ▸ hscan)
  · intro piece hpiece htarget
    have hmem := hpieces hpiece
    obtain ⟨rows, hrows, hsum⟩ := hbelow piece hmem (htarget ▸ r.forest.target_lt piece hmem)
    refine ⟨rows, hrows, fun j hj => ?_⟩
    have hget : (graph.placements piece.target)[j]? =
        some ((graph.placements piece.target).getD j d) := by
      rw [htarget, List.getD_eq_getElem _ _ hj, List.getElem?_eq_getElem hj]
    rw [hsum, ← htarget]
    exact h.receives_eq tableCatalogs r hmem
      (fun s hs batch hbatch => h.routes r hp hd hrun hmem hs hbatch) hget

omit hp hd in
/-- What an instance of a fragment returns. -/
theorem evaluates_of_run {fragment : PlanFragment} (hf : fragment ∈ plan.fragments)
    {localPlan : LogicalPlan} (hlocal : fragment.localPlan = some localPlan)
    {inst : FragmentInstance} (hinst : inst ∈ graph.placements fragment.fragmentId) :
    Evaluates ops ((inst.connect channels tableCatalogs).tableRows env read)
      ((inst.connect channels tableCatalogs).receives hash (graph.connect channels tableCatalogs) run)
      localPlan (batchRows (run inst.instanceId)) := by
  have hmem : inst ∈ graph.instances := (List.mem_filter.mp hinst).1
  obtain ⟨localPlan', hlocal', hrows, -⟩ :=
    hrun (inst.connect channels tableCatalogs) (List.mem_map_of_mem hmem)
  have hplan : inst.executionFragment.fragment.localPlan = some localPlan' := hlocal'
  rw [h.fragment_eq r hf hinst, hlocal] at hplan
  obtain rfl := Option.some.inj hplan
  exact hrows

/-- A piece agrees with its source plan if the pieces below it do. -/
theorem piece_agrees_of_below (hremote : p.containsRemoteSource = false) {piece : Piece}
    (hpiece : piece ∈ r.pieces)
    (hbelow : ∀ piece' ∈ r.pieces, piece.id < piece'.id → ∃ rows : List Row,
      Evaluates ops (tableRows env read) (fun _ => 0) piece'.sourcePlan rows ∧
      (rows : Multiset Row) =
        fragmentRows (graph.connect channels tableCatalogs) run piece'.id) :
    ∃ rows : List Row, Evaluates ops (tableRows env read) (fun _ => 0) piece.sourcePlan rows ∧
      (rows : Multiset Row) =
        fragmentRows (graph.connect channels tableCatalogs) run piece.id := by
  obtain ⟨inner, hinner, hsub, -⟩ := r.forest.parts piece hpiece
  have hf : piece.fragment ∈ plan.fragments := r.mem_fragments.mpr (Or.inr ⟨piece, hpiece, rfl⟩)
  have hcut : (piece.operator, piece.sourcePlan) ∈ p.cuts :=
    r.map_cut ▸ List.mem_map_of_mem hpiece
  have hconstructed : AllConstructed env.df [piece.sourcePlan] :=
    ⟨constructed_of_mem_cuts hp hcut, trivial⟩
  have hne : graph.placements piece.id ≠ [] :=
    ((buildExchangeChannels_eq_ok_iff.mp h.connected).1 (piece.exchange env)
      (r.mem_exchanges.mpr ⟨piece, hpiece, rfl⟩)).1
  have hpos : 0 < (graph.placements piece.id).length := List.length_pos_iff.mpr hne
  obtain ⟨d, rest, -⟩ := List.exists_cons_of_ne_nil hne
  have hreads := h.fragmentReads r hp hd hrun hinner hsub hf rfl rfl hbelow d
  rw [← List.append_nil piece.sourcePlan.fragmentScans] at hreads
  have hrows : ∀ j < (graph.placements piece.id).length,
      EvaluatesAll ops
        ((((graph.placements piece.id).getD j d).connect channels tableCatalogs).tableRows env read)
        ((((graph.placements piece.id).getD j d).connect channels tableCatalogs).receives hash
          (graph.connect channels tableCatalogs) run)
        [piece.localPlan] (batchRows (run ((graph.placements piece.id).getD j d).instanceId)) := by
    intro j hj
    refine evaluatesAll_singleton.mpr (h.evaluates_of_run r hrun hf rfl ?_)
    rw [List.getD_eq_getElem _ _ hj]
    exact List.getElem_mem hj
  have hsum : ∑ j ∈ range (graph.placements piece.id).length,
      (batchRows (run ((graph.placements piece.id).getD j d).instanceId) : Multiset Row) =
        fragmentRows (graph.connect channels tableCatalogs) run piece.id := by
    rw [fragmentRows_connect]
    exact sum_range_getD (graph.placements piece.id) d fun inst =>
      (batchRows (run inst.instanceId) : Multiset Row)
  rw [← hsum]
  rcases Nat.lt_or_ge 1 (graph.placements piece.id).length with hmany | hone
  · have hsplit : AllSplittable ops (tableRows env read) [piece.sourcePlan] :=
      ⟨(hd _ hcut).2.2 (h.runsInParts r hremote hpiece hmany), trivial⟩
    obtain ⟨whole, hwhole, heq⟩ :=
      hinner.evaluatesAll_parts hconstructed hsplit hpos hreads hrows
    exact ⟨whole, evaluatesAll_singleton.mp hwhole, heq⟩
  · have hone : (graph.placements piece.id).length = 1 := Nat.le_antisymm hone hpos
    rw [hone] at hreads ⊢
    rw [Finset.sum_range_one]
    refine ⟨_, evaluatesAll_singleton.mp (hinner.evaluatesAll_one hconstructed ?_ hreads
      (hrows 0 hpos)), rfl⟩
    simp [anyContainsRemoteSource, r.sourcePlan_remoteFree hremote hpiece]

/-- The instances of a piece together return what its source plan may return in one piece. -/
theorem piece_agrees (hremote : p.containsRemoteSource = false) :
    ∀ piece ∈ r.pieces, ∃ rows : List Row,
      Evaluates ops (tableRows env read) (fun _ => 0) piece.sourcePlan rows ∧
      (rows : Multiset Row) =
        fragmentRows (graph.connect channels tableCatalogs) run piece.id := by
  -- by descending id: what a piece receives comes from pieces with larger ids
  have hstep : ∀ k, ∀ piece ∈ r.pieces, 1 + r.pieces.length ≤ piece.id + k → ∃ rows : List Row,
      Evaluates ops (tableRows env read) (fun _ => 0) piece.sourcePlan rows ∧
      (rows : Multiset Row) =
        fragmentRows (graph.connect channels tableCatalogs) run piece.id := by
    intro k
    induction k with
    | zero =>
        intro piece hpiece hle
        have hlt := (r.forest.id_mem hpiece).2
        omega
    | succ k ih =>
        intro piece hpiece hle
        exact h.piece_agrees_of_below r hp hd hrun hremote hpiece fun piece' hpiece' hlt =>
          ih piece' hpiece' (by omega)
  intro piece hpiece
  exact hstep (1 + r.pieces.length) piece hpiece (Nat.le_add_left _ _)

/-- The instance of the root fragment returns what the plan may return in one piece. -/
theorem root_agrees (hremote : p.containsRemoteSource = false) {root : FragmentInstance}
    (hroot : graph.placements 0 = [root]) :
    Evaluates ops (tableRows env read) (fun _ => 0) p (batchRows (run root.instanceId)) := by
  have hf : (⟨0, .root, some r.rootPlan, some r.rootPlan⟩ : PlanFragment) ∈ plan.fragments :=
    r.mem_fragments.mpr (Or.inl rfl)
  have hreads := h.fragmentReads r hp hd hrun r.rewrites (List.Subset.refl _) hf rfl rfl
    (fun piece hpiece _ => h.piece_agrees r hp hd hrun hremote piece hpiece) root
  rw [hroot, List.length_singleton, ← List.append_nil p.fragmentScans] at hreads
  have hmem : root ∈ graph.placements 0 := hroot ▸ List.mem_singleton_self root
  have hrows := h.evaluates_of_run r hrun hf rfl hmem
  refine evaluatesAll_singleton.mp (r.rewrites.evaluatesAll_one ⟨hp, trivial⟩ ?_ hreads
    (evaluatesAll_singleton.mpr hrows))
  simp [anyContainsRemoteSource, hremote]

end Run

/-! ## The root -/

/-- The root fragment has one instance. -/
theorem exists_root (h : Deployed plan newV4 graph channels) (r : BuildResult env p plan) :
    ∃ root, graph.placements 0 = [root] := by
  have hsplits := h.scheduled.splits_of_fragment r.fragmentIds_nodup
    (r.mem_fragments.mpr (Or.inl rfl))
  rw [assignedInstances_of_ne PlanFragmentKind.noConfusion] at hsplits
  have hlength := congrArg List.length hsplits
  rw [List.length_map] at hlength
  exact List.length_eq_one_iff.mp hlength

/-- An instance is of kind root exactly when it runs fragment 0. -/
theorem kind_root_iff (h : Deployed plan newV4 graph channels) (r : BuildResult env p plan)
    {inst : FragmentInstance} (hinst : inst ∈ graph.instances) :
    inst.executionFragment.fragment.kind = .root ↔ inst.fragmentId = 0 := by
  rcases r.mem_fragments.mp (h.fragment_mem hinst) with heq | ⟨piece, hpiece, heq⟩
  · rw [FragmentInstance.fragmentId, ExecutionFragment.fragmentId, heq]
    simp
  · rw [FragmentInstance.fragmentId, ExecutionFragment.fragmentId, ← heq]
    refine iff_of_false ?_ (r.id_pos hpiece)
    simp only [Piece.fragment, fragmentKindForPlan]
    split <;> exact PlanFragmentKind.noConfusion

theorem filter_root (h : Deployed plan newV4 graph channels) (r : BuildResult env p plan)
    {root : FragmentInstance} (hroot : graph.placements 0 = [root]) :
    (graph.connect channels tableCatalogs).filter
      (fun inst => inst.executionFragment.fragment.kind = .root) =
        [root.connect channels tableCatalogs] := by
  rw [ExecutionGraph.connect, List.filter_map]
  have hfilter : graph.instances.filter ((fun inst : FragmentInstance =>
      decide (inst.executionFragment.fragment.kind = .root)) ∘
        FragmentInstance.connect channels tableCatalogs) = graph.placements 0 := by
    refine List.filter_congr fun inst hinst => ?_
    have hiff := h.kind_root_iff r hinst
    exact decide_eq_decide.mpr hiff
  rw [hfilter, hroot, List.map_singleton]

/-- The root fragment sends nothing; every batch of another fragment can be routed. -/
theorem routed (h : Deployed plan newV4 graph channels) (r : BuildResult env p plan)
    (hp : p.Constructed env.df) (hd : Distributes env ops read p)
    (hrun : DistributedRun env ops hash read (graph.connect channels tableCatalogs) run)
    {inst : FragmentInstance} (hinst : inst ∈ graph.instances)
    (houtputs : (inst.connect channels tableCatalogs).exchangeOutputs ≠ []) {batch : RecordBatch}
    (hbatch : batch ∈ run inst.instanceId) :
    ∃ parts, routeExchangeBatch hash (inst.connect channels tableCatalogs).exchangeOutputs batch =
      .ok parts := by
  rcases r.mem_fragments.mp (h.fragment_mem hinst) with heq | ⟨piece, hpiece, heq⟩
  · obtain ⟨c, hc⟩ := List.exists_mem_of_ne_nil _ houtputs
    obtain ⟨hmem, hends⟩ := List.mem_filter.mp hc
    have hfrom : c.sourceFragmentId = inst.fragmentId :=
      of_decide_eq_true (Bool.and_eq_true_iff.mp hends).1
    have hzero : inst.fragmentId = 0 := congrArg PlanFragment.fragmentId heq
    have hlt := h.target_lt_source r hmem
    rw [hfrom, hzero] at hlt
    exact absurd hlt (Nat.not_lt_zero _)
  · have hid : inst.fragmentId = piece.id := congrArg PlanFragment.fragmentId heq.symm
    exact (h.routes r hp hd hrun hpiece (List.mem_filter.mpr ⟨hinst, by simpa using hid⟩) hbatch).2

/-- A deployed plan agrees with the plan it was built from. -/
theorem agrees (h : Deployed plan newV4 graph channels) (r : BuildResult env p plan)
    (hp : p.Constructed env.df) (hscope : p.InScope) (hremote : p.containsRemoteSource = false)
    (hd : Distributes env ops read p) :
    Agrees env ops hash read (graph.connect channels tableCatalogs) p where
  exists_run := h.exists_distributedRun r hscope
  routed run hrun := by
    intro inst hinst houtputs batch hbatch
    obtain ⟨source, hsource, rfl⟩ := List.mem_map.mp hinst
    exact h.routed r hp hd hrun hsource houtputs hbatch
  one_root := by
    obtain ⟨root, hroot⟩ := h.exists_root r
    refine ⟨root.connect channels tableCatalogs, h.filter_root r hroot, fun run hrun => ?_⟩
    have hagrees := h.root_agrees r hp hd hrun hremote hroot
    exact hagrees

end Deployed

end Agreement

/-- Both ends of every exchange of a covered plan are scheduled, so its channels can be built. -/
theorem BuildResult.exists_channels {env : PlannerEnv} {p : LogicalPlan}
    {plan : DistributedFragmentPlan} (r : BuildResult env p plan)
    {tableCatalogs : List TableCatalogEntry} {graph : ExecutionGraph}
    (hcovers : ScheduleCovers env plan tableCatalogs graph) :
    ∃ channels, buildExchangeChannels plan.exchanges graph = .ok channels := by
  have hplaced : ∀ id < 1 + r.pieces.length, graph.placements id ≠ [] := by
    intro id hid
    obtain ⟨fragment, hf, rfl⟩ := r.exists_fragment hid
    obtain ⟨inst, hinst, heq⟩ := hcovers.instances fragment hf
    exact List.ne_nil_of_mem (List.mem_filter.mpr ⟨hinst, by simpa using heq⟩)
  refine ⟨_, buildExchangeChannels_eq_ok_iff.mpr ⟨fun exchange hexchange => ?_, rfl⟩⟩
  obtain ⟨piece, hpiece, rfl⟩ := r.mem_exchanges.mp hexchange
  have hid := (r.forest.id_mem hpiece).2
  exact ⟨hplaced piece.id hid, hplaced piece.target ((r.forest.target_lt piece hpiece).trans hid)⟩

/-- The plan can be scheduled and connected, and its distributed runs agree with the plan in one
piece. -/
def DistributedAgrees (env : PlannerEnv) (ops : Operators) (hash : List TypedCell → ℕ)
    (read : TableScan → TableScanSplit → Multiset Row) (newV4 : ℕ → Uuid)
    (workers : List WorkerInfo) (tableCatalogs : List TableCatalogEntry)
    (plan : DistributedFragmentPlan) (p : LogicalPlan) : Prop :=
  ∃ graph instances,
    schedule firstWorkerSelector newV4 (.fromPlanFragments plan.fragments) plan.fragmentScanSplits
      workers = .ok graph ∧
    buildFragmentInstancesFromGraph graph plan.exchanges tableCatalogs = .ok instances ∧
    Agrees env ops hash read instances p

/-- Distributed execution agrees with standalone execution if all cut inputs distribute. -/
theorem distributed_agrees {env : PlannerEnv} {p : LogicalPlan} {plan : DistributedFragmentPlan}
    (h : build env p = .ok plan) (hp : p.Constructed env.df) (hscope : p.InScope)
    (hremote : p.containsRemoteSource = false) {workers : List WorkerInfo} (hw : workers ≠ [])
    {newV4 : ℕ → Uuid} (hnew : Function.Injective newV4) (tableCatalogs : List TableCatalogEntry)
    {ops : Operators} (hash : List TypedCell → ℕ) {read : TableScan → TableScanSplit → Multiset Row}
    (hd : Distributes env ops read p) :
    DistributedAgrees env ops hash read newV4 workers tableCatalogs plan p := by
  obtain ⟨r⟩ := build_spec h
  have hne : plan.fragments ≠ [] := by
    rw [r.fragments_eq]
    exact List.cons_ne_nil _ _
  obtain ⟨graph, hschedule, hscheduled⟩ := schedule_spec newV4 hne plan.fragmentScanSplits hw
  have hcovers : ScheduleCovers env plan tableCatalogs graph :=
    (r.scheduleCovers_iff hscheduled tableCatalogs).mpr fun cut hcut => (hd cut hcut).1
  obtain ⟨channels, hconnected⟩ := r.exists_channels hcovers
  have hdeployed : Deployed plan newV4 graph channels := ⟨hscheduled, hnew, hconnected⟩
  refine ⟨graph, graph.connect channels tableCatalogs, hschedule, ?_,
    hdeployed.agrees r hp hscope hremote hd⟩
  exact buildFragmentInstancesFromGraph_eq_ok_iff.mpr ⟨channels, hconnected, rfl⟩

/-! ## Small queries -/

namespace Sample

/-- Basic evaluation, `count` as the only aggregate function, and literal limits. -/
def operators : Operators where
  eval := Sample.eval
  aggregateValue _ _ rows := .integer (Multiset.card rows)
  sortLe _ _ _ _ := true
  sortLe_trans _ _ _ _ _ _ _ := rfl
  sortLe_total _ _ _ _ := rfl
  limitValue
    | .literal (.integer n) => n.toNat
    | _ => 0
  window _ _ rows out := out = rows
  window_total _ _ rows := ⟨rows, rfl⟩
  distinctOn _ _ _ _ rows out := out = rows
  distinctOn_total _ _ _ _ rows := ⟨rows, rfl⟩

/-- Every table is two files. -/
def twoFiles : PlannerEnv :=
  .standard fun _ => .file (.ok ["/orders/0.parquet", "/orders/1.parquet"]) "parquet"

/-- One order in each file. -/
def readOrders (_ : TableScan) (split : TableScanSplit) : Multiset Row :=
  {[.integer split.ordinal, .null]}

/-- `SELECT count(*) FROM (SELECT * FROM orders LIMIT 1)`. -/
def countLimit : LogicalPlan :=
  .aggregate countAll (.unary (.limit none (some (.literal (.integer 1)))) scanOrders)

/-- The query, planned over two files. -/
def countLimitQuery : PlannedQuery where
  env := Sample.twoFiles
  logicalPlan := Sample.countLimit
  plan := _
  built := rfl
  selectWorker := firstWorkerSelector
  newV4 := id
  newV4_injective := Function.injective_id
  workers := Sample.workers
  graph := _
  scheduled := rfl
  channels := _
  connected := rfl
  ids_fit := by decide
  tableCatalogs := [Sample.orders]
  instances := _
  instances_eq := rfl

/-- Both scanning instances let one order through, and both are counted. -/
def countLimitRun (instanceId : Uuid) : List RecordBatch :=
  if instanceId < 2 then [⟨scanOrders.schema.asArrow, [[.integer instanceId, .null]]⟩]
  else [⟨countAll.schema.asArrow, [[.integer 2]]⟩]

end Sample

/-- `GROUP BY id` over two files. -/
theorem distributed_agrees_groupById : ∃ plan,
    build Sample.twoFiles (.aggregate Sample.groupById Sample.scanOrders) = .ok plan ∧
    DistributedAgrees Sample.twoFiles Sample.operators List.length Sample.readOrders id Sample.workers
      [Sample.orders] plan (.aggregate Sample.groupById Sample.scanOrders) := by
  obtain ⟨plan, h⟩ : ∃ plan,
      build Sample.twoFiles (.aggregate Sample.groupById Sample.scanOrders) = .ok plan := ⟨_, rfl⟩
  refine ⟨plan, h, distributed_agrees h ⟨trivial, rfl⟩ trivial rfl (List.cons_ne_nil _ _)
    Function.injective_id [Sample.orders] List.length ?_⟩
  show ∀ cut ∈ [(CutOperator.aggregate Sample.groupById, Sample.scanOrders)], _
  refine List.forall_mem_singleton.mpr ⟨Or.inr (Or.inl le_rfl), Or.inr ⟨List.cons_ne_nil _ _, ?_⟩,
    fun _ => rfl⟩
  show ∀ column ∈ [Column.mk (some (.bare "orders")) "id"],
    Sample.scanOrders.schema.HasName column.name
  exact List.forall_mem_singleton.mpr ⟨_, List.mem_cons_self, rfl⟩

/-- The limit is applied once for each file. -/
theorem distributedRun_countLimit : DistributedRun Sample.twoFiles Sample.operators List.length Sample.readOrders
    Sample.countLimitQuery.instances Sample.countLimitRun := by
  intro inst hinst
  rcases List.mem_cons.mp hinst with rfl | hinst
  · refine ⟨.unary (.limit none (some (.literal (.integer 1)))) Sample.scanOrders, rfl, ?_, by decide⟩
    exact ⟨[[.integer 0, .null]], rfl, rfl⟩
  rcases List.mem_cons.mp hinst with rfl | hinst
  · refine ⟨.unary (.limit none (some (.literal (.integer 1)))) Sample.scanOrders, rfl, ?_, by decide⟩
    exact ⟨[[.integer 1, .null]], rfl, rfl⟩
  obtain rfl := List.mem_singleton.mp hinst
  refine ⟨.aggregate Sample.countAll (.remoteSource [1] Sample.scanOrders.schema), rfl, ?_, by decide⟩
  exact ⟨[[.integer 0, .null], [.integer 1, .null]], rfl, rfl⟩

/-- Over two files with one order each, `LIMIT 1` below `count(*)` counts two. -/
theorem not_distributed_agrees_countLimit : ∃ plan,
    Sample.countLimit.Constructed Sample.twoFiles.df ∧ Sample.countLimit.InScope ∧
    Sample.countLimit.containsRemoteSource = false ∧
    build Sample.twoFiles Sample.countLimit = .ok plan ∧
    ¬ DistributedAgrees Sample.twoFiles Sample.operators List.length Sample.readOrders id
      Sample.workers [Sample.orders] plan Sample.countLimit := by
  refine ⟨Sample.countLimitQuery.plan, ⟨⟨trivial, rfl⟩, rfl⟩, trivial, rfl,
    Sample.countLimitQuery.built, ?_⟩
  rintro ⟨graph, instances, hgraph, hinstances, hagrees⟩
  obtain rfl := Except.ok.inj (Sample.countLimitQuery.scheduled.symm.trans hgraph)
  obtain rfl := Except.ok.inj (Sample.countLimitQuery.instances_eq.symm.trans hinstances)
  obtain ⟨root, hroot, hresult⟩ := hagrees.one_root
  have hid : root.instanceId = 2 := by
    obtain rfl := (List.cons.inj hroot).1
    rfl
  have hwrong := hresult _ distributedRun_countLimit
  rw [hid] at hwrong
  obtain ⟨_, ⟨rows, -, rfl⟩, hcount⟩ := hwrong
  have hcount : ({[.integer 2]} : Multiset Row) = {[.integer ((rows.take 1).length : ℕ)]} := hcount
  simp only [Multiset.singleton_inj, List.cons.injEq, Value.integer.injEq, and_true] at hcount
  have hle := List.length_take_le 1 rows
  omega

end BrewDB

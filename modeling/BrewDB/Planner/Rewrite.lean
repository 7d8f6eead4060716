import BrewDB.Common.ExceptState
import BrewDB.Planner.Fragment

/-!
# What the distributed plan builder does to a plan

`Rewrites` states what `rewrite_plan` returns and what it pushes: the rewritten plans, and one `Piece`
for every cut, in the order in which the builder pushes fragments. `build_spec` reads the whole
distributed plan off these pieces. The later modules argue about `Rewrites` only; the builder's state
does not appear there.
-/

namespace BrewDB

/-- The operator above a cut. -/
inductive CutOperator where
  | aggregate (aggregate : Aggregate)
  | joinSide (join : Join) (left : Bool)

/-- The exchange the operator asks for. -/
def CutOperator.exchange (order : SetOrder) : CutOperator → ExchangeNode
  | .aggregate agg => exchangeForAggregate order agg.groupExpr
  | .joinSide join left => exchangeForJoinSide order join left

/-- One cut: the fragment below it, and the exchange to the fragment above. -/
structure Piece where
  id : ℕ
  target : ℕ
  operator : CutOperator
  sourcePlan : LogicalPlan
  localPlan : LogicalPlan
  splits : TableScanSplitGroup

namespace Piece

/-- The pushed fragment. -/
def fragment (piece : Piece) : PlanFragment :=
  ⟨piece.id, fragmentKindForPlan piece.sourcePlan, none, some piece.localPlan⟩

/-- The pushed exchange. -/
def exchange (env : PlannerEnv) (piece : Piece) : ExchangeNode :=
  connectExchange piece.id piece.target piece.sourcePlan (piece.operator.exchange (env.order piece.id))

/-- The pushed scan splits, if there are any. -/
def scanSplits (piece : Piece) : Option FragmentScanSplits :=
  if piece.splits.isEmpty then none else some ⟨piece.id, piece.splits⟩

/-- The remote source that takes the place of the cut-off input. -/
def remote (piece : Piece) : List PlanFragmentId × DFSchema :=
  ([piece.id], piece.sourcePlan.schema)

end Piece

/-- The nodes `rewrite_plan` copies without looking below them. -/
def LogicalPlan.isCopied : LogicalPlan → Bool
  | .tableScan _ => true
  | .remoteSource _ _ => true
  | .other _ _ => true
  | _ => false

/-- `Rewrites env current next ps qs pieces`: the plans `ps` of fragment `current` become `qs`, with
`next` the next free fragment id, and `pieces` are pushed. -/
inductive Rewrites (env : PlannerEnv) :
    ℕ → ℕ → List LogicalPlan → List LogicalPlan → List Piece → Prop
  | nil {current next} : Rewrites env current next [] [] []
  | cons {current next p q ps qs first rest} :
      Rewrites env current next [p] [q] first →
      Rewrites env current (next + first.length) ps qs rest →
      Rewrites env current next (p :: ps) (q :: qs) (first ++ rest)
  | copied {current next p} : p.isCopied = true → Rewrites env current next [p] [p] []
  | unary {current next node node' p q pieces} :
      Rewrites env current next [p] [q] pieces →
      node.rebuild env.df q.schema = .ok node' →
      Rewrites env current next [.unary node p] [.unary node' q] pieces
  | union {current next ps qs schema schema' pieces} :
      Rewrites env current next ps qs pieces →
      env.df.unionTryNewWithLooseTypes (qs.map LogicalPlan.schema) = .ok schema' →
      Rewrites env current next [.union ps schema] [.union qs schema'] pieces
  | aggregate {current next agg input localInput inner splits schema'} :
      Rewrites env next (next + 1) [input] [localInput] inner →
      collectTableScanSplits env.engines localInput = .ok splits →
      env.df.aggregateTryNewWithSchema input.schema agg.groupExpr agg.aggrExpr agg.schema =
        .ok schema' →
      Rewrites env current next [.aggregate agg input]
        [.aggregate { agg with schema := schema' } (RemoteSourceNode.plan next input.schema)]
        (inner ++ [⟨next, current, .aggregate agg, input, localInput, splits⟩])
  | join {current next j left right localLeft localRight innerLeft innerRight splitsLeft splitsRight
        schema' mid} :
      mid = next + (innerLeft.length + 1) →
      Rewrites env next (next + 1) [left] [localLeft] innerLeft →
      collectTableScanSplits env.engines localLeft = .ok splitsLeft →
      Rewrites env mid (mid + 1) [right] [localRight] innerRight →
      collectTableScanSplits env.engines localRight = .ok splitsRight →
      env.df.joinTryNew left.schema right.schema j = .ok schema' →
      Rewrites env current next [.join j left right]
        [.join { j with schema := schema' } (RemoteSourceNode.plan next left.schema)
          (RemoteSourceNode.plan mid right.schema)]
        ((innerLeft ++ [⟨next, current, .joinSide j true, left, localLeft, splitsLeft⟩]) ++
          (innerRight ++ [⟨mid, current, .joinSide j false, right, localRight, splitsRight⟩]))

/-! ## The builder follows `Rewrites` -/

/-- The builder state after pushing the pieces. -/
def BuilderState.extend (env : PlannerEnv) (st : BuilderState) (pieces : List Piece) :
    BuilderState where
  nextFragmentId := st.nextFragmentId + pieces.length
  fragments := st.fragments ++ pieces.map Piece.fragment
  fragmentScanSplits := st.fragmentScanSplits ++ pieces.filterMap Piece.scanSplits
  exchanges := st.exchanges ++ pieces.map (Piece.exchange env)

theorem BuilderState.extend_nil (env : PlannerEnv) (st : BuilderState) : st.extend env [] = st := by
  simp [BuilderState.extend]

theorem BuilderState.extend_append (env : PlannerEnv) (st : BuilderState) (first rest : List Piece) :
    st.extend env (first ++ rest) = (st.extend env first).extend env rest := by
  simp [BuilderState.extend, Nat.add_assoc]

/-- `push_fragment_scan_splits` records the splits of the local plan unless they are all empty. -/
theorem pushFragmentScanSplits_eq_ok {env : PlannerEnv} {id : PlanFragmentId}
    {localPlan : LogicalPlan} {st st' : BuilderState} {u : Unit}
    (h : pushFragmentScanSplits env id localPlan st = .ok (u, st')) :
    ∃ splits, collectTableScanSplits env.engines localPlan = .ok splits ∧
      st' = { st with fragmentScanSplits := st.fragmentScanSplits ++
        (if splits.isEmpty then none else some (FragmentScanSplits.mk id splits)).toList } := by
  unfold pushFragmentScanSplits at h
  obtain ⟨splits, st₁, hlift, h⟩ := StateRun.bind_eq_ok.mp h
  obtain ⟨hsplits, rfl⟩ := StateRun.lift_eq_ok.mp hlift
  refine ⟨splits, hsplits, ?_⟩
  cases hempty : splits.isEmpty with
  | true =>
      simp only [hempty, Bool.not_true] at h
      obtain ⟨-, rfl⟩ := StateRun.pure_eq_ok.mp h
      simp
  | false =>
      simp only [hempty, Bool.not_false] at h
      simpa using (StateRun.modify_eq_ok.mp h).symm

/-- A successful `split_input_fragment` runs the rewrite under a fresh id and pushes one piece. -/
theorem splitInputFragment_eq_ok {env : PlannerEnv} {source r : LogicalPlan}
    {rewrite : PlanFragmentId → BuilderM LogicalPlan} {target : PlanFragmentId}
    {op : CutOperator} {st st' : BuilderState}
    (h : splitInputFragment env source rewrite target (fun order => op.exchange order) st =
      .ok (r, st')) :
    ∃ localPlan splits st₁,
      rewrite st.nextFragmentId { st with nextFragmentId := st.nextFragmentId + 1 } =
        .ok (localPlan, st₁) ∧
      collectTableScanSplits env.engines localPlan = .ok splits ∧
      r = RemoteSourceNode.plan st.nextFragmentId source.schema ∧
      { st' with nextFragmentId := st'.nextFragmentId + 1 } =
        st₁.extend env [⟨st.nextFragmentId, target, op, source, localPlan, splits⟩] := by
  unfold splitInputFragment at h
  obtain ⟨id, st₀, hid, h⟩ := StateRun.bind_eq_ok.mp h
  obtain ⟨rfl, rfl⟩ : st.nextFragmentId = id ∧
      { st with nextFragmentId := st.nextFragmentId + 1 } = st₀ := by
    simpa [takeFragmentId] using hid
  obtain ⟨localPlan, st₁, hrewrite, h⟩ := StateRun.bind_eq_ok.mp h
  obtain ⟨u₁, st₂, hpush, h⟩ := StateRun.bind_eq_ok.mp h
  obtain ⟨u₂, st₃, hexchange, h⟩ := StateRun.bind_eq_ok.mp h
  obtain ⟨rfl, rfl⟩ := StateRun.pure_eq_ok.mp h
  unfold pushFragment at hpush
  obtain ⟨u₃, st₄, hscan, hfragment⟩ := StateRun.bind_eq_ok.mp hpush
  obtain ⟨splits, hsplits, rfl⟩ := pushFragmentScanSplits_eq_ok hscan
  obtain rfl := StateRun.modify_eq_ok.mp hfragment
  unfold pushExchange at hexchange
  obtain rfl := StateRun.modify_eq_ok.mp hexchange
  refine ⟨localPlan, splits, st₁, hrewrite, hsplits, rfl, ?_⟩
  cases hempty : splits.isEmpty <;>
    simp [BuilderState.extend, Piece.fragment, Piece.exchange, Piece.scanSplits, hempty]

/-- The rewriting of one plan, as a step of the builder. -/
def RewriteSpec (env : PlannerEnv) (p : LogicalPlan) : Prop :=
  ∀ current st q st', rewritePlan env p current st = .ok (q, st') →
    ∃ pieces, Rewrites env current st.nextFragmentId [p] [q] pieces ∧ st' = st.extend env pieces

/-- A cut input, rewritten and pushed. -/
theorem splitInputFragment_spec {env : PlannerEnv} {source r : LogicalPlan}
    (hsource : RewriteSpec env source) {target : PlanFragmentId} (op : CutOperator)
    {st st' : BuilderState}
    (h : splitInputFragment env source (rewritePlan env source) target
      (fun order => op.exchange order) st = .ok (r, st')) :
    ∃ localPlan splits inner,
      Rewrites env st.nextFragmentId (st.nextFragmentId + 1) [source] [localPlan] inner ∧
      collectTableScanSplits env.engines localPlan = .ok splits ∧
      r = RemoteSourceNode.plan st.nextFragmentId source.schema ∧
      st' = st.extend env
        (inner ++ [⟨st.nextFragmentId, target, op, source, localPlan, splits⟩]) := by
  obtain ⟨localPlan, splits, st₁, hrewrite, hsplits, rfl, hst⟩ := splitInputFragment_eq_ok h
  obtain ⟨inner, hinner, rfl⟩ := hsource _ _ _ _ hrewrite
  refine ⟨localPlan, splits, inner, hinner, hsplits, rfl, ?_⟩
  obtain ⟨next, fragments, scanSplits, exchanges⟩ := st'
  simp only [BuilderState.extend, BuilderState.mk.injEq] at hst ⊢
  obtain ⟨hnext, hfragments, hscan, hexchanges⟩ := hst
  refine ⟨?_, ?_, ?_, ?_⟩
  · simp only [List.length_append, List.length_singleton] at hnext ⊢
    exact (Nat.succ.inj hnext).trans (Nat.add_right_comm _ _ _)
  · simp [hfragments]
  · simp [hscan]
  · simp [hexchanges]

/-- The inputs of a `Union` are rewritten left to right. -/
theorem rewriteInputs_spec {env : PlannerEnv} {ps : List LogicalPlan}
    (hps : ∀ p ∈ ps, RewriteSpec env p) {current : PlanFragmentId} {st st' : BuilderState}
    {qs : List LogicalPlan} (h : rewriteInputs env ps current st = .ok (qs, st')) :
    ∃ pieces, Rewrites env current st.nextFragmentId ps qs pieces ∧ st' = st.extend env pieces := by
  induction ps generalizing st st' qs with
  | nil =>
      rw [rewriteInputs] at h
      obtain ⟨rfl, rfl⟩ := StateRun.pure_eq_ok.mp h
      exact ⟨[], .nil, (st.extend_nil env).symm⟩
  | cons p ps ih =>
      rw [rewriteInputs] at h
      obtain ⟨q, st₁, hq, h⟩ := StateRun.bind_eq_ok.mp h
      obtain ⟨qs, st₂, hqs, h⟩ := StateRun.bind_eq_ok.mp h
      obtain ⟨rfl, rfl⟩ := StateRun.pure_eq_ok.mp h
      obtain ⟨first, hfirst, rfl⟩ := hps p List.mem_cons_self _ _ _ _ hq
      obtain ⟨rest, hrest, rfl⟩ := ih (fun p hp => hps p (List.mem_cons_of_mem _ hp)) hqs
      exact ⟨first ++ rest, .cons hfirst hrest, (st.extend_append env first rest).symm⟩

/-- `rewrite_plan` follows `Rewrites`. -/
theorem rewritePlan_spec (env : PlannerEnv) (p : LogicalPlan) : RewriteSpec env p := by
  induction p with
  | tableScan scan =>
      intro current st q st' h
      rw [rewritePlan] at h
      obtain ⟨rfl, rfl⟩ := StateRun.pure_eq_ok.mp h
      exact ⟨[], .copied rfl, (st.extend_nil env).symm⟩
  | remoteSource ids schema =>
      intro current st q st' h
      rw [rewritePlan] at h
      obtain ⟨rfl, rfl⟩ := StateRun.pure_eq_ok.mp h
      exact ⟨[], .copied rfl, (st.extend_nil env).symm⟩
  | other node inputs _ =>
      intro current st q st' h
      rw [rewritePlan] at h
      obtain ⟨rfl, rfl⟩ := StateRun.pure_eq_ok.mp h
      exact ⟨[], .copied rfl, (st.extend_nil env).symm⟩
  | unary node input ih =>
      intro current st q st' h
      rw [rewritePlan] at h
      obtain ⟨input', st₁, hinput, h⟩ := StateRun.bind_eq_ok.mp h
      obtain ⟨node', st₂, hlift, h⟩ := StateRun.bind_eq_ok.mp h
      obtain ⟨rfl, rfl⟩ := StateRun.pure_eq_ok.mp h
      obtain ⟨hnode, rfl⟩ := StateRun.lift_eq_ok.mp hlift
      obtain ⟨pieces, hpieces, rfl⟩ := ih _ _ _ _ hinput
      exact ⟨pieces, .unary hpieces hnode, rfl⟩
  | union inputs schema ih =>
      intro current st q st' h
      rw [rewritePlan] at h
      obtain ⟨inputs', st₁, hinputs, h⟩ := StateRun.bind_eq_ok.mp h
      obtain ⟨schema', st₂, hlift, h⟩ := StateRun.bind_eq_ok.mp h
      obtain ⟨rfl, rfl⟩ := StateRun.pure_eq_ok.mp h
      obtain ⟨hschema, rfl⟩ := StateRun.lift_eq_ok.mp hlift
      obtain ⟨pieces, hpieces, rfl⟩ := rewriteInputs_spec ih hinputs
      exact ⟨pieces, .union hpieces hschema, rfl⟩
  | aggregate agg input ih =>
      intro current st q st' h
      rw [rewritePlan] at h
      obtain ⟨child, st₁, hchild, h⟩ := StateRun.bind_eq_ok.mp h
      obtain ⟨localPlan, splits, inner, hinner, hsplits, rfl, rfl⟩ :=
        splitInputFragment_spec ih (.aggregate agg) hchild
      obtain ⟨hrebuild, rfl⟩ := StateRun.lift_eq_ok.mp h
      obtain ⟨schema', hschema, hnode⟩ := ExceptRun.bind_eq_ok.mp hrebuild
      obtain rfl := ExceptRun.pure_eq_ok.mp hnode
      exact ⟨_, .aggregate hinner hsplits hschema, rfl⟩
  | join j left right ihl ihr =>
      intro current st q st' h
      rw [rewritePlan] at h
      obtain ⟨leftRemote, st₁, hleft, h⟩ := StateRun.bind_eq_ok.mp h
      obtain ⟨rightRemote, st₂, hright, h⟩ := StateRun.bind_eq_ok.mp h
      obtain ⟨localLeft, splitsLeft, innerLeft, hinnerLeft, hsplitsLeft, rfl, rfl⟩ :=
        splitInputFragment_spec ihl (.joinSide j true) hleft
      obtain ⟨localRight, splitsRight, innerRight, hinnerRight, hsplitsRight, rfl, rfl⟩ :=
        splitInputFragment_spec ihr (.joinSide j false) hright
      obtain ⟨hrebuild, rfl⟩ := StateRun.lift_eq_ok.mp h
      obtain ⟨schema', hschema, hnode⟩ := ExceptRun.bind_eq_ok.mp hrebuild
      obtain rfl := ExceptRun.pure_eq_ok.mp hnode
      refine ⟨_, .join ?_ hinnerLeft hsplitsLeft hinnerRight hsplitsRight hschema,
        (st.extend_append env _ _).symm⟩
      simp [BuilderState.extend]

/-! ## The distributed plan -/

/-- The cuts of a distributed plan, with the root fragment's plan and splits. -/
structure BuildResult (env : PlannerEnv) (p : LogicalPlan) (plan : DistributedFragmentPlan) where
  rootPlan : LogicalPlan
  pieces : List Piece
  rootSplits : TableScanSplitGroup
  rewrites : Rewrites env 0 1 [p] [rootPlan] pieces
  rootSplits_eq : collectTableScanSplits env.engines rootPlan = .ok rootSplits
  fragments_eq : plan.fragments =
    ⟨0, .root, some rootPlan, some rootPlan⟩ :: pieces.map Piece.fragment
  fragmentScanSplits_eq : plan.fragmentScanSplits = pieces.filterMap Piece.scanSplits ++
    (if rootSplits.isEmpty then none else some (FragmentScanSplits.mk 0 rootSplits)).toList
  exchanges_eq : plan.exchanges = pieces.map (Piece.exchange env)

/-- A distributed plan is its root fragment and its cuts. -/
theorem build_spec {env : PlannerEnv} {p : LogicalPlan} {plan : DistributedFragmentPlan}
    (h : build env p = .ok plan) : Nonempty (BuildResult env p plan) := by
  unfold build at h
  obtain ⟨⟨rootPlan, st⟩, hrewrite, h⟩ := ExceptRun.bind_eq_ok.mp h
  obtain ⟨⟨u, st'⟩, hsplits, h⟩ := ExceptRun.bind_eq_ok.mp h
  obtain rfl := ExceptRun.pure_eq_ok.mp h
  obtain ⟨pieces, hpieces, rfl⟩ := rewritePlan_spec env p _ _ _ _ hrewrite
  obtain ⟨rootSplits, hroot, rfl⟩ := pushFragmentScanSplits_eq_ok hsplits
  exact ⟨⟨rootPlan, pieces, rootSplits, hpieces, hroot, rfl, rfl, rfl⟩⟩

/-! ## A small query -/

namespace Sample

/-- The table `orders(id, amount)`. -/
def orders : TableCatalogEntry := ⟨1, ⟨"brewdb", "default", "orders"⟩⟩

/-- A column of `orders`. -/
def ordersColumn (name : String) : Expr := .column ⟨some (.bare "orders"), name⟩

/-- A full scan of `orders`. -/
def scanOrders : LogicalPlan :=
  .tableScan (.ofTable orders [⟨"id", .int64, false⟩, ⟨"amount", .int64, true⟩])

/-- `GROUP BY id`. -/
def groupById : Aggregate where
  groupExpr := [ordersColumn "id"]
  aggrExpr := []
  schema := ⟨[(some (.bare "orders"), ⟨"id", .int64, false⟩)]⟩

/-- `count(*)` over everything. -/
def countAll : Aggregate where
  groupExpr := []
  aggrExpr := [.function "count" [.literal (.integer 1)]]
  schema := ⟨[(none, ⟨"count(*)", .int64, false⟩)]⟩

/-- Every table is one split. -/
def env : PlannerEnv := .standard fun _ => .memory

end Sample

end BrewDB

import BrewDB.Planner.FragmentTree

/-!
# Putting the fragments back together

Replacing every remote source by the local plan of the fragment it names, again and again, undoes
the fragmentation: the plan that results is the original one up to the schemas that DataFusion's
constructors compute anew. The plan must not name its future fragments itself: a remote source that
is already in the input is copied by the builder and then mistaken for one of the builder's own.
-/

namespace BrewDB

/-! ## Schemas the constructors recompute -/

/-- Forget the schemas that `rebuild` recomputes. -/
def UnaryNode.eraseSchema : UnaryNode → UnaryNode
  | .subqueryAlias aliasName _ => .subqueryAlias aliasName ⟨[]⟩
  | .distinctOn onExpr selectExpr sortExpr _ => .distinctOn onExpr selectExpr sortExpr ⟨[]⟩
  | node => node

/-- A rebuilt node is the old one up to its recomputed schema. -/
theorem UnaryNode.eraseSchema_of_rebuild {df : PlanConstructors} {input : DFSchema}
    {node node' : UnaryNode} (h : node.rebuild df input = .ok node') :
    node'.eraseSchema = node.eraseSchema := by
  cases node <;> simp only [rebuild, ExceptRun.bind_eq_ok, ExceptRun.pure_eq_ok] at h
  case projection => obtain ⟨-, -, rfl⟩ := h; rfl
  case filter => obtain ⟨-, -, rfl⟩ := h; rfl
  case subqueryAlias => obtain ⟨schema, -, rfl⟩ := h; rfl
  case window => obtain ⟨-, -, rfl⟩ := h; rfl
  case distinctOn => obtain ⟨schema, -, rfl⟩ := h; rfl
  all_goals rw [← h]

namespace LogicalPlan

mutual
/-- Forget the schemas that the rewriter's constructors recompute. -/
def eraseSchemas : LogicalPlan → LogicalPlan
  | tableScan scan => tableScan scan
  | unary node input => unary node.eraseSchema (eraseSchemas input)
  | union inputs _ => union (eraseAllSchemas inputs) ⟨[]⟩
  | aggregate agg input => aggregate { agg with schema := ⟨[]⟩ } (eraseSchemas input)
  | join j left right => join { j with schema := ⟨[]⟩ } (eraseSchemas left) (eraseSchemas right)
  | remoteSource ids schema => remoteSource ids schema
  | other node inputs => other node (eraseAllSchemas inputs)

/-- Forget the recomputed schemas of all inputs. -/
def eraseAllSchemas : List LogicalPlan → List LogicalPlan
  | [] => []
  | p :: ps => eraseSchemas p :: eraseAllSchemas ps
end

theorem eraseAllSchemas_eq_map (ps : List LogicalPlan) :
    eraseAllSchemas ps = ps.map eraseSchemas := by
  induction ps with
  | nil => rfl
  | cons p ps ih => rw [eraseAllSchemas, ih, List.map_cons]

/-! ## Inlining -/

mutual
/-- Replace every remote source by the plan of the fragment it names, once. -/
def inlineRemote (lookup : PlanFragmentId → Option LogicalPlan) : LogicalPlan → LogicalPlan
  | tableScan scan => tableScan scan
  | unary node input => unary node (inlineRemote lookup input)
  | union inputs schema => union (inlineAllRemote lookup inputs) schema
  | aggregate agg input => aggregate agg (inlineRemote lookup input)
  | join j left right => join j (inlineRemote lookup left) (inlineRemote lookup right)
  | remoteSource [id] schema => (lookup id).getD (remoteSource [id] schema)
  | remoteSource ids schema => remoteSource ids schema
  | other node inputs => other node (inlineAllRemote lookup inputs)

/-- Replace the remote sources of all inputs. -/
def inlineAllRemote (lookup : PlanFragmentId → Option LogicalPlan) :
    List LogicalPlan → List LogicalPlan
  | [] => []
  | p :: ps => inlineRemote lookup p :: inlineAllRemote lookup ps
end

variable {lookup : PlanFragmentId → Option LogicalPlan}

theorem inlineAllRemote_eq_map (ps : List LogicalPlan) :
    inlineAllRemote lookup ps = ps.map (inlineRemote lookup) := by
  induction ps with
  | nil => rfl
  | cons p ps ih => rw [inlineAllRemote, ih, List.map_cons]

theorem inlineAllRemote_eq_self {ps : List LogicalPlan} (h : ∀ p ∈ ps, inlineRemote lookup p = p) :
    inlineAllRemote lookup ps = ps := by
  rw [inlineAllRemote_eq_map]
  exact (List.map_congr_left h).trans (List.map_id _)

/-- A plan whose remote sources name no fragment is left alone. -/
theorem inlineRemote_of_unnamed {p : LogicalPlan}
    (hp : ∀ remote ∈ p.remoteSources, ∀ id ∈ remote.1, lookup id = none) :
    inlineRemote lookup p = p := by
  induction p with
  | tableScan scan => rfl
  | unary node input ih => rw [inlineRemote, ih (by simpa only [remoteSources] using hp)]
  | union inputs schema ih =>
      rw [remoteSources, allRemoteSources_eq_flatMap] at hp
      rw [inlineRemote, inlineAllRemote_eq_self fun q hq =>
        ih q hq fun remote hr => hp remote (List.mem_flatMap.mpr ⟨q, hq, hr⟩)]
  | aggregate agg input ih => rw [inlineRemote, ih (by simpa only [remoteSources] using hp)]
  | join j left right ihl ihr =>
      rw [remoteSources, List.forall_mem_append] at hp
      rw [inlineRemote, ihl hp.1, ihr hp.2]
  | remoteSource ids schema =>
      simp only [remoteSources, List.mem_singleton, forall_eq] at hp
      rcases ids with _ | ⟨id, _ | ⟨second, rest⟩⟩
      · rfl
      · rw [inlineRemote, hp id List.mem_cons_self, Option.getD_none]
      · rfl
  | other node inputs ih =>
      rw [remoteSources, allRemoteSources_eq_flatMap] at hp
      rw [inlineRemote, inlineAllRemote_eq_self fun q hq =>
        ih q hq fun remote hr => hp remote (List.mem_flatMap.mpr ⟨q, hq, hr⟩)]

/-! Inlining repeatedly goes on below the root of a plan that is not a remote source. -/

theorem iterate_inlineRemote_unary (node : UnaryNode) (p : LogicalPlan) (j : ℕ) :
    (inlineRemote lookup)^[j] (.unary node p) = .unary node ((inlineRemote lookup)^[j] p) := by
  induction j generalizing p with
  | zero => rfl
  | succ j ih => exact ih _

theorem iterate_inlineRemote_aggregate (agg : Aggregate) (p : LogicalPlan) (j : ℕ) :
    (inlineRemote lookup)^[j] (.aggregate agg p) = .aggregate agg ((inlineRemote lookup)^[j] p) := by
  induction j generalizing p with
  | zero => rfl
  | succ j ih => exact ih _

theorem iterate_inlineRemote_join (join : Join) (left right : LogicalPlan) (j : ℕ) :
    (inlineRemote lookup)^[j] (.join join left right) =
      .join join ((inlineRemote lookup)^[j] left) ((inlineRemote lookup)^[j] right) := by
  induction j generalizing left right with
  | zero => rfl
  | succ j ih => exact ih _ _

theorem iterate_inlineRemote_union (ps : List LogicalPlan) (schema : DFSchema) (j : ℕ) :
    (inlineRemote lookup)^[j] (.union ps schema) =
      .union (ps.map (inlineRemote lookup)^[j]) schema := by
  induction j generalizing ps with
  | zero => simp
  | succ j ih =>
      rw [Function.iterate_succ_apply, inlineRemote, ih, inlineAllRemote_eq_map, List.map_map]
      rfl

end LogicalPlan

open LogicalPlan

/-- Repeated inlining takes `qs` to plans that are `ps` up to recomputed schemas, and stays there. -/
def InlinesTo (lookup : PlanFragmentId → Option LogicalPlan) (qs ps : List LogicalPlan) : Prop :=
  ∃ k rs, (∀ j ≥ k, qs.map (inlineRemote lookup)^[j] = rs) ∧
    rs.map eraseSchemas = ps.map eraseSchemas

namespace InlinesTo

variable {lookup : PlanFragmentId → Option LogicalPlan} {p q : LogicalPlan}

/-- Inlining one plan. -/
theorem singleton_iff :
    InlinesTo lookup [q] [p] ↔
      ∃ k r, (∀ j ≥ k, (inlineRemote lookup)^[j] q = r) ∧ r.eraseSchemas = p.eraseSchemas := by
  constructor
  · rintro ⟨k, rs, hstable, herase⟩
    obtain rfl := hstable k le_rfl
    refine ⟨k, _, fun j hj => ?_, by simpa using herase⟩
    simpa using hstable j hj
  · rintro ⟨k, r, hstable, herase⟩
    exact ⟨k, [r], fun j hj => by simp [hstable j hj], by simp [herase]⟩

/-- A remote source becomes the fragment it names. -/
theorem remoteSource {id : ℕ} (schema : DFSchema) (hid : lookup id = some q)
    (h : InlinesTo lookup [q] [p]) : InlinesTo lookup [.remoteSource [id] schema] [p] := by
  obtain ⟨k, r, hstable, herase⟩ := singleton_iff.mp h
  refine singleton_iff.mpr ⟨k + 1, r, fun j hj => ?_, herase⟩
  obtain ⟨j, rfl⟩ := Nat.exists_eq_add_of_lt (Nat.lt_of_succ_le hj)
  rw [Function.iterate_succ_apply, inlineRemote, hid, Option.getD_some]
  exact hstable _ (Nat.le_add_right k j)

theorem cons {ps qs : List LogicalPlan} (hp : InlinesTo lookup [q] [p])
    (hps : InlinesTo lookup qs ps) : InlinesTo lookup (q :: qs) (p :: ps) := by
  obtain ⟨k, r, hstable, herase⟩ := singleton_iff.mp hp
  obtain ⟨k', rs, hstable', herase'⟩ := hps
  refine ⟨max k k', r :: rs, fun j hj => ?_, by simp [herase, herase']⟩
  rw [List.map_cons, hstable j (le_trans (le_max_left _ _) hj),
    hstable' j (le_trans (le_max_right _ _) hj)]

end InlinesTo

/-- Inlining the pieces into the rewritten plans gives the plans back. -/
theorem Rewrites.inlinesTo {env : PlannerEnv} {current next : ℕ} {ps qs : List LogicalPlan}
    {pieces : List Piece} (h : Rewrites env current next ps qs pieces)
    {lookup : PlanFragmentId → Option LogicalPlan}
    (hpieces : ∀ piece ∈ pieces, lookup piece.id = some piece.localPlan)
    (hps : ∀ remote ∈ allRemoteSources ps, ∀ id ∈ remote.1, lookup id = none) :
    InlinesTo lookup qs ps := by
  induction h with
  | nil => exact ⟨0, [], fun _ _ => rfl, rfl⟩
  | cons _ _ ihp ihps =>
      rw [List.forall_mem_append] at hpieces
      simp only [allRemoteSources, List.append_nil] at ihp hps
      rw [List.forall_mem_append] at hps
      exact (ihp hpieces.1 hps.1).cons (ihps hpieces.2 hps.2)
  | @copied _ _ p _ =>
      have hfixed : inlineRemote lookup p = p :=
        inlineRemote_of_unnamed (by simpa only [allRemoteSources, List.append_nil] using hps)
      exact InlinesTo.singleton_iff.mpr ⟨0, p, fun j _ => Function.iterate_fixed hfixed j, rfl⟩
  | @unary _ _ node node' p q _ _ hnode ih =>
      obtain ⟨k, r, hstable, herase⟩ := InlinesTo.singleton_iff.mp
        (ih hpieces (by simpa only [allRemoteSources, remoteSources] using hps))
      refine InlinesTo.singleton_iff.mpr ⟨k, .unary node' r, fun j hj => ?_, ?_⟩
      · rw [iterate_inlineRemote_unary, hstable j hj]
      · rw [eraseSchemas, eraseSchemas, herase, UnaryNode.eraseSchema_of_rebuild hnode]
  | @union _ _ ps qs schema schema' _ _ _ ih =>
      obtain ⟨k, rs, hstable, herase⟩ :=
        ih hpieces (by simpa only [allRemoteSources, remoteSources, List.append_nil] using hps)
      refine InlinesTo.singleton_iff.mpr ⟨k, .union rs schema', fun j hj => ?_, ?_⟩
      · rw [iterate_inlineRemote_union, hstable j hj]
      · rw [eraseSchemas, eraseSchemas, eraseAllSchemas_eq_map, eraseAllSchemas_eq_map, herase]
  | @aggregate _ next agg input _ _ _ schema' _ _ _ ih =>
      rw [List.forall_mem_append, List.forall_mem_singleton] at hpieces
      have hinput := ih hpieces.1 (by simpa only [allRemoteSources, remoteSources] using hps)
      obtain ⟨k, r, hstable, herase⟩ :=
        InlinesTo.singleton_iff.mp (hinput.remoteSource input.schema hpieces.2)
      refine InlinesTo.singleton_iff.mpr
        ⟨k, .aggregate { agg with schema := schema' } r, fun j hj => ?_, ?_⟩
      · rw [iterate_inlineRemote_aggregate, RemoteSourceNode.plan, hstable j hj]
      · rw [eraseSchemas, eraseSchemas, herase]
  | @join _ _ j left right _ _ _ _ _ _ schema' _ _ _ _ _ _ _ ihl ihr =>
      simp only [List.forall_mem_append, List.forall_mem_singleton] at hpieces
      simp only [allRemoteSources, remoteSources, List.append_nil, List.forall_mem_append]
        at ihl ihr hps
      obtain ⟨⟨hinnerLeft, hidLeft⟩, hinnerRight, hidRight⟩ := hpieces
      obtain ⟨k, l, hstableL, heraseL⟩ := InlinesTo.singleton_iff.mp
        ((ihl hinnerLeft hps.1).remoteSource left.schema hidLeft)
      obtain ⟨k', r, hstableR, heraseR⟩ := InlinesTo.singleton_iff.mp
        ((ihr hinnerRight hps.2).remoteSource right.schema hidRight)
      refine InlinesTo.singleton_iff.mpr
        ⟨max k k', .join { j with schema := schema' } l r, fun i hi => ?_, ?_⟩
      · rw [iterate_inlineRemote_join, RemoteSourceNode.plan, RemoteSourceNode.plan,
          hstableL i (le_trans (le_max_left _ _) hi), hstableR i (le_trans (le_max_right _ _) hi)]
      · rw [eraseSchemas, eraseSchemas, heraseL, heraseR]

/-! ## The whole distributed plan -/

namespace DistributedFragmentPlan

/-- The local plan of a fragment. -/
def localPlanOf (plan : DistributedFragmentPlan) (id : PlanFragmentId) : Option LogicalPlan :=
  (plan.fragments.find? (·.fragmentId = id)).bind PlanFragment.localPlan

/-- Repeatedly replacing remote sources, from the local plan of fragment 0 on, reaches a plan that
no longer changes and is `p` up to recomputed schemas. -/
def Reassembles (plan : DistributedFragmentPlan) (p : LogicalPlan) : Prop :=
  ∃ root, plan.localPlanOf 0 = some root ∧
    ∃ k r, (∀ j ≥ k, (inlineRemote plan.localPlanOf)^[j] root = r) ∧
      r.eraseSchemas = p.eraseSchemas

end DistributedFragmentPlan

namespace BuildResult

variable {env : PlannerEnv} {p : LogicalPlan} {plan : DistributedFragmentPlan}

theorem localPlanOf_root (r : BuildResult env p plan) : plan.localPlanOf 0 = some r.rootPlan := by
  simp [DistributedFragmentPlan.localPlanOf, r.fragments_eq]

theorem localPlanOf_piece (r : BuildResult env p plan) {piece : Piece} (hp : piece ∈ r.pieces) :
    plan.localPlanOf piece.id = some piece.localPlan := by
  have hsome : (plan.fragments.find? (·.fragmentId = piece.id)).isSome := by
    rw [List.find?_isSome]
    exact ⟨piece.fragment, r.mem_fragments.mpr (Or.inr ⟨piece, hp, rfl⟩), by simp [Piece.fragment]⟩
  obtain ⟨fragment, hfind⟩ := Option.isSome_iff_exists.mp hsome
  have hid : fragment.fragmentId = piece.fragment.fragmentId := by
    simpa [Piece.fragment] using List.find?_some hfind
  have heq : fragment = piece.fragment :=
    List.inj_on_of_nodup_map r.fragmentIds_nodup (List.mem_of_find?_eq_some hfind)
      (r.mem_fragments.mpr (Or.inr ⟨piece, hp, rfl⟩)) hid
  rw [DistributedFragmentPlan.localPlanOf, hfind, heq]
  rfl

theorem localPlanOf_eq_none {id : ℕ} (h : ∀ fragment ∈ plan.fragments, fragment.fragmentId ≠ id) :
    plan.localPlanOf id = none := by
  rw [DistributedFragmentPlan.localPlanOf, List.find?_eq_none.mpr fun fragment hf => by
    simpa using h fragment hf]
  rfl

end BuildResult

/-- Fragmentation loses nothing of a plan that does not name its own fragments. -/
theorem reassembles_of_build {env : PlannerEnv} {p : LogicalPlan} {plan : DistributedFragmentPlan}
    (h : build env p = .ok plan)
    (hfresh : ∀ remote ∈ p.remoteSources, ∀ id ∈ remote.1,
      ∀ fragment ∈ plan.fragments, fragment.fragmentId ≠ id) :
    plan.Reassembles p := by
  obtain ⟨r⟩ := build_spec h
  refine ⟨r.rootPlan, r.localPlanOf_root, InlinesTo.singleton_iff.mp ?_⟩
  refine r.rewrites.inlinesTo (fun piece hp => r.localPlanOf_piece hp) ?_
  intro remote hremote id hid
  rw [allRemoteSources, allRemoteSources, List.append_nil] at hremote
  exact BuildResult.localPlanOf_eq_none (hfresh remote hremote id hid)

/-- A plan without remote sources names no fragment at all. -/
theorem reassembles_count_groupById : ∃ plan,
    build Sample.env
      (.aggregate Sample.countAll (.aggregate Sample.groupById Sample.scanOrders)) = .ok plan ∧
    plan.Reassembles (.aggregate Sample.countAll (.aggregate Sample.groupById Sample.scanOrders)) := by
  obtain ⟨plan, h⟩ : ∃ plan, build Sample.env
      (.aggregate Sample.countAll (.aggregate Sample.groupById Sample.scanOrders)) = .ok plan :=
    ⟨_, rfl⟩
  exact ⟨plan, h, reassembles_of_build h (List.forall_mem_nil _)⟩

/-- `count(*)` over `orders` beside a remote source that names fragment 1, which the scan becomes. -/
def Sample.countUnionRemote : LogicalPlan :=
  .union [.aggregate countAll scanOrders, .remoteSource [1] countAll.schema] countAll.schema

/-- A remote source of the input that names a fragment of its own plan is replaced as well. -/
theorem not_reassembles_countUnionRemote : ∃ plan,
    build Sample.env Sample.countUnionRemote = .ok plan ∧
    ¬ plan.Reassembles Sample.countUnionRemote := by
  refine ⟨_, rfl, ?_⟩
  rintro ⟨root, hroot, k, r, hstable, herase⟩
  obtain rfl := Option.some.inj hroot
  -- one round inlines both remote sources, and nothing is left to inline
  have hr := hstable (k + 1) (Nat.le_succ k)
  rw [Function.iterate_succ_apply, Function.iterate_fixed rfl] at hr
  subst hr
  have hremote : false = true := congrArg containsRemoteSource herase
  exact Bool.false_ne_true hremote

end BrewDB

import BrewDB.Planner.FragmentTree

/-!
# Plans made by DataFusion's constructors

A legal plan is put together by the constructors that the rewriter uses, so that rebuilding a node
over an input of the same schema gives the same node. For such plans a fragment sends batches of
exactly the schema that its remote source promises.
-/

namespace BrewDB

namespace LogicalPlan

mutual
/-- Every node the rewriter rebuilds is what its constructor makes of its inputs' schemas. -/
def Constructed (df : PlanConstructors) : LogicalPlan → Prop
  | tableScan _ => True
  | unary node input => Constructed df input ∧ node.rebuild df input.schema = .ok node
  | union inputs schema =>
      AllConstructed df inputs ∧ df.unionTryNewWithLooseTypes (inputs.map LogicalPlan.schema) = .ok schema
  | aggregate agg input => Constructed df input ∧
      df.aggregateTryNewWithSchema input.schema agg.groupExpr agg.aggrExpr agg.schema =
        .ok agg.schema
  | join j left right => Constructed df left ∧ Constructed df right ∧
      df.joinTryNew left.schema right.schema j = .ok j.schema
  | remoteSource _ _ => True
  | other _ _ => True

/-- All inputs are constructed. -/
def AllConstructed (df : PlanConstructors) : List LogicalPlan → Prop
  | [] => True
  | p :: ps => Constructed df p ∧ AllConstructed df ps
end

variable {df : PlanConstructors}

theorem allConstructed_iff {ps : List LogicalPlan} :
    AllConstructed df ps ↔ ∀ p ∈ ps, Constructed df p := by
  induction ps with
  | nil => simp [AllConstructed]
  | cons p ps ih => rw [AllConstructed, ih, List.forall_mem_cons]

/-- What is cut off a constructed plan is constructed. -/
theorem constructed_of_mem_cuts {p : LogicalPlan} (hp : p.Constructed df)
    {cut : CutOperator × LogicalPlan} (hcut : cut ∈ p.cuts) : cut.2.Constructed df := by
  refine of_mem_cuts (P := Constructed df) (fun node input h => ?_) (fun inputs schema h => ?_) (fun agg input h => ?_)
    (fun j left right h => ?_) hp hcut
  · rw [Constructed] at h
    exact h.1
  · rw [Constructed] at h
    exact allConstructed_iff.mp h.1
  · rw [Constructed] at h
    exact h.1
  · rw [Constructed] at h
    exact ⟨h.1, h.2.1⟩

end LogicalPlan

open LogicalPlan

/-- Rewriting a constructed plan keeps its schema. -/
theorem Rewrites.map_schema {env : PlannerEnv} {current next : ℕ} {ps qs : List LogicalPlan}
    {pieces : List Piece} (h : Rewrites env current next ps qs pieces)
    (hps : AllConstructed env.df ps) : qs.map LogicalPlan.schema = ps.map LogicalPlan.schema := by
  induction h with
  | nil => rfl
  | cons _ _ ihp ihps =>
      have hhead := ihp ⟨hps.1, trivial⟩
      rw [List.map_cons, List.map_cons, ihps hps.2]
      simpa using hhead
  | copied _ => rfl
  | @unary _ _ node node' p q _ _ hnode ih =>
      obtain ⟨hp, hrebuild⟩ := by simpa only [AllConstructed, Constructed, and_true] using hps
      have hschema : q.schema = p.schema := by simpa using ih ⟨hp, trivial⟩
      rw [hschema, hrebuild] at hnode
      obtain rfl := Except.ok.inj hnode
      simp [LogicalPlan.schema, hschema]
  | @union _ _ ps qs schema schema' _ _ hunion ih =>
      obtain ⟨hinputs, hrebuild⟩ := by simpa only [AllConstructed, Constructed, and_true] using hps
      rw [ih hinputs, hrebuild] at hunion
      obtain rfl := Except.ok.inj hunion
      rfl
  | aggregate _ _ hagg _ =>
      obtain ⟨-, hrebuild⟩ := by simpa only [AllConstructed, Constructed, and_true] using hps
      obtain rfl := Except.ok.inj (hrebuild.symm.trans hagg)
      rfl
  | join _ _ _ _ _ hjoin _ _ =>
      obtain ⟨-, -, hrebuild⟩ := by
        simpa only [AllConstructed, Constructed, and_true] using hps
      obtain rfl := Except.ok.inj (hrebuild.symm.trans hjoin)
      rfl

/-- A node of a constructed plan is rebuilt as it was. -/
theorem Rewrites.rebuild_eq {env : PlannerEnv} {current next : ℕ} {node node' : UnaryNode}
    {p q : LogicalPlan} {pieces : List Piece} (h : Rewrites env current next [p] [q] pieces)
    (hp : AllConstructed env.df [.unary node p]) (hnode : node.rebuild env.df q.schema = .ok node') :
    p.Constructed env.df ∧ q.schema = p.schema ∧ node' = node := by
  obtain ⟨hp, hrebuild⟩ := by simpa only [AllConstructed, Constructed, and_true] using hp
  have hschema : q.schema = p.schema := by simpa using h.map_schema ⟨hp, trivial⟩
  rw [hschema, hrebuild] at hnode
  exact ⟨hp, hschema, (Except.ok.inj hnode).symm⟩

/-- The fragment below a cut of a constructed plan has the schema of its remote source. -/
theorem BuildResult.localPlan_schema {env : PlannerEnv} {p : LogicalPlan}
    {plan : DistributedFragmentPlan} (r : BuildResult env p plan) (hp : p.Constructed env.df)
    {piece : Piece} (hpiece : piece ∈ r.pieces) :
    piece.localPlan.schema = piece.sourcePlan.schema := by
  obtain ⟨inner, hinner, -, -⟩ := r.forest.parts piece hpiece
  have hcut : (piece.operator, piece.sourcePlan) ∈ p.cuts :=
    r.map_cut ▸ List.mem_map_of_mem hpiece
  simpa using hinner.map_schema ⟨constructed_of_mem_cuts hp hcut, trivial⟩

end BrewDB

import BrewDB.Planner.Rewrite

/-!
# The fragment tree

Every fragment but the root hangs below exactly one other fragment, at the remote source that names
it. The builder numbers fragments while it descends and pushes them while it returns, so the pieces
of a rewritten subtree are a permutation of an interval of ids, and every piece points to its parent
inside the interval or to the fragment being rewritten.

The kind of a fragment is computed from the plan before rewriting, which has no remote source yet:
only trees of depth one get all their kinds right.
-/

namespace BrewDB

namespace LogicalPlan

mutual
/-- The cuts of a plan: each cut operator with its input, in the order the fragments are pushed. -/
def cuts : LogicalPlan → List (CutOperator × LogicalPlan)
  | tableScan _ => []
  | unary _ input => cuts input
  | union inputs _ => allCuts inputs
  | aggregate agg input => cuts input ++ [(.aggregate agg, input)]
  | join j left right =>
      (cuts left ++ [(.joinSide j true, left)]) ++ (cuts right ++ [(.joinSide j false, right)])
  | remoteSource _ _ => []
  | other _ _ => []

/-- The cuts of all inputs. -/
def allCuts : List LogicalPlan → List (CutOperator × LogicalPlan)
  | [] => []
  | p :: ps => cuts p ++ allCuts ps
end

mutual
/-- The table scans that stay in the fragment of the plan's root: those above every cut. -/
def fragmentScans : LogicalPlan → List TableScan
  | tableScan scan => [scan]
  | unary _ input => fragmentScans input
  | union inputs _ => allFragmentScans inputs
  | aggregate _ _ => []
  | join _ _ _ => []
  | remoteSource _ _ => []
  | other _ inputs => allTableScans inputs

/-- The scans of all inputs that stay in the fragment. -/
def allFragmentScans : List LogicalPlan → List TableScan
  | [] => []
  | p :: ps => fragmentScans p ++ allFragmentScans ps
end

theorem allCuts_eq_flatMap (ps : List LogicalPlan) : allCuts ps = ps.flatMap cuts := by
  induction ps with
  | nil => rfl
  | cons p ps ih => rw [allCuts, ih, List.flatMap_cons]

theorem cuts_eq_nil_of_isCopied {p : LogicalPlan} (h : p.isCopied = true) : p.cuts = [] := by
  cases p <;> simp_all [isCopied, cuts]

theorem fragmentScans_of_isCopied {p : LogicalPlan} (h : p.isCopied = true) :
    p.fragmentScans = p.tableScans := by
  cases p <;> simp_all [isCopied, fragmentScans, tableScans]

end LogicalPlan

namespace Rewrites

variable {env : PlannerEnv} {current next : ℕ} {ps qs : List LogicalPlan} {pieces : List Piece}

/-! ## What each piece is -/

/-- The pieces are the cuts of the plan. -/
theorem map_cut (h : Rewrites env current next ps qs pieces) :
    pieces.map (fun piece => (piece.operator, piece.sourcePlan)) = LogicalPlan.allCuts ps := by
  induction h with
  | nil => rfl
  | cons _ _ ihp ihps =>
      rw [List.map_append, ihp, ihps]
      simp [LogicalPlan.allCuts]
  | copied hp => simp [LogicalPlan.allCuts, LogicalPlan.cuts_eq_nil_of_isCopied hp]
  | unary _ _ ih => simpa [LogicalPlan.allCuts, LogicalPlan.cuts] using ih
  | union _ _ ih => simpa [LogicalPlan.allCuts, LogicalPlan.cuts] using ih
  | aggregate _ _ _ ih =>
      rw [List.map_append, ih]
      simp [LogicalPlan.allCuts, LogicalPlan.cuts]
  | join _ _ _ _ _ _ ihl ihr =>
      rw [List.map_append, List.map_append, List.map_append, ihl, ihr]
      simp [LogicalPlan.allCuts, LogicalPlan.cuts]

/-- The rewritten plans keep the scans above every cut. -/
theorem allTableScans_eq (h : Rewrites env current next ps qs pieces) :
    LogicalPlan.allTableScans qs = LogicalPlan.allFragmentScans ps := by
  induction h with
  | nil => rfl
  | cons _ _ ihp ihps =>
      simp only [LogicalPlan.allTableScans, LogicalPlan.allFragmentScans, List.append_nil] at ihp ⊢
      rw [ihp, ihps]
  | copied hp =>
      simp [LogicalPlan.allTableScans, LogicalPlan.allFragmentScans,
        LogicalPlan.fragmentScans_of_isCopied hp]
  | unary _ _ ih =>
      simpa [LogicalPlan.allTableScans, LogicalPlan.tableScans, LogicalPlan.allFragmentScans,
        LogicalPlan.fragmentScans] using ih
  | union _ _ ih =>
      simpa [LogicalPlan.allTableScans, LogicalPlan.tableScans, LogicalPlan.allFragmentScans,
        LogicalPlan.fragmentScans] using ih
  | aggregate _ _ _ _ => rfl
  | join _ _ _ _ _ _ _ _ => rfl

/-- The splits of a piece are those collected from its local plan. -/
theorem splits_eq (h : Rewrites env current next ps qs pieces) :
    ∀ piece ∈ pieces, collectTableScanSplits env.engines piece.localPlan = .ok piece.splits := by
  induction h with
  | nil => exact List.forall_mem_nil _
  | cons _ _ ihp ihps => exact List.forall_mem_append.mpr ⟨ihp, ihps⟩
  | copied _ => exact List.forall_mem_nil _
  | unary _ _ ih => exact ih
  | union _ _ ih => exact ih
  | aggregate _ hsplits _ ih =>
      exact List.forall_mem_append.mpr ⟨ih, List.forall_mem_singleton.mpr hsplits⟩
  | join _ _ hleft _ hright _ ihl ihr =>
      exact List.forall_mem_append.mpr
        ⟨List.forall_mem_append.mpr ⟨ihl, List.forall_mem_singleton.mpr hleft⟩,
          List.forall_mem_append.mpr ⟨ihr, List.forall_mem_singleton.mpr hright⟩⟩

end Rewrites

/-! ## Ids and targets -/

/-- The pieces below fragment `current`, numbered from `next` on: the ids are an interval, every piece
points to `current` or into the interval and to a smaller id, and what points to a piece was pushed
while that piece was rewritten. -/
structure PieceForest (env : PlannerEnv) (current next : ℕ) (pieces : List Piece) : Prop where
  current_lt : current < next
  ids : (pieces.map Piece.id).Perm (List.range' next pieces.length)
  target_lt : ∀ piece ∈ pieces, piece.target < piece.id
  target_mem : ∀ piece ∈ pieces, piece.target = current ∨ next ≤ piece.target
  parts : ∀ piece ∈ pieces, ∃ inner,
    Rewrites env piece.id (piece.id + 1) [piece.sourcePlan] [piece.localPlan] inner ∧
    inner ⊆ pieces ∧
    pieces.filter (·.target = piece.id) = inner.filter (·.target = piece.id)

namespace PieceForest

variable {env : PlannerEnv} {current next : ℕ} {pieces : List Piece}

theorem id_mem (h : PieceForest env current next pieces) {piece : Piece} (hp : piece ∈ pieces) :
    next ≤ piece.id ∧ piece.id < next + pieces.length := by
  have hmem := h.ids.mem_iff.mp (List.mem_map_of_mem hp)
  simpa [List.mem_range'_1] using hmem

/-- Ids outside the interval, other than `current`, are no one's target. -/
theorem filter_target_eq_nil (h : PieceForest env current next pieces) {id : ℕ} (hne : id ≠ current)
    (hid : id < next ∨ next + pieces.length ≤ id) : pieces.filter (·.target = id) = [] := by
  refine List.filter_eq_nil_iff.mpr fun piece hp => ?_
  have hlt := h.target_lt piece hp
  have hbound := h.id_mem hp
  have hmem := h.target_mem piece hp
  simp only [decide_eq_true_eq]
  omega

/-- Nothing below a cut points above it. -/
theorem filter_target_of_lt {id : ℕ} (h : PieceForest env id (id + 1) pieces) (hlt : current < id) :
    pieces.filter (·.target = current) = [] :=
  h.filter_target_eq_nil hlt.ne (Or.inl (Nat.lt_succ_of_lt hlt))

theorem nil (h : current < next) : PieceForest env current next [] where
  current_lt := h
  ids := .refl _
  target_lt := List.forall_mem_nil _
  target_mem := List.forall_mem_nil _
  parts := List.forall_mem_nil _

/-- Two rewritten plans of one fragment, numbered one after the other. -/
theorem append {first rest : List Piece} (hfirst : PieceForest env current next first)
    (hrest : PieceForest env current (next + first.length) rest) :
    PieceForest env current next (first ++ rest) where
  current_lt := hfirst.current_lt
  ids := by
    rw [List.map_append, List.length_append, ← List.range'_append_1]
    exact hfirst.ids.append hrest.ids
  target_lt := List.forall_mem_append.mpr ⟨hfirst.target_lt, hrest.target_lt⟩
  target_mem := List.forall_mem_append.mpr ⟨hfirst.target_mem, fun piece hp =>
    (hrest.target_mem piece hp).imp id (le_trans (Nat.le_add_right _ _))⟩
  parts := by
    have hlt := hfirst.current_lt
    refine List.forall_mem_append.mpr ⟨fun piece hp => ?_, fun piece hp => ?_⟩
    · obtain ⟨inner, hinner, hsub, hfilter⟩ := hfirst.parts piece hp
      have hid := hfirst.id_mem hp
      refine ⟨inner, hinner, fun x hx => List.mem_append_left _ (hsub hx), ?_⟩
      rw [List.filter_append, hfilter,
        hrest.filter_target_eq_nil (by omega) (Or.inl hid.2), List.append_nil]
    · obtain ⟨inner, hinner, hsub, hfilter⟩ := hrest.parts piece hp
      have hid := hrest.id_mem hp
      refine ⟨inner, hinner, fun x hx => List.mem_append_right _ (hsub hx), ?_⟩
      rw [List.filter_append, hfilter,
        hfirst.filter_target_eq_nil (by omega) (Or.inr hid.1), List.nil_append]

/-- A cut takes the next id and is pushed after everything below it. -/
theorem snoc {inner : List Piece} (hinner : PieceForest env next (next + 1) inner)
    (hlt : current < next) {op : CutOperator} {source localPlan : LogicalPlan}
    {splits : TableScanSplitGroup} (hsource : Rewrites env next (next + 1) [source] [localPlan] inner) :
    PieceForest env current next (inner ++ [⟨next, current, op, source, localPlan, splits⟩]) where
  current_lt := hlt
  ids := by
    rw [List.map_append, List.length_append, List.map_singleton, List.length_singleton,
      List.range'_succ]
    exact (List.perm_append_singleton _ _).trans (hinner.ids.cons _)
  target_lt := List.forall_mem_append.mpr
    ⟨hinner.target_lt, List.forall_mem_singleton.mpr hlt⟩
  target_mem := List.forall_mem_append.mpr
    ⟨fun piece hp => Or.inr ((hinner.target_mem piece hp).elim ge_of_eq Nat.le_of_succ_le),
      List.forall_mem_singleton.mpr (Or.inl rfl)⟩
  parts := by
    refine List.forall_mem_append.mpr ⟨fun piece hp => ?_, List.forall_mem_singleton.mpr ?_⟩
    · obtain ⟨below, hbelow, hsub, hfilter⟩ := hinner.parts piece hp
      have hid := hinner.id_mem hp
      refine ⟨below, hbelow, fun x hx => List.mem_append_left _ (hsub hx), ?_⟩
      rw [List.filter_append, hfilter, List.filter_singleton,
        decide_eq_false (by simp only; omega), cond_false, List.append_nil]
    · refine ⟨inner, hsource, List.subset_append_left _ _, ?_⟩
      rw [List.filter_append, List.filter_singleton, decide_eq_false (by simp only; omega),
        cond_false, List.append_nil]

end PieceForest

namespace Rewrites

variable {env : PlannerEnv} {current next : ℕ} {ps qs : List LogicalPlan} {pieces : List Piece}

/-- The pieces of a rewritten plan form a forest below its fragment. -/
theorem forest (h : Rewrites env current next ps qs pieces) (hlt : current < next) :
    PieceForest env current next pieces := by
  induction h with
  | nil => exact .nil hlt
  | cons _ _ ihp ihps => exact (ihp hlt).append (ihps (Nat.lt_add_right _ hlt))
  | copied _ => exact .nil hlt
  | unary _ _ ih => exact ih hlt
  | union _ _ ih => exact ih hlt
  | aggregate hinput _ _ ih => exact (ih (Nat.lt_succ_self _)).snoc hlt hinput
  | join hmid hleft _ hright _ _ ihl ihr =>
      refine ((ihl (Nat.lt_succ_self _)).snoc hlt hleft).append ?_
      rw [List.length_append, List.length_singleton, ← hmid]
      exact (ihr (Nat.lt_succ_self _)).snoc (by omega) hright

/-- If the plans have no remote source of their own, those of the rewritten plans are the pieces that
point to this fragment, in order. -/
theorem allRemoteSources_eq (h : Rewrites env current next ps qs pieces) (hlt : current < next)
    (hps : LogicalPlan.allRemoteSources ps = []) :
    LogicalPlan.allRemoteSources qs =
      (pieces.filter (·.target = current)).map Piece.remote := by
  induction h with
  | nil => rfl
  | cons _ _ ihp ihps =>
      simp only [LogicalPlan.allRemoteSources, List.append_eq_nil_iff, List.append_nil] at ihp hps ⊢
      rw [ihp hlt hps.1, ihps (Nat.lt_add_right _ hlt) hps.2, List.filter_append, List.map_append]
  | copied _ => exact hps
  | unary _ _ ih =>
      simp only [LogicalPlan.allRemoteSources, LogicalPlan.remoteSources] at ih hps ⊢
      exact ih hlt hps
  | union _ _ ih =>
      simp only [LogicalPlan.allRemoteSources, LogicalPlan.remoteSources, List.append_nil]
        at ih hps ⊢
      exact ih hlt hps
  | aggregate hinput _ _ _ =>
      rw [List.filter_append, (hinput.forest (Nat.lt_succ_self _)).filter_target_of_lt hlt]
      simp [LogicalPlan.allRemoteSources, LogicalPlan.remoteSources, RemoteSourceNode.plan,
        Piece.remote]
  | join hmid hleft _ hright _ _ _ _ =>
      rw [List.filter_append, List.filter_append, List.filter_append,
        (hleft.forest (Nat.lt_succ_self _)).filter_target_of_lt hlt,
        (hright.forest (Nat.lt_succ_self _)).filter_target_of_lt (by omega)]
      simp [LogicalPlan.allRemoteSources, LogicalPlan.remoteSources, RemoteSourceNode.plan,
        Piece.remote]

/-- A rewritten plan with a cut has a piece that points to its own fragment. -/
theorem filter_target_eq_nil_iff (h : Rewrites env current next ps qs pieces) (hlt : current < next) :
    pieces.filter (·.target = current) = [] ↔ LogicalPlan.allCuts ps = [] := by
  have hforest := h.forest hlt
  rw [← h.map_cut, List.map_eq_nil_iff]
  refine ⟨fun hnil => ?_, fun hnil => by rw [hnil, List.filter_nil]⟩
  by_contra hne
  -- the piece with the first id has nowhere else to point to
  have hmem : next ∈ pieces.map Piece.id :=
    hforest.ids.mem_iff.mpr (List.mem_range'_1.mpr ⟨le_rfl, by
      have := List.length_pos_iff.mpr hne
      omega⟩)
  obtain ⟨piece, hp, hid⟩ := List.mem_map.mp hmem
  have htarget : piece.target = current := by
    have hlt := hforest.target_lt piece hp
    rcases hforest.target_mem piece hp with heq | hle
    · exact heq
    · omega
  exact List.filter_eq_nil_iff.mp hnil piece hp (by simpa using htarget)

end Rewrites

/-! ## The whole distributed plan -/

namespace LogicalPlan

/-- What a node passes on to its inputs holds of everything that is cut off a plan. -/
theorem of_mem_cuts {P : LogicalPlan → Prop} (hunary : ∀ node input, P (.unary node input) → P input)
    (hunion : ∀ inputs schema, P (.union inputs schema) → ∀ q ∈ inputs, P q)
    (haggregate : ∀ agg input, P (.aggregate agg input) → P input)
    (hjoin : ∀ j left right, P (.join j left right) → P left ∧ P right)
    {p : LogicalPlan} (hp : P p) {cut : CutOperator × LogicalPlan} (hcut : cut ∈ p.cuts) :
    P cut.2 := by
  induction p with
  | tableScan scan => simp [cuts] at hcut
  | unary node input ih => exact ih (hunary node input hp) (by simpa only [cuts] using hcut)
  | union inputs schema ih =>
      rw [cuts, allCuts_eq_flatMap] at hcut
      obtain ⟨q, hq, hcut⟩ := List.mem_flatMap.mp hcut
      exact ih q hq (hunion inputs schema hp q hq) hcut
  | aggregate agg input ih =>
      rcases List.mem_append.mp (by simpa only [cuts] using hcut) with hcut | hcut
      · exact ih (haggregate agg input hp) hcut
      · rw [List.mem_singleton.mp hcut]
        exact haggregate agg input hp
  | join j left right ihl ihr =>
      obtain ⟨hleft, hright⟩ := hjoin j left right hp
      simp only [cuts, List.mem_append, List.mem_singleton] at hcut
      rcases hcut with (hcut | rfl) | hcut | rfl
      · exact ihl hleft hcut
      · exact hleft
      · exact ihr hright hcut
      · exact hright
  | remoteSource ids schema => simp [cuts] at hcut
  | other node inputs ih => simp [cuts] at hcut

/-- What is cut off a plan without remote sources has none either. -/
theorem containsRemoteSource_of_mem_cuts {p : LogicalPlan} (hp : p.containsRemoteSource = false)
    {cut : CutOperator × LogicalPlan} (hcut : cut ∈ p.cuts) :
    cut.2.containsRemoteSource = false := by
  refine of_mem_cuts (P := fun q => q.containsRemoteSource = false) (fun node input h => h)
    (fun inputs schema h => ?_) (fun agg input h => h) (fun j left right h => ?_) hp hcut
  · rwa [containsRemoteSource, anyContainsRemoteSource_eq_false] at h
  · rwa [containsRemoteSource, Bool.or_eq_false_iff] at h

end LogicalPlan

namespace PlanFragment

/-- The remote sources of the local plan. -/
def remoteSources (fragment : PlanFragment) : List (List PlanFragmentId × DFSchema) :=
  (fragment.localPlan.map LogicalPlan.remoteSources).getD []

/-- The fragments named by the remote sources of the local plan, with repetitions. -/
def remoteIds (fragment : PlanFragment) : List PlanFragmentId :=
  fragment.remoteSources.flatMap Prod.fst

end PlanFragment

/-- A well-formed fragment tree, with the role of every fragment recorded right. -/
structure FragmentTree (plan : DistributedFragmentPlan) : Prop where
  ids_nodup : (plan.fragments.map PlanFragment.fragmentId).Nodup
  one_exchange : ∀ fragment ∈ plan.fragments, fragment.fragmentId ≠ 0 →
    (plan.exchanges.map ExchangeNode.sourceFragmentId).count fragment.fragmentId = 1
  root_no_exchange : 0 ∉ plan.exchanges.map ExchangeNode.sourceFragmentId
  target : ∀ exchange ∈ plan.exchanges, ∃ fragment ∈ plan.fragments,
    fragment.fragmentId = exchange.targetFragmentId ∧
    fragment.remoteIds.count exchange.sourceFragmentId = 1 ∧
    ∀ fragment' ∈ plan.fragments, exchange.sourceFragmentId ∈ fragment'.remoteIds →
      fragment' = fragment
  remote_exists : ∀ fragment ∈ plan.fragments, ∀ id ∈ fragment.remoteIds,
    ∃ source ∈ plan.fragments, source.fragmentId = id
  target_lt_source : ∀ exchange ∈ plan.exchanges,
    exchange.targetFragmentId < exchange.sourceFragmentId
  layout : ∀ exchange ∈ plan.exchanges, ∀ fragment ∈ plan.fragments,
    ∀ remote ∈ fragment.remoteSources, exchange.sourceFragmentId ∈ remote.1 →
      exchange.partitioningScheme.outputLayout = remote.2.columns
  kind : ∀ fragment ∈ plan.fragments, fragment.fragmentId ≠ 0 →
    (fragment.kind = .intermediate ↔
      ∃ localPlan, fragment.localPlan = some localPlan ∧ localPlan.containsRemoteSource = true)

namespace BuildResult

variable {env : PlannerEnv} {p : LogicalPlan} {plan : DistributedFragmentPlan}

/-- The pieces hang below the root. -/
theorem forest (r : BuildResult env p plan) : PieceForest env 0 1 r.pieces :=
  r.rewrites.forest Nat.zero_lt_one

theorem ids_nodup (r : BuildResult env p plan) : (r.pieces.map Piece.id).Nodup :=
  r.forest.ids.nodup_iff.mpr List.nodup_range'

theorem map_cut (r : BuildResult env p plan) :
    r.pieces.map (fun piece => (piece.operator, piece.sourcePlan)) = p.cuts := by
  rw [r.rewrites.map_cut, LogicalPlan.allCuts, LogicalPlan.allCuts, List.append_nil]

theorem id_pos (r : BuildResult env p plan) {piece : Piece} (hp : piece ∈ r.pieces) :
    piece.id ≠ 0 :=
  Nat.one_le_iff_ne_zero.mp (r.forest.id_mem hp).1

/-- Pieces are told apart by their ids. -/
theorem eq_of_id_eq (r : BuildResult env p plan) {piece piece' : Piece} (hp : piece ∈ r.pieces)
    (hp' : piece' ∈ r.pieces) (hid : piece.id = piece'.id) : piece = piece' :=
  List.inj_on_of_nodup_map r.ids_nodup hp hp' hid

/-- A fragment is the root or a piece. -/
theorem mem_fragments (r : BuildResult env p plan) {fragment : PlanFragment} :
    fragment ∈ plan.fragments ↔
      fragment = ⟨0, .root, some r.rootPlan, some r.rootPlan⟩ ∨
      ∃ piece ∈ r.pieces, piece.fragment = fragment := by
  rw [r.fragments_eq, List.mem_cons, List.mem_map]

theorem mem_exchanges (r : BuildResult env p plan) {exchange : ExchangeNode} :
    exchange ∈ plan.exchanges ↔ ∃ piece ∈ r.pieces, piece.exchange env = exchange := by
  rw [r.exchanges_eq, List.mem_map]

theorem map_fragmentId (r : BuildResult env p plan) :
    plan.fragments.map PlanFragment.fragmentId = 0 :: r.pieces.map Piece.id := by
  simp [r.fragments_eq, Piece.fragment, Function.comp_def]

theorem map_sourceFragmentId (r : BuildResult env p plan) :
    plan.exchanges.map ExchangeNode.sourceFragmentId = r.pieces.map Piece.id := by
  simp [r.exchanges_eq, Piece.exchange, connectExchange, Function.comp_def]

theorem fragmentIds_nodup (r : BuildResult env p plan) :
    (plan.fragments.map PlanFragment.fragmentId).Nodup := by
  rw [r.map_fragmentId, List.nodup_cons]
  refine ⟨fun hmem => ?_, r.ids_nodup⟩
  obtain ⟨piece, hp, hid⟩ := List.mem_map.mp hmem
  exact r.id_pos hp hid

/-- Every id from 0 to the number of pieces is a fragment. -/
theorem exists_fragment (r : BuildResult env p plan) {id : ℕ} (hid : id < 1 + r.pieces.length) :
    ∃ fragment ∈ plan.fragments, fragment.fragmentId = id := by
  have hmem : id ∈ plan.fragments.map PlanFragment.fragmentId := by
    rw [r.map_fragmentId, List.mem_cons, r.forest.ids.mem_iff, List.mem_range'_1]
    omega
  simpa using hmem

section RemoteFree

variable (hp : p.containsRemoteSource = false)
include hp

theorem sourcePlan_remoteFree (r : BuildResult env p plan) {piece : Piece}
    (hpiece : piece ∈ r.pieces) : piece.sourcePlan.containsRemoteSource = false := by
  have hcut : (piece.operator, piece.sourcePlan) ∈ p.cuts :=
    r.map_cut ▸ List.mem_map_of_mem hpiece
  exact LogicalPlan.containsRemoteSource_of_mem_cuts hp hcut

/-- The remote sources of a piece are the pieces that point to it. -/
theorem localPlan_remoteSources (r : BuildResult env p plan) {piece : Piece}
    (hpiece : piece ∈ r.pieces) :
    piece.localPlan.remoteSources =
      (r.pieces.filter (·.target = piece.id)).map Piece.remote := by
  obtain ⟨inner, hinner, -, hfilter⟩ := r.forest.parts piece hpiece
  have hnone := (LogicalPlan.remoteSources_eq_nil_iff _).mpr (r.sourcePlan_remoteFree hp hpiece)
  have hremotes := hinner.allRemoteSources_eq (Nat.lt_succ_self _)
    (by simp [LogicalPlan.allRemoteSources, hnone])
  rw [hfilter, ← hremotes]
  simp [LogicalPlan.allRemoteSources]

/-- The remote sources of any fragment are the pieces that point to it. -/
theorem remoteSources_eq (r : BuildResult env p plan) {fragment : PlanFragment}
    (hf : fragment ∈ plan.fragments) :
    fragment.remoteSources =
      (r.pieces.filter (·.target = fragment.fragmentId)).map Piece.remote := by
  rcases r.mem_fragments.mp hf with rfl | ⟨piece, hpiece, rfl⟩
  · have hremotes := r.rewrites.allRemoteSources_eq Nat.zero_lt_one
      (by simp [LogicalPlan.allRemoteSources, (LogicalPlan.remoteSources_eq_nil_iff p).mpr hp])
    simpa [PlanFragment.remoteSources, LogicalPlan.allRemoteSources] using hremotes
  · exact r.localPlan_remoteSources hp hpiece

theorem remoteIds_eq (r : BuildResult env p plan) {fragment : PlanFragment}
    (hf : fragment ∈ plan.fragments) :
    fragment.remoteIds = (r.pieces.filter (·.target = fragment.fragmentId)).map Piece.id := by
  rw [PlanFragment.remoteIds, r.remoteSources_eq hp hf, List.flatMap_map]
  exact List.flatMap_pure_eq_map _ _

/-- A fragment names a piece exactly when it is the piece's target, and then once. -/
theorem mem_remoteIds (r : BuildResult env p plan) {fragment : PlanFragment}
    (hf : fragment ∈ plan.fragments) {piece : Piece} (hpiece : piece ∈ r.pieces) :
    piece.id ∈ fragment.remoteIds ↔ piece.target = fragment.fragmentId := by
  rw [r.remoteIds_eq hp hf, List.mem_map]
  constructor
  · rintro ⟨piece', hpiece', hid⟩
    obtain ⟨hmem, htarget⟩ := List.mem_filter.mp hpiece'
    rw [← r.eq_of_id_eq hmem hpiece hid]
    simpa using htarget
  · exact fun htarget => ⟨piece, List.mem_filter.mpr ⟨hpiece, by simpa using htarget⟩, rfl⟩

theorem remoteIds_nodup (r : BuildResult env p plan) {fragment : PlanFragment}
    (hf : fragment ∈ plan.fragments) : fragment.remoteIds.Nodup := by
  rw [r.remoteIds_eq hp hf]
  exact r.ids_nodup.sublist (List.filter_sublist.map _)

/-- The local plan of a piece has a remote source exactly when its source plan has a cut. -/
theorem localPlan_containsRemoteSource (r : BuildResult env p plan) {piece : Piece}
    (hpiece : piece ∈ r.pieces) :
    piece.localPlan.containsRemoteSource = false ↔ piece.sourcePlan.cuts = [] := by
  obtain ⟨inner, hinner, -, hfilter⟩ := r.forest.parts piece hpiece
  rw [← LogicalPlan.remoteSources_eq_nil_iff, r.localPlan_remoteSources hp hpiece, hfilter,
    List.map_eq_nil_iff, hinner.filter_target_eq_nil_iff (Nat.lt_succ_self _)]
  simp [LogicalPlan.allCuts]

/-- Every piece is recorded as a source fragment. -/
theorem fragment_kind (r : BuildResult env p plan) {piece : Piece} (hpiece : piece ∈ r.pieces) :
    piece.fragment.kind = .source := by
  simp [Piece.fragment, fragmentKindForPlan, r.sourcePlan_remoteFree hp hpiece]

/-- The tree of fragments is well formed if no piece reads a remote source, so that all of them are
the source fragments they are recorded as. -/
theorem fragmentTree (r : BuildResult env p plan)
    (hlocal : ∀ piece ∈ r.pieces, piece.localPlan.containsRemoteSource = false) :
    FragmentTree plan where
  ids_nodup := r.fragmentIds_nodup
  one_exchange fragment hf hne := by
    rcases r.mem_fragments.mp hf with rfl | ⟨piece, hpiece, rfl⟩
    · exact absurd rfl hne
    · rw [r.map_sourceFragmentId]
      exact List.count_eq_one_of_mem r.ids_nodup (List.mem_map_of_mem hpiece)
  root_no_exchange := by
    rw [r.map_sourceFragmentId]
    intro hmem
    obtain ⟨piece, hpiece, hid⟩ := List.mem_map.mp hmem
    exact r.id_pos hpiece hid
  target exchange he := by
    obtain ⟨piece, hpiece, rfl⟩ := r.mem_exchanges.mp he
    have hbound : piece.target < 1 + r.pieces.length :=
      (r.forest.target_lt piece hpiece).trans (r.forest.id_mem hpiece).2
    obtain ⟨fragment, hf, hid⟩ := r.exists_fragment hbound
    refine ⟨fragment, hf, hid, ?_, fun fragment' hf' hmem => ?_⟩
    · exact List.count_eq_one_of_mem (r.remoteIds_nodup hp hf)
        ((r.mem_remoteIds hp hf hpiece).mpr hid.symm)
    · refine List.inj_on_of_nodup_map r.fragmentIds_nodup hf' hf ?_
      exact ((r.mem_remoteIds hp hf' hpiece).mp hmem).symm.trans hid.symm
  remote_exists fragment hf id hid := by
    rw [r.remoteIds_eq hp hf] at hid
    obtain ⟨piece, hpiece, rfl⟩ := List.mem_map.mp hid
    exact r.exists_fragment (r.forest.id_mem (List.mem_of_mem_filter hpiece)).2
  target_lt_source exchange he := by
    obtain ⟨piece, hpiece, rfl⟩ := r.mem_exchanges.mp he
    exact r.forest.target_lt piece hpiece
  layout exchange he fragment hf remote hremote hsource := by
    obtain ⟨piece, hpiece, rfl⟩ := r.mem_exchanges.mp he
    rw [r.remoteSources_eq hp hf] at hremote
    obtain ⟨piece', hpiece', rfl⟩ := List.mem_map.mp hremote
    -- a remote source names one fragment, so the exchange is that fragment's own
    have hid : piece.id = piece'.id := List.mem_singleton.mp hsource
    rw [r.eq_of_id_eq hpiece (List.mem_of_mem_filter hpiece') hid]
    rfl
  kind fragment hf hne := by
    rcases r.mem_fragments.mp hf with rfl | ⟨piece, hpiece, rfl⟩
    · exact absurd rfl hne
    · rw [r.fragment_kind hp hpiece]
      simp [Piece.fragment, hlocal piece hpiece]

end RemoteFree

end BuildResult

/-- The tree is well formed in every respect but the kinds; these are right exactly when no cut-off
input is cut again. -/
theorem fragmentTree_iff {env : PlannerEnv} {p : LogicalPlan} {plan : DistributedFragmentPlan}
    (hp : p.containsRemoteSource = false) (h : build env p = .ok plan) :
    FragmentTree plan ↔ ∀ cut ∈ p.cuts, cut.2.cuts = [] := by
  obtain ⟨r⟩ := build_spec h
  have hcuts : (∀ cut ∈ p.cuts, cut.2.cuts = []) ↔
      ∀ piece ∈ r.pieces, piece.localPlan.containsRemoteSource = false := by
    rw [← r.map_cut, List.forall_mem_map]
    exact forall₂_congr fun piece hpiece => (r.localPlan_containsRemoteSource hp hpiece).symm
  rw [hcuts]
  constructor
  · intro htree piece hpiece
    -- the piece is recorded as a source fragment, so it must not read a remote source
    have hkind := htree.kind piece.fragment (r.mem_fragments.mpr (Or.inr ⟨piece, hpiece, rfl⟩))
      (r.id_pos hpiece)
    rw [r.fragment_kind hp hpiece] at hkind
    simpa [Piece.fragment] using hkind
  · exact r.fragmentTree hp

/-- The tree of a single aggregation is well formed. -/
theorem fragmentTree_groupById : ∃ plan,
    build Sample.env (.aggregate Sample.groupById Sample.scanOrders) = .ok plan ∧
    FragmentTree plan := by
  obtain ⟨plan, h⟩ : ∃ plan,
      build Sample.env (.aggregate Sample.groupById Sample.scanOrders) = .ok plan := ⟨_, rfl⟩
  refine ⟨plan, h, (fragmentTree_iff rfl h).mpr ?_⟩
  show ∀ cut ∈ [(CutOperator.aggregate Sample.groupById, Sample.scanOrders)], cut.2.cuts = []
  exact List.forall_mem_singleton.mpr rfl

/-- In `SELECT count(*) FROM (SELECT id FROM orders GROUP BY id)` the inner aggregation's fragment
reads a remote source and is still recorded as a source fragment. -/
theorem not_fragmentTree_count_groupById : ∃ plan,
    build Sample.env
      (.aggregate Sample.countAll (.aggregate Sample.groupById Sample.scanOrders)) = .ok plan ∧
    (LogicalPlan.aggregate Sample.countAll
      (.aggregate Sample.groupById Sample.scanOrders)).containsRemoteSource = false ∧
    ¬ FragmentTree plan := by
  refine ⟨_, rfl, rfl, fun htree => ?_⟩
  have hkind := htree.kind
    ⟨1, .source, none, some (.aggregate Sample.groupById
      (RemoteSourceNode.plan 2 Sample.scanOrders.schema))⟩
    (List.mem_cons_of_mem _ (List.mem_cons_of_mem _ List.mem_cons_self)) Nat.one_ne_zero
  exact PlanFragmentKind.noConfusion (hkind.mpr ⟨_, rfl, rfl⟩)

end BrewDB

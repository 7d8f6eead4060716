import BrewDB.Semantics.Distributed

/-!
# One fragment

The part of a plan that stays in one fragment, evaluated in the instances of that fragment. With one
instance the fragment returns what that part of the plan may return in one piece. With several
instances every operator is repeated in each of them, on the splits and rows that reach it there: the
results add up to a result in one piece for operators that act on every row separately, and for grouped
aggregates and joins whose rows are sent where their partners are.
-/

namespace BrewDB

open Finset (range)
open LogicalPlan

/-! ## Operators that can be repeated -/

section Splittable

variable (ops : Operators) (tables : TableScan → Multiset Row)

/-- Any two rows of one group hold the same cells under the columns they are distributed by. -/
def GroupsMeet (agg : Aggregate) (input : LogicalPlan) : Prop :=
  ∀ rows, Evaluates ops tables (fun _ => 0) input rows → ∀ a ∈ rows, ∀ b ∈ rows,
    (∀ e ∈ agg.groupExpr, ops.eval input.schema e a = ops.eval input.schema e b) →
    ∀ column ∈ keyColumns agg.groupExpr,
      cellNamed input.schema.asArrow a column.name = cellNamed input.schema.asArrow b column.name

/-- A left and a right row that match hold the same cells under the columns they are distributed by,
in whatever order these are listed. -/
def MatchesMeet (j : Join) (left right : LogicalPlan) : Prop :=
  ∀ leftRows rightRows, Evaluates ops tables (fun _ => 0) left leftRows →
    Evaluates ops tables (fun _ => 0) right rightRows → ∀ a ∈ leftRows, ∀ b ∈ rightRows,
    j.isMatch ops left.schema right.schema a b = true → ∀ orderLeft orderRight : SetOrder,
      (partitionKeys orderLeft (j.onKeys.map Prod.fst)).map
          (fun key => cellNamed left.schema.asArrow a key.name) =
        (partitionKeys orderRight (j.onKeys.map Prod.snd)).map
          fun key => cellNamed right.schema.asArrow b key.name

mutual
/-- Every operator of the plan that stays in its fragment can be repeated in several instances. -/
def LogicalPlan.Splittable : LogicalPlan → Prop
  | .tableScan scan => scan.fetch = none
  | .unary node input => node.isRowwise = true ∧ Splittable input
  | .union inputs _ => AllSplittable inputs
  | .aggregate agg input => agg.groupExpr ≠ [] ∧ GroupsMeet ops tables agg input
  | .join j left right => j.onKeys ≠ [] ∧ (j.joinType = .leftAnti → j.nullAware = false) ∧
      MatchesMeet ops tables j left right
  | .remoteSource _ _ => False
  | .other _ _ => False

/-- All plans are. -/
def LogicalPlan.AllSplittable : List LogicalPlan → Prop
  | [] => True
  | p :: ps => Splittable p ∧ AllSplittable ps
end

end Splittable

/-! ## What reaches the instances -/

/-- The instances `0, …, n - 1` of a fragment together read the whole of each table, and the output of
each piece below, distributed by its exchange. -/
structure FragmentReads (env : PlannerEnv) (ops : Operators) (hash : List TypedCell → ℕ)
    (tables : TableScan → Multiset Row) (n : ℕ) (localTables : ℕ → TableScan → Multiset Row)
    (localRemote : ℕ → List PlanFragmentId → Multiset Row) (current : PlanFragmentId)
    (scans : List TableScan) (pieces : List Piece) : Prop where
  scans : ∀ scan ∈ scans, ∑ j ∈ range n, localTables j scan = tables scan
  pieces : ∀ piece ∈ pieces, piece.target = current → ∃ rows : List Row,
    Evaluates ops tables (fun _ => 0) piece.sourcePlan rows ∧
    ∀ j < n, localRemote j [piece.id] =
      (piece.exchange env).delivers hash piece.sourcePlan.schema.asArrow n j rows

section Reads

variable {env : PlannerEnv} {ops : Operators} {hash : List TypedCell → ℕ}
  {tables : TableScan → Multiset Row} {n : ℕ} {localTables : ℕ → TableScan → Multiset Row}
  {localRemote : ℕ → List PlanFragmentId → Multiset Row} {current : PlanFragmentId}

theorem FragmentReads.mono {scans scans' : List TableScan} {pieces pieces' : List Piece}
    (h : FragmentReads env ops hash tables n localTables localRemote current scans pieces)
    (hscans : scans' ⊆ scans) (hpieces : pieces' ⊆ pieces) :
    FragmentReads env ops hash tables n localTables localRemote current scans' pieces' :=
  ⟨fun scan hscan => h.scans scan (hscans hscan), fun piece hp => h.pieces piece (hpieces hp)⟩

/-- A single target receives everything. -/
theorem ExchangeNode.delivers_one (exchange : ExchangeNode) (schema : List Field)
    (rows : Multiset Row) : exchange.delivers hash schema 1 0 rows = rows := by
  unfold delivers
  split
  · exact Multiset.filter_eq_self.mpr fun row _ => Nat.mod_one _
  · rfl

/-- A single instance of a fragment returns what the plan may return in one piece. -/
theorem Rewrites.evaluatesAll_one {next : ℕ} {ps qs : List LogicalPlan} {pieces : List Piece}
    (h : Rewrites env current next ps qs pieces) (hps : AllConstructed env.df ps)
    (hremote : anyContainsRemoteSource ps = false)
    (hreads : FragmentReads env ops hash tables 1 localTables localRemote current
      (allFragmentScans ps) pieces)
    {rows : List Row} (hrows : EvaluatesAll ops (localTables 0) (localRemote 0) qs rows) :
    EvaluatesAll ops tables (fun _ => 0) ps rows := by
  induction h generalizing rows with
  | nil => exact hrows
  | cons _ _ ihp ihps =>
      obtain ⟨first, rest, hfirst, hrest, rfl⟩ := hrows
      rw [anyContainsRemoteSource, Bool.or_eq_false_iff] at hremote
      have hp := ihp ⟨hps.1, trivial⟩ (by simp [anyContainsRemoteSource, hremote.1])
        (hreads.mono (by simp [allFragmentScans]) (List.subset_append_left _ _))
        (evaluatesAll_singleton.mpr hfirst)
      have hps := ihps hps.2 hremote.2
        (hreads.mono (List.subset_append_right _ _) (List.subset_append_right _ _)) hrest
      exact ⟨first, rest, evaluatesAll_singleton.mp hp, hps, rfl⟩
  | @copied _ _ p hcopied =>
      rw [evaluatesAll_singleton] at hrows ⊢
      cases p with
      | tableScan scan =>
          have hscan := hreads.scans scan (by simp [allFragmentScans, fragmentScans])
          rw [Finset.sum_range_one] at hscan
          rw [Evaluates] at hrows ⊢
          rwa [← hscan]
      | remoteSource ids schema =>
          simp [anyContainsRemoteSource, containsRemoteSource] at hremote
      | other node inputs =>
          rw [Evaluates] at hrows
          exact hrows.elim
      | _ => cases hcopied
  | @unary _ _ node node' p q _ hinput hnode ih =>
      obtain ⟨hp, hschema, rfl⟩ := hinput.rebuild_eq hps hnode
      simp only [evaluatesAll_singleton, Evaluates, hschema] at hrows ⊢
      obtain ⟨inputRows, hinputRows, hproduces⟩ := hrows
      have hinner := ih ⟨hp, trivial⟩
        (by simpa [anyContainsRemoteSource, containsRemoteSource] using hremote)
        (hreads.mono (by simp [allFragmentScans, fragmentScans]) (List.Subset.refl _))
        (evaluatesAll_singleton.mpr hinputRows)
      exact ⟨inputRows, evaluatesAll_singleton.mp hinner, hproduces⟩
  | @union _ _ ps qs schema schema' _ hinputs hunion ih =>
      obtain ⟨hps, -⟩ := by simpa only [AllConstructed, Constructed, and_true] using hps
      simp only [evaluatesAll_singleton, Evaluates] at hrows ⊢
      obtain ⟨inputRows, hinputRows, hperm⟩ := hrows
      refine ⟨inputRows, ih hps ?_ ?_ hinputRows, hperm⟩
      · simpa [anyContainsRemoteSource, containsRemoteSource] using hremote
      · exact hreads.mono (by simp [allFragmentScans, fragmentScans]) (List.Subset.refl _)
  | @aggregate _ next agg input _ _ _ schema' _ _ hagg _ =>
      simp only [evaluatesAll_singleton, Evaluates, RemoteSourceNode.plan] at hrows ⊢
      obtain ⟨inputRows, hinputRows, hresult⟩ := hrows
      obtain ⟨whole, hwhole, hdelivered⟩ :=
        hreads.pieces _ (List.mem_append_right _ List.mem_cons_self) rfl
      rw [hdelivered 0 Nat.one_pos, ExchangeNode.delivers_one] at hinputRows
      rw [hinputRows] at hresult
      exact ⟨whole, hwhole, hresult⟩
  | @join _ next j left right _ _ _ _ _ _ schema' mid _ _ _ _ _ hjoin _ _ =>
      simp only [evaluatesAll_singleton, Evaluates, RemoteSourceNode.plan] at hrows ⊢
      obtain ⟨leftRows, rightRows, hleftRows, hrightRows, hresult⟩ := hrows
      obtain ⟨wholeLeft, hwholeLeft, hdeliveredLeft⟩ := hreads.pieces _
        (List.mem_append_left _ (List.mem_append_right _ List.mem_cons_self)) rfl
      obtain ⟨wholeRight, hwholeRight, hdeliveredRight⟩ := hreads.pieces _
        (List.mem_append_right _ (List.mem_append_right _ List.mem_cons_self)) rfl
      rw [hdeliveredLeft 0 Nat.one_pos, ExchangeNode.delivers_one] at hleftRows
      rw [hdeliveredRight 0 Nat.one_pos, ExchangeNode.delivers_one] at hrightRows
      rw [hleftRows, hrightRows] at hresult
      exact ⟨wholeLeft, wholeRight, hwholeLeft, hwholeRight, hresult⟩

/-- The targets of a repartition together receive everything. -/
theorem ExchangeNode.sum_delivers {exchange : ExchangeNode}
    (htype : exchange.exchangeType = .repartition) (schema : List Field) (hn : 0 < n)
    (rows : Multiset Row) :
    ∑ j ∈ range n, exchange.delivers hash schema n j rows = rows := by
  simp only [delivers, htype, if_true]
  exact Bag.sum_filter_class rows n (exchange.ordinal hash schema n) fun row _ => Nat.mod_lt _ hn

/-- What a target of a repartition receives selects its position. -/
theorem ExchangeNode.mem_delivers {exchange : ExchangeNode}
    (htype : exchange.exchangeType = .repartition) {schema : List Field} {j : ℕ}
    {rows : Multiset Row} {row : Row} (h : row ∈ exchange.delivers hash schema n j rows) :
    row ∈ rows ∧ exchange.ordinal hash schema n row = j := by
  rw [delivers, if_pos htype] at h
  exact Multiset.mem_filter.mp h

/-- Rows with equal key cells select the same position. -/
theorem ExchangeNode.ordinal_congr {exchange exchange' : ExchangeNode} {schema schema' : List Field}
    {row row' : Row}
    (h : exchange.partitioningScheme.partitionKeys.map (fun key => cellNamed schema row key.name) =
      exchange'.partitioningScheme.partitionKeys.map fun key => cellNamed schema' row' key.name) :
    exchange.ordinal hash schema n row = exchange'.ordinal hash schema' n row' := by
  have hcells := congrArg (List.filterMap id) h
  rw [List.filterMap_map, List.filterMap_map] at hcells
  exact congrArg (fun cells => hash cells % n) hcells

/-- A grouped aggregate, repeated on the rows that reach each instance. -/
theorem Aggregate.rows_delivered {agg : Aggregate} {input : LogicalPlan} (piece : Piece)
    (hop : piece.operator = .aggregate agg) (hn : 0 < n)
    (hgroup : agg.groupExpr ≠ []) (hmeet : GroupsMeet ops tables agg input) {rows : List Row}
    (hrows : Evaluates ops tables (fun _ => 0) input rows) :
    agg.rows ops input.schema rows = ∑ j ∈ range n, agg.rows ops input.schema
      ((piece.exchange env).delivers hash input.schema.asArrow n j rows) := by
  obtain ⟨htype, hkeys⟩ := piece.exchange_of_keyExprs env (by rwa [hop])
  rw [hop] at hkeys
  rw [← Aggregate.rows_sum hgroup, ExchangeNode.sum_delivers htype _ hn]
  -- rows of one group would have selected the same instance
  intro i _ k _ hne a ha b hb
  obtain ⟨ha, hai⟩ := ExchangeNode.mem_delivers htype ha
  obtain ⟨hb, hbk⟩ := ExchangeNode.mem_delivers htype hb
  by_contra hsame
  have hcells := hmeet rows hrows a (Multiset.mem_coe.mp ha) b (Multiset.mem_coe.mp hb)
    (by simpa using hsame)
  refine hne (hai.symm.trans ((ExchangeNode.ordinal_congr ?_).trans hbk))
  rw [hkeys]
  exact List.map_congr_left fun key hkey => hcells key (mem_partitionKeys.mp hkey)

/-- A join by keys, repeated on the rows that reach each instance. -/
theorem Join.rows_delivered {j : Join} {left right : LogicalPlan} (pieceLeft pieceRight : Piece)
    (hopLeft : pieceLeft.operator = .joinSide j true)
    (hopRight : pieceRight.operator = .joinSide j false) (hn : 0 < n) (hon : j.onKeys ≠ [])
    (hnull : j.joinType = .leftAnti → j.nullAware = false) (hmeet : MatchesMeet ops tables j left right)
    {leftRows rightRows : List Row} (hleft : Evaluates ops tables (fun _ => 0) left leftRows)
    (hright : Evaluates ops tables (fun _ => 0) right rightRows) :
    j.rows ops left.schema right.schema leftRows rightRows =
      ∑ i ∈ range n, j.rows ops left.schema right.schema
        ((pieceLeft.exchange env).delivers hash left.schema.asArrow n i leftRows)
        ((pieceRight.exchange env).delivers hash right.schema.asArrow n i rightRows) := by
  obtain ⟨htypeLeft, hkeysLeft⟩ := pieceLeft.exchange_of_keyExprs env
    (by simpa [hopLeft, CutOperator.keyExprs] using hon)
  obtain ⟨htypeRight, hkeysRight⟩ := pieceRight.exchange_of_keyExprs env
    (by simpa [hopRight, CutOperator.keyExprs] using hon)
  rw [hopLeft] at hkeysLeft
  rw [hopRight] at hkeysRight
  rw [← Join.rows_sum hnull, ExchangeNode.sum_delivers htypeLeft _ hn,
    ExchangeNode.sum_delivers htypeRight _ hn]
  -- matching rows would have selected the same instance
  intro i _ k _ hne a ha b hb
  obtain ⟨ha, hai⟩ := ExchangeNode.mem_delivers htypeLeft ha
  obtain ⟨hb, hbk⟩ := ExchangeNode.mem_delivers htypeRight hb
  by_contra hmatch
  refine hne (hai.symm.trans ((ExchangeNode.ordinal_congr ?_).trans hbk))
  rw [hkeysLeft, hkeysRight]
  exact hmeet leftRows rightRows hleft hright a (Multiset.mem_coe.mp ha) b (Multiset.mem_coe.mp hb)
    (by simpa using hmatch) _ _

/-- A cut aggregate, evaluated in every instance. -/
theorem FragmentReads.aggregate_parts {scans : List TableScan} {pieces : List Piece}
    (hreads : FragmentReads env ops hash tables n localTables localRemote current scans pieces)
    {piece : Piece} (hpiece : piece ∈ pieces) (htarget : piece.target = current) {agg : Aggregate}
    (hop : piece.operator = .aggregate agg) (hn : 0 < n) (hgroup : agg.groupExpr ≠ [])
    (hmeet : GroupsMeet ops tables agg piece.sourcePlan) {schema : DFSchema} {rows : ℕ → List Row}
    (hrows : ∀ j < n, Evaluates ops (localTables j) (localRemote j)
      (.aggregate { agg with schema := schema }
        (RemoteSourceNode.plan piece.id piece.sourcePlan.schema)) (rows j)) :
    ∃ whole, Evaluates ops tables (fun _ => 0) (.aggregate agg piece.sourcePlan) whole ∧
      (whole : Multiset Row) = ∑ j ∈ range n, (rows j : Multiset Row) := by
  simp only [Evaluates, RemoteSourceNode.plan] at hrows ⊢
  choose! inputRows hinputRows hresult using hrows
  obtain ⟨whole, hwhole, hdelivered⟩ := hreads.pieces piece hpiece htarget
  refine ⟨(agg.rows ops piece.sourcePlan.schema whole).toList,
    ⟨whole, hwhole, Multiset.coe_toList _⟩, ?_⟩
  rw [Multiset.coe_toList, Aggregate.rows_delivered piece hop hn hgroup hmeet hwhole]
  refine Finset.sum_congr rfl fun j hj => ?_
  have hj := Finset.mem_range.mp hj
  rw [hresult j hj, hinputRows j hj, hdelivered j hj]
  rfl

/-- A cut join, evaluated in every instance. -/
theorem FragmentReads.join_parts {scans : List TableScan} {pieces : List Piece}
    (hreads : FragmentReads env ops hash tables n localTables localRemote current scans pieces)
    {pieceLeft pieceRight : Piece} (hpieceLeft : pieceLeft ∈ pieces)
    (hpieceRight : pieceRight ∈ pieces) (htargetLeft : pieceLeft.target = current)
    (htargetRight : pieceRight.target = current) {j : Join}
    (hopLeft : pieceLeft.operator = .joinSide j true)
    (hopRight : pieceRight.operator = .joinSide j false) (hn : 0 < n) (hon : j.onKeys ≠ [])
    (hnull : j.joinType = .leftAnti → j.nullAware = false)
    (hmeet : MatchesMeet ops tables j pieceLeft.sourcePlan pieceRight.sourcePlan)
    {schema : DFSchema} {rows : ℕ → List Row}
    (hrows : ∀ i < n, Evaluates ops (localTables i) (localRemote i)
      (.join { j with schema := schema }
        (RemoteSourceNode.plan pieceLeft.id pieceLeft.sourcePlan.schema)
        (RemoteSourceNode.plan pieceRight.id pieceRight.sourcePlan.schema)) (rows i)) :
    ∃ whole, Evaluates ops tables (fun _ => 0)
        (.join j pieceLeft.sourcePlan pieceRight.sourcePlan) whole ∧
      (whole : Multiset Row) = ∑ i ∈ range n, (rows i : Multiset Row) := by
  simp only [Evaluates, RemoteSourceNode.plan] at hrows ⊢
  choose! leftRows rightRows hleftRows hrightRows hresult using hrows
  obtain ⟨wholeLeft, hwholeLeft, hdeliveredLeft⟩ := hreads.pieces pieceLeft hpieceLeft htargetLeft
  obtain ⟨wholeRight, hwholeRight, hdeliveredRight⟩ :=
    hreads.pieces pieceRight hpieceRight htargetRight
  refine ⟨(j.rows ops pieceLeft.sourcePlan.schema pieceRight.sourcePlan.schema wholeLeft
    wholeRight).toList, ⟨wholeLeft, wholeRight, hwholeLeft, hwholeRight, Multiset.coe_toList _⟩, ?_⟩
  rw [Multiset.coe_toList, Join.rows_delivered pieceLeft pieceRight hopLeft hopRight hn hon hnull
    hmeet hwholeLeft hwholeRight]
  refine Finset.sum_congr rfl fun i hi => ?_
  have hi := Finset.mem_range.mp hi
  rw [hresult i hi, hleftRows i hi, hrightRows i hi, hdeliveredLeft i hi, hdeliveredRight i hi]
  rfl

/-- Several instances of a fragment together return what the plan may return in one piece, if all its
operators can be repeated. -/
theorem Rewrites.evaluatesAll_parts {next : ℕ} {ps qs : List LogicalPlan} {pieces : List Piece}
    (h : Rewrites env current next ps qs pieces) (hps : AllConstructed env.df ps)
    (hsplit : AllSplittable ops tables ps) (hn : 0 < n)
    (hreads : FragmentReads env ops hash tables n localTables localRemote current
      (allFragmentScans ps) pieces)
    {rows : ℕ → List Row}
    (hrows : ∀ j < n, EvaluatesAll ops (localTables j) (localRemote j) qs (rows j)) :
    ∃ whole, EvaluatesAll ops tables (fun _ => 0) ps whole ∧
      (whole : Multiset Row) = ∑ j ∈ range n, (rows j : Multiset Row) := by
  induction h generalizing rows with
  | nil =>
      refine ⟨[], rfl, (Finset.sum_eq_zero fun j hj => ?_).symm⟩
      have hnil : rows j = [] := hrows j (Finset.mem_range.mp hj)
      rw [hnil, Multiset.coe_nil]
  | cons _ _ ihp ihps =>
      simp only [EvaluatesAll] at hrows
      choose! first rest hfirst hrest hrows using hrows
      obtain ⟨wholeFirst, hwholeFirst, hsumFirst⟩ := ihp ⟨hps.1, trivial⟩ ⟨hsplit.1, trivial⟩
        (hreads.mono (by simp [allFragmentScans]) (List.subset_append_left _ _))
        fun j hj => evaluatesAll_singleton.mpr (hfirst j hj)
      obtain ⟨wholeRest, hwholeRest, hsumRest⟩ := ihps hps.2 hsplit.2
        (hreads.mono (List.subset_append_right _ _) (List.subset_append_right _ _)) hrest
      refine ⟨wholeFirst ++ wholeRest,
        ⟨_, _, evaluatesAll_singleton.mp hwholeFirst, hwholeRest, rfl⟩, ?_⟩
      rw [← Multiset.coe_add, hsumFirst, hsumRest, ← Finset.sum_add_distrib]
      refine Finset.sum_congr rfl fun j hj => ?_
      rw [hrows j (Finset.mem_range.mp hj), Multiset.coe_add]
  | @copied _ _ p hcopied =>
      simp only [evaluatesAll_singleton] at hrows ⊢
      cases p with
      | tableScan scan =>
          have hfetch : scan.fetch = none := hsplit.1
          have hscan := hreads.scans scan (by simp [allFragmentScans, fragmentScans])
          simp only [Evaluates, TableScan.Returns, hfetch] at hrows ⊢
          refine ⟨(tables scan).toList, Multiset.coe_toList _, ?_⟩
          rw [Multiset.coe_toList, ← hscan]
          exact Finset.sum_congr rfl fun j hj => (hrows j (Finset.mem_range.mp hj)).symm
      | remoteSource ids schema => exact hsplit.1.elim
      | other node inputs => exact hsplit.1.elim
      | _ => cases hcopied
  | @unary _ _ node node' p q _ hinput hnode ih =>
      obtain ⟨hp, hschema, rfl⟩ := hinput.rebuild_eq hps hnode
      obtain ⟨hrowwise, hsplit⟩ := by
        simpa only [AllSplittable, Splittable, and_true] using hsplit
      simp only [evaluatesAll_singleton, Evaluates, hschema] at hrows ⊢
      choose! inputRows hinputRows hproduces using hrows
      obtain ⟨whole, hwhole, hsum⟩ := ih ⟨hp, trivial⟩ ⟨hsplit, trivial⟩
        (hreads.mono (by simp [allFragmentScans, fragmentScans]) (List.Subset.refl _))
        fun j hj => evaluatesAll_singleton.mpr (hinputRows j hj)
      obtain ⟨result, hresult, hsum⟩ := UnaryNode.produces_of_parts hrowwise hproduces hsum
      exact ⟨result, ⟨whole, evaluatesAll_singleton.mp hwhole, hresult⟩, hsum⟩
  | @union _ _ ps qs schema schema' _ hinputs hunion ih =>
      obtain ⟨hps, -⟩ := by simpa only [AllConstructed, Constructed, and_true] using hps
      simp only [evaluatesAll_singleton, Evaluates] at hrows ⊢
      choose! inputRows hinputRows hperm using hrows
      obtain ⟨whole, hwhole, hsum⟩ := ih hps
        (by simpa only [AllSplittable, Splittable, and_true] using hsplit)
        (hreads.mono (by simp [allFragmentScans, fragmentScans]) (List.Subset.refl _)) hinputRows
      refine ⟨whole, ⟨whole, hwhole, List.Perm.refl whole⟩, hsum.trans ?_⟩
      exact Finset.sum_congr rfl fun j hj =>
        (Multiset.coe_eq_coe.mpr (hperm j (Finset.mem_range.mp hj))).symm
  | @aggregate current next agg input localInput inner splits schema' _ _ _ _ =>
      obtain ⟨hgroup, hmeet⟩ := by simpa only [AllSplittable, Splittable, and_true] using hsplit
      simp only [evaluatesAll_singleton] at hrows ⊢
      let piece : Piece := ⟨next, current, .aggregate agg, input, localInput, splits⟩
      have hpiece : piece ∈ inner ++ [piece] := List.mem_append_right _ List.mem_cons_self
      exact hreads.aggregate_parts hpiece rfl rfl hn hgroup hmeet hrows
  | @join current next j left right localLeft localRight innerLeft innerRight splitsLeft splitsRight
      schema' mid _ _ _ _ _ _ _ _ =>
      obtain ⟨hon, hnull, hmeet⟩ := by
        simpa only [AllSplittable, Splittable, and_true] using hsplit
      simp only [evaluatesAll_singleton] at hrows ⊢
      let pieceLeft : Piece := ⟨next, current, .joinSide j true, left, localLeft, splitsLeft⟩
      let pieceRight : Piece := ⟨mid, current, .joinSide j false, right, localRight, splitsRight⟩
      have hpieceLeft : pieceLeft ∈ innerLeft ++ [pieceLeft] :=
        List.mem_append_right _ List.mem_cons_self
      have hpieceRight : pieceRight ∈ innerRight ++ [pieceRight] :=
        List.mem_append_right _ List.mem_cons_self
      exact hreads.join_parts (List.mem_append_left _ hpieceLeft)
        (List.mem_append_right _ hpieceRight) rfl rfl rfl rfl hn hon hnull hmeet hrows

end Reads

end BrewDB

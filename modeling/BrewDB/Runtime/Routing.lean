import BrewDB.Planner.Constructed
import BrewDB.Runtime.Exchange

/-!
# Where rows go, and whether they can

The planner partitions by the columns it finds inside the key expressions, and the runtime looks them
up again by their bare names. Two things follow from that.

* Rows with equal keys meet only if equal keys determine those columns: for plain columns they do, for
  `a + b` they do not, and the two sides of a join must in addition list columns of the same types.
* A key expression without a column gives a repartition without keys, which the runtime rejects.
-/

namespace BrewDB

/-! ## The target of a row -/

/-- Routing puts the row into the batch for the channel at this position. -/
def SentTo (hash : List TypedCell → ℕ) (channels : List ExchangeChannelDescriptor)
    (batch : RecordBatch) (row : Row) (ordinal : ℕ) : Prop :=
  ∃ out channel routed, routeExchangeBatch hash channels batch = .ok out ∧
    channels[ordinal]? = some channel ∧ (channel, routed) ∈ out ∧ row ∈ routed.rows

/-- The type and value of a row under the first field of this name. -/
def cellNamed (schema : List Field) (row : Row) (name : String) : Option TypedCell :=
  (RecordBatch.indexOf schema name).map fun index => RecordBatch.typedCell schema index row

/-- The cells read by key names are the hashed cells. -/
theorem map_cellNamed {keys : List Column} {schema : List Field} {indices : List ℕ}
    (h : List.Forall₂ (fun key index => RecordBatch.indexOf schema key.name = some index) keys
      indices) (row : Row) :
    keys.map (fun key => cellNamed schema row key.name) =
      (hashedCells schema indices row).map some := by
  induction h with
  | nil => rfl
  | cons hkey _ ih =>
      rw [List.map_cons, ih, cellNamed, hkey]
      rfl

/-- A repartition with resolved keys sends a row to the channel its hash selects, and only there. -/
theorem sentTo_iff {hash : List TypedCell → ℕ} {exchange : ExchangeNode}
    {channels : List ExchangeChannelDescriptor} (h : ChannelsOf exchange channels)
    (htype : exchange.exchangeType = .repartition) {batch : RecordBatch} {indices : List ℕ}
    (hkeys : exchange.partitioningScheme.partitionKeys ≠ [])
    (hindices : partitionIndices exchange.partitioningScheme.partitionKeys batch.schema =
      .ok indices) {row : Row} (hrow : row ∈ batch.rows) (ordinal : ℕ) :
    SentTo hash channels batch row ordinal ↔
      ordinal = hash (hashedCells batch.schema indices row) % channels.length := by
  obtain ⟨first, rest, hchannels⟩ := List.exists_cons_of_ne_nil h.ne_nil
  have hfirst : first ∈ channels := hchannels ▸ List.mem_cons_self
  have hroute : routeExchangeBatch hash channels batch =
      routeRepartitionBatch hash exchange.partitioningScheme.partitionKeys channels batch := by
    conv_lhs => rw [hchannels]
    simp only [routeExchangeBatch, h.exchangeType_eq first hfirst, htype, h.scheme_eq first hfirst,
      hchannels]
  have hempty : exchange.partitioningScheme.partitionKeys.isEmpty = false := by simpa using hkeys
  rw [SentTo, hroute, routeRepartitionBatch, hempty, if_neg Bool.false_ne_true, hindices]
  constructor
  · rintro ⟨out, channel, routed, hout, hchannel, hmem, hsent⟩
    obtain rfl := Except.ok.inj hout
    obtain ⟨⟨channel', ordinal'⟩, hzip, hpart⟩ := List.mem_filterMap.mp hmem
    simp only [Option.ite_none_left_eq_some, Option.some.injEq, Prod.mk.injEq] at hpart
    obtain ⟨-, rfl, rfl⟩ := hpart
    have hordinal : ordinal = ordinal' := by
      have hget := List.mem_zipIdx_iff_getElem?.mp hzip
      exact (List.getElem?_inj (List.getElem?_eq_some_iff.mp hchannel).1 h.nodup).mp
        (hchannel.trans hget.symm)
    rw [hordinal]
    simpa [RecordBatch.filterRows, eq_comm] using (List.mem_filter.mp hsent).2
  · intro hordinal
    have hlt : ordinal < channels.length :=
      hordinal ▸ Nat.mod_lt _ (List.length_pos_iff.mpr h.ne_nil)
    have hkept : row ∈ (batch.filterRows fun row =>
        hash (hashedCells batch.schema indices row) % channels.length = ordinal).rows :=
      List.mem_filter.mpr ⟨hrow, by simp [hordinal]⟩
    refine ⟨_, channels[ordinal], _, rfl, List.getElem?_eq_getElem hlt, ?_, hkept⟩
    refine List.mem_filterMap.mpr ⟨(channels[ordinal], ordinal), ?_, ?_⟩
    · exact List.mem_zipIdx_iff_getElem?.mpr (List.getElem?_eq_getElem hlt)
    · simp only [Option.ite_none_left_eq_some, List.isEmpty_iff, and_true]
      exact List.ne_nil_of_mem hkept

/-! ## When two rows meet -/

/-- For any hash function, any number of target instances and any batches that hold the two rows, both
are sent to the same position, and only there. -/
def MeetAt (exchange₁ exchange₂ : ExchangeNode) (schema₁ schema₂ : List Field) (row₁ row₂ : Row) :
    Prop :=
  ∀ (hash : List TypedCell → ℕ) (channels₁ channels₂ : List ExchangeChannelDescriptor),
    ChannelsOf exchange₁ channels₁ → ChannelsOf exchange₂ channels₂ →
    channels₁.length = channels₂.length →
    ∀ batch₁ batch₂ : RecordBatch, batch₁.schema = schema₁ → batch₂.schema = schema₂ →
      row₁ ∈ batch₁.rows → row₂ ∈ batch₂.rows →
      ∃ ordinal, (∀ o, SentTo hash channels₁ batch₁ row₁ o ↔ o = ordinal) ∧
        ∀ o, SentTo hash channels₂ batch₂ row₂ o ↔ o = ordinal

/-- Both key lists can be routed by, and read the same types and values from the two rows. -/
structure KeysAgree (keys₁ : List Column) (schema₁ : List Field) (row₁ : Row)
    (keys₂ : List Column) (schema₂ : List Field) (row₂ : Row) : Prop where
  ne_nil₁ : keys₁ ≠ []
  ne_nil₂ : keys₂ ≠ []
  named₁ : ∀ key ∈ keys₁, ∃ index, RecordBatch.indexOf schema₁ key.name = some index
  named₂ : ∀ key ∈ keys₂, ∃ index, RecordBatch.indexOf schema₂ key.name = some index
  cells : keys₁.map (fun key => cellNamed schema₁ row₁ key.name) =
    keys₂.map fun key => cellNamed schema₂ row₂ key.name

/-- Channels to `n` target instances. -/
def ExchangeNode.channels (exchange : ExchangeNode) (n : ℕ) : List ExchangeChannelDescriptor :=
  (List.range n).map fun i =>
    { exchangeId := i
      sourceFragmentId := exchange.sourceFragmentId
      targetFragmentId := exchange.targetFragmentId
      sourceInstanceId := 0
      targetInstanceId := i
      sourceWorkerId := 0
      sourceEndpoint := "rpc://worker-0"
      targetWorkerId := 0
      targetEndpoint := "rpc://worker-0"
      scope := exchange.scope
      exchangeType := exchange.exchangeType
      partitioningScheme := exchange.partitioningScheme }

theorem ExchangeNode.length_channels (exchange : ExchangeNode) (n : ℕ) :
    (exchange.channels n).length = n := by
  simp [ExchangeNode.channels]

theorem ExchangeNode.channelsOf (exchange : ExchangeNode) {n : ℕ} (hn : 0 < n) :
    ChannelsOf exchange (exchange.channels n) where
  nodup := by
    refine List.nodup_range.map fun i j h => ?_
    simpa using congrArg ExchangeChannelDescriptor.exchangeId h
  ne_nil := by
    rw [← List.length_pos_iff, exchange.length_channels]
    exact hn
  exchangeType_eq := by
    rintro channel hchannel
    obtain ⟨i, -, rfl⟩ := List.mem_map.mp hchannel
    rfl
  scheme_eq := by
    rintro channel hchannel
    obtain ⟨i, -, rfl⟩ := List.mem_map.mp hchannel
    rfl

/-- A row that is sent somewhere has a non-empty key list whose names are all fields. -/
theorem keys_of_sentTo {hash : List TypedCell → ℕ} {exchange : ExchangeNode}
    {channels : List ExchangeChannelDescriptor} (h : ChannelsOf exchange channels)
    (htype : exchange.exchangeType = .repartition) {batch : RecordBatch} {row : Row} {ordinal : ℕ}
    (hsent : SentTo hash channels batch row ordinal) :
    exchange.partitioningScheme.partitionKeys ≠ [] ∧
      ∀ key ∈ exchange.partitioningScheme.partitionKeys,
        ∃ index, RecordBatch.indexOf batch.schema key.name = some index := by
  obtain ⟨out, -, -, hout, -⟩ := hsent
  exact (routeExchangeBatch_eq_ok_iff h batch).mp ⟨out, hout⟩ htype

/-- Two rows meet exactly when the keys agree on them. -/
theorem meetAt_iff {exchange₁ exchange₂ : ExchangeNode}
    (htype₁ : exchange₁.exchangeType = .repartition)
    (htype₂ : exchange₂.exchangeType = .repartition) (schema₁ schema₂ : List Field)
    (row₁ row₂ : Row) :
    MeetAt exchange₁ exchange₂ schema₁ schema₂ row₁ row₂ ↔
      KeysAgree exchange₁.partitioningScheme.partitionKeys schema₁ row₁
        exchange₂.partitioningScheme.partitionKeys schema₂ row₂ := by
  constructor
  · intro hmeet
    have hmeet' : ∀ hash, ∃ ordinal,
        (∀ o, SentTo hash (exchange₁.channels 2) ⟨schema₁, [row₁]⟩ row₁ o ↔ o = ordinal) ∧
        ∀ o, SentTo hash (exchange₂.channels 2) ⟨schema₂, [row₂]⟩ row₂ o ↔ o = ordinal :=
      fun hash => hmeet hash _ _ (exchange₁.channelsOf Nat.two_pos) (exchange₂.channelsOf Nat.two_pos)
        (by rw [exchange₁.length_channels, exchange₂.length_channels]) _ _ rfl rfl
        List.mem_cons_self List.mem_cons_self
    obtain ⟨ordinal, hsent₁, hsent₂⟩ := hmeet' fun _ => 0
    obtain ⟨hne₁, hnamed₁⟩ :=
      keys_of_sentTo (exchange₁.channelsOf Nat.two_pos) htype₁ ((hsent₁ ordinal).mpr rfl)
    obtain ⟨hne₂, hnamed₂⟩ :=
      keys_of_sentTo (exchange₂.channelsOf Nat.two_pos) htype₂ ((hsent₂ ordinal).mpr rfl)
    obtain ⟨indices₁, hindices₁⟩ := exists_partitionIndices_iff.mpr hnamed₁
    obtain ⟨indices₂, hindices₂⟩ := exists_partitionIndices_iff.mpr hnamed₂
    refine ⟨hne₁, hne₂, hnamed₁, hnamed₂, ?_⟩
    rw [map_cellNamed (partitionIndices_eq_ok.mp hindices₁),
      map_cellNamed (partitionIndices_eq_ok.mp hindices₂)]
    by_contra hne
    -- a hash that tells the two lists apart separates the rows
    obtain ⟨ordinal, hsent₁, hsent₂⟩ :=
      hmeet' fun cells => if cells = hashedCells schema₁ indices₁ row₁ then 0 else 1
    have h₁ := (sentTo_iff (exchange₁.channelsOf Nat.two_pos) htype₁ hne₁ hindices₁
      (List.mem_singleton_self row₁) ordinal).mp ((hsent₁ ordinal).mpr rfl)
    have h₂ := (sentTo_iff (exchange₂.channelsOf Nat.two_pos) htype₂ hne₂ hindices₂
      (List.mem_singleton_self row₂) ordinal).mp ((hsent₂ ordinal).mpr rfl)
    rw [exchange₁.length_channels, if_pos rfl] at h₁
    rw [exchange₂.length_channels, if_neg fun heq => hne (congrArg _ heq.symm)] at h₂
    omega
  · intro hagree hash channels₁ channels₂ hch₁ hch₂ hlen batch₁ batch₂ hb₁ hb₂ hrow₁ hrow₂
    subst hb₁ hb₂
    obtain ⟨indices₁, hindices₁⟩ := exists_partitionIndices_iff.mpr hagree.named₁
    obtain ⟨indices₂, hindices₂⟩ := exists_partitionIndices_iff.mpr hagree.named₂
    have hcells : hashedCells batch₁.schema indices₁ row₁ =
        hashedCells batch₂.schema indices₂ row₂ := by
      have hcells := hagree.cells
      rw [map_cellNamed (partitionIndices_eq_ok.mp hindices₁),
        map_cellNamed (partitionIndices_eq_ok.mp hindices₂)] at hcells
      exact List.map_injective_iff.mpr (Option.some_injective _) hcells
    refine ⟨hash (hashedCells batch₁.schema indices₁ row₁) % channels₁.length, fun o => ?_,
      fun o => ?_⟩
    · exact sentTo_iff hch₁ htype₁ hagree.ne_nil₁ hindices₁ hrow₁ o
    · rw [sentTo_iff hch₂ htype₂ hagree.ne_nil₂ hindices₂ hrow₂ o, hcells, hlen]

/-! ## Equal keys -/

/-- How expressions are evaluated on the rows of a schema. -/
abbrev Evaluator := DFSchema → Expr → Row → Value

/-- The columns referenced in a list of key expressions. -/
def keyColumns (exprs : List Expr) : List Column := exprs.flatMap Expr.columnRefs

/-- The partition keys are the referenced columns, whatever the set order. -/
theorem mem_partitionKeys {order : SetOrder} {exprs : List Expr} {column : Column} :
    column ∈ partitionKeys order exprs ↔ column ∈ keyColumns exprs := by
  simp only [partitionKeys, keyColumns, List.mem_flatMap, SetOrder.mem_iter]
  constructor
  · rintro ⟨⟨expr, i⟩, hexpr, hcolumn⟩
    exact ⟨expr, List.mem_of_getElem? (List.mem_zipIdx_iff_getElem?.mp hexpr), hcolumn⟩
  · rintro ⟨expr, hexpr, hcolumn⟩
    obtain ⟨i, hi⟩ := List.mem_iff_getElem?.mp hexpr
    exact ⟨(expr, i), List.mem_zipIdx_iff_getElem?.mpr hi, hcolumn⟩

theorem partitionKeys_eq_nil_iff {order : SetOrder} {exprs : List Expr} :
    partitionKeys order exprs = [] ↔ keyColumns exprs = [] := by
  simp only [List.eq_nil_iff_forall_not_mem, mem_partitionKeys]

/-- Two rows of one group. -/
def SameGroup (eval : Evaluator) (input : DFSchema) (groupExpr : List Expr) (row₁ row₂ : Row) :
    Prop :=
  RowOf input.asArrow row₁ ∧ RowOf input.asArrow row₂ ∧
    ∀ expr ∈ groupExpr, eval input expr row₁ = eval input expr row₂

/-- Equality of two join key values: a null equals a null only if the join says so. -/
def NullEquality.equalKeys : NullEquality → Value → Value → Prop
  | .nullEqualsNothing, v, w => v = w ∧ v ≠ .null
  | .nullEqualsNull, v, w => v = w

/-- A left and a right row that satisfy every equality of the `ON` list. -/
def SatisfiesOn (eval : Evaluator) (left right : DFSchema) (join : Join) (row₁ row₂ : Row) : Prop :=
  RowOf left.asArrow row₁ ∧ RowOf right.asArrow row₂ ∧
    ∀ key ∈ join.onKeys, join.nullEquality.equalKeys (eval left key.1 row₁) (eval right key.2 row₂)

/-- The grouping expressions reference a column, every reference is a field by its bare name, and the
value under that name is the same throughout a group. -/
structure GroupDeterminesColumns (eval : Evaluator) (input : DFSchema) (groupExpr : List Expr) :
    Prop where
  ne_nil : keyColumns groupExpr ≠ []
  named : ∀ column ∈ keyColumns groupExpr, input.HasName column.name
  determined : ∀ row₁ row₂, SameGroup eval input groupExpr row₁ row₂ →
    ∀ column ∈ keyColumns groupExpr,
      cellNamed input.asArrow row₁ column.name = cellNamed input.asArrow row₂ column.name

theorem groupDeterminesColumns_iff {eval : Evaluator} {input : DFSchema} {groupExpr : List Expr}
    {order : SetOrder} :
    GroupDeterminesColumns eval input groupExpr ↔
      ∀ row₁ row₂, SameGroup eval input groupExpr row₁ row₂ →
        KeysAgree (partitionKeys order groupExpr) input.asArrow row₁
          (partitionKeys order groupExpr) input.asArrow row₂ := by
  constructor
  · intro h row₁ row₂ hrows
    have hne : partitionKeys order groupExpr ≠ [] := fun hnil =>
      h.ne_nil (partitionKeys_eq_nil_iff.mp hnil)
    have hnamed : ∀ key ∈ partitionKeys order groupExpr,
        ∃ index, RecordBatch.indexOf input.asArrow key.name = some index := fun key hkey =>
      RecordBatch.exists_indexOf_iff.mpr (h.named key (mem_partitionKeys.mp hkey))
    refine ⟨hne, hne, hnamed, hnamed, List.map_congr_left fun key hkey => ?_⟩
    exact h.determined row₁ row₂ hrows key (mem_partitionKeys.mp hkey)
  · intro h
    obtain ⟨row, hrow⟩ := exists_rowOf input.asArrow
    have hself := h row row ⟨hrow, hrow, fun _ _ => rfl⟩
    refine ⟨fun hnil => hself.ne_nil₁ (partitionKeys_eq_nil_iff.mpr hnil), fun column hcolumn => ?_,
      fun row₁ row₂ hrows column hcolumn => ?_⟩
    · exact RecordBatch.exists_indexOf_iff.mp (hself.named₁ column (mem_partitionKeys.mpr hcolumn))
    · exact List.map_inj_left.mp (h row₁ row₂ hrows).cells column (mem_partitionKeys.mpr hcolumn)

/-- Grouping by plain columns is fine as long as the bare name of each finds the field that evaluation
reads. -/
theorem groupDeterminesColumns_of_columns {eval : Evaluator} {input : DFSchema}
    (columns : List Column) (hne : columns ≠ [])
    (heval : ∀ column ∈ columns, ∃ index,
      RecordBatch.indexOf input.asArrow column.name = some index ∧
      ∀ row, eval input (.column column) row = row.getD index .null) :
    GroupDeterminesColumns eval input (columns.map .column) := by
  have hcolumns : keyColumns (columns.map .column) = columns := by
    simp [keyColumns, Expr.columnRefs, Expr.columnOccurrences, List.flatMap_map]
  refine ⟨by rwa [hcolumns], fun column hcolumn => ?_, fun row₁ row₂ hrows column hcolumn => ?_⟩
  · rw [hcolumns] at hcolumn
    obtain ⟨index, hindex, -⟩ := heval column hcolumn
    exact RecordBatch.exists_indexOf_iff.mp ⟨index, hindex⟩
  · rw [hcolumns] at hcolumn
    obtain ⟨index, hindex, hvalue⟩ := heval column hcolumn
    have hequal := hrows.2.2 (.column column) (List.mem_map_of_mem hcolumn)
    rw [hvalue, hvalue] at hequal
    rw [cellNamed, cellNamed, hindex, Option.map_some, Option.map_some, RecordBatch.typedCell,
      RecordBatch.typedCell, hequal]

/-- The key columns of the two sides agree on every pair of rows that satisfies the `ON` list. -/
def OnKeysAgree (eval : Evaluator) (orderLeft orderRight : SetOrder) (left right : DFSchema)
    (join : Join) : Prop :=
  ∀ row₁ row₂, SatisfiesOn eval left right join row₁ row₂ →
    KeysAgree (partitionKeys orderLeft (join.onKeys.map Prod.fst)) left.asArrow row₁
      (partitionKeys orderRight (join.onKeys.map Prod.snd)) right.asArrow row₂

/-- Rows of one group meet exactly when the group determines the referenced columns, and rows that
satisfy a join's `ON` list meet exactly when its key columns agree on them. -/
theorem equalKeysMeet_iff (eval : Evaluator) :
    (∀ (order : SetOrder) (aggregate : Aggregate) (input : DFSchema), aggregate.groupExpr ≠ [] →
      ((∀ row₁ row₂, SameGroup eval input aggregate.groupExpr row₁ row₂ →
          MeetAt (exchangeForAggregate order aggregate.groupExpr)
            (exchangeForAggregate order aggregate.groupExpr) input.asArrow input.asArrow row₁ row₂) ↔
        GroupDeterminesColumns eval input aggregate.groupExpr)) ∧
    (∀ (orderLeft orderRight : SetOrder) (join : Join) (left right : DFSchema), join.onKeys ≠ [] →
      ((∀ row₁ row₂, SatisfiesOn eval left right join row₁ row₂ →
          MeetAt (exchangeForJoinSide orderLeft join true)
            (exchangeForJoinSide orderRight join false) left.asArrow right.asArrow row₁ row₂) ↔
        OnKeysAgree eval orderLeft orderRight left right join)) := by
  constructor
  · intro order aggregate input hne
    have hexchange : exchangeForAggregate order aggregate.groupExpr =
        .repartition 0 0 (.hash (partitionKeys order aggregate.groupExpr)) := by
      simp [exchangeForAggregate, hne]
    rw [hexchange, groupDeterminesColumns_iff]
    exact forall₃_congr fun row₁ row₂ _ => meetAt_iff rfl rfl _ _ row₁ row₂
  · intro orderLeft orderRight join left right hne
    have hleft : exchangeForJoinSide orderLeft join true =
        .repartition 0 0 (.hash (partitionKeys orderLeft (join.onKeys.map Prod.fst))) := by
      simp [exchangeForJoinSide, hne]
    have hright : exchangeForJoinSide orderRight join false =
        .repartition 0 0 (.hash (partitionKeys orderRight (join.onKeys.map Prod.snd))) := by
      simp [exchangeForJoinSide, hne]
    rw [hleft, hright]
    exact forall₃_congr fun row₁ row₂ _ => meetAt_iff rfl rfl _ _ row₁ row₂

/-- The basic evaluation of expressions. -/
def Sample.eval : Evaluator := fun schema expr row => expr.evaluate schema row

/-- Rows of one group of `GROUP BY id` meet. -/
theorem equalKeysMeet_groupById : ∀ row₁ row₂,
    SameGroup Sample.eval Sample.scanOrders.schema Sample.groupById.groupExpr row₁ row₂ →
    MeetAt (exchangeForAggregate .listed Sample.groupById.groupExpr)
      (exchangeForAggregate .listed Sample.groupById.groupExpr)
      Sample.scanOrders.schema.asArrow Sample.scanOrders.schema.asArrow row₁ row₂ := by
  refine ((equalKeysMeet_iff Sample.eval).1 .listed Sample.groupById Sample.scanOrders.schema
    (List.cons_ne_nil _ _)).mpr ?_
  exact groupDeterminesColumns_of_columns [⟨some (.bare "orders"), "id"⟩] (List.cons_ne_nil _ _)
    (List.forall_mem_singleton.mpr ⟨0, rfl, fun row => rfl⟩)

/-- Under `GROUP BY id + amount` the rows `(1, 2)` and `(2, 1)` are in one group and need not meet. -/
theorem not_meetAt_sum :
    SameGroup Sample.eval Sample.scanOrders.schema
      [.binaryExpr (Sample.ordersColumn "id") .plus (Sample.ordersColumn "amount")]
      [.integer 1, .integer 2] [.integer 2, .integer 1] ∧
    ¬ MeetAt
      (exchangeForAggregate .listed
        [.binaryExpr (Sample.ordersColumn "id") .plus (Sample.ordersColumn "amount")])
      (exchangeForAggregate .listed
        [.binaryExpr (Sample.ordersColumn "id") .plus (Sample.ordersColumn "amount")])
      Sample.scanOrders.schema.asArrow Sample.scanOrders.schema.asArrow
      [.integer 1, .integer 2] [.integer 2, .integer 1] := by
  constructor
  · exact ⟨.cons rfl (.cons rfl .nil), .cons rfl (.cons rfl .nil),
      List.forall_mem_singleton.mpr rfl⟩
  · rw [meetAt_iff rfl rfl]
    intro hagree
    exact absurd hagree.cells (by decide)

/-! ## Routable exchanges -/

/-- The key expressions of a cut operator on the side of the cut. -/
def CutOperator.keyExprs : CutOperator → List Expr
  | .aggregate agg => agg.groupExpr
  | .joinSide join left => join.onKeys.map fun key => if left then key.1 else key.2

/-- Every batch of a source fragment's schema can be routed through its exchange: a repartition has a
key, and each key names a column of the batch. -/
def Routable (plan : DistributedFragmentPlan) : Prop :=
  ∀ exchange ∈ plan.exchanges, ∀ source ∈ plan.fragments,
    source.fragmentId = exchange.sourceFragmentId →
    ∀ localPlan, source.localPlan = some localPlan →
    ∀ batch : RecordBatch, batch.schema = localPlan.schema.asArrow →
      (∀ hash channels, ChannelsOf exchange channels →
        ∃ out, routeExchangeBatch hash channels batch = .ok out) ∧
      (exchange.exchangeType = .repartition →
        exchange.partitioningScheme.partitionKeys ≠ [] ∧
        ∀ key ∈ exchange.partitioningScheme.partitionKeys,
          ∃ field ∈ batch.schema, field.name = key.name)

/-- The key expressions of a cut operator are absent, or they reference a column and each reference
names a column of the input. -/
def KeysRoutable (cut : CutOperator × LogicalPlan) : Prop :=
  cut.1.keyExprs = [] ∨
    (keyColumns cut.1.keyExprs ≠ [] ∧
      ∀ column ∈ keyColumns cut.1.keyExprs, cut.2.schema.HasName column.name)

/-- Without key expressions the exchange is no repartition; with them it is one by their columns. -/
theorem CutOperator.exchange_eq (order : SetOrder) (op : CutOperator) :
    (op.keyExprs = [] ∧ (op.exchange order).exchangeType ≠ .repartition) ∨
      (op.keyExprs ≠ [] ∧ op.exchange order =
        .repartition 0 0 (.hash (partitionKeys order op.keyExprs))) := by
  cases op with
  | aggregate agg =>
      by_cases h : agg.groupExpr = []
      · left
        simp [keyExprs, exchange, exchangeForAggregate, h, ExchangeNode.gather]
      · right
        simp [keyExprs, exchange, exchangeForAggregate, h]
  | joinSide join left =>
      by_cases h : join.onKeys = []
      · left
        simp [keyExprs, exchange, exchangeForJoinSide, h, ExchangeNode.replicate]
      · right
        simp [keyExprs, exchange, exchangeForJoinSide, h]

/-- With key expressions, the exchange of a piece is a repartition by their columns. -/
theorem Piece.exchange_of_keyExprs (env : PlannerEnv) (piece : Piece)
    (h : piece.operator.keyExprs ≠ []) :
    (piece.exchange env).exchangeType = .repartition ∧
      (piece.exchange env).partitioningScheme.partitionKeys =
        partitionKeys (env.order piece.id) piece.operator.keyExprs := by
  rcases piece.operator.exchange_eq (env.order piece.id) with ⟨hkeys, -⟩ | ⟨-, hexchange⟩
  · exact absurd hkeys h
  · rw [Piece.exchange, hexchange]
    exact ⟨rfl, rfl⟩

/-- The keys of a piece's exchange resolve in its source plan's schema exactly when its cut is
routable. -/
theorem Piece.keysRoutable_iff (env : PlannerEnv) (piece : Piece) :
    ((piece.exchange env).exchangeType = .repartition →
        (piece.exchange env).partitioningScheme.partitionKeys ≠ [] ∧
        ∀ key ∈ (piece.exchange env).partitioningScheme.partitionKeys,
          ∃ field ∈ piece.sourcePlan.schema.asArrow, field.name = key.name) ↔
      KeysRoutable (piece.operator, piece.sourcePlan) := by
  rcases piece.operator.exchange_eq (env.order piece.id) with ⟨hkeys, htype⟩ | ⟨hkeys, -⟩
  · exact iff_of_true (fun h => absurd h htype) (Or.inl hkeys)
  · obtain ⟨htype, hpartition⟩ := piece.exchange_of_keyExprs env hkeys
    rw [hpartition, KeysRoutable, or_iff_right hkeys, ne_eq, partitionKeys_eq_nil_iff]
    simp only [htype, forall_const, mem_partitionKeys]
    rfl

/-- The exchanges of a legal plan are routable exactly when the keys of every cut are. -/
theorem routable_iff {env : PlannerEnv} {p : LogicalPlan} {plan : DistributedFragmentPlan}
    (h : build env p = .ok plan) (hp : p.Constructed env.df) :
    Routable plan ↔ ∀ cut ∈ p.cuts, KeysRoutable cut := by
  obtain ⟨r⟩ := build_spec h
  have hcuts : (∀ cut ∈ p.cuts, KeysRoutable cut) ↔
      ∀ piece ∈ r.pieces, KeysRoutable (piece.operator, piece.sourcePlan) := by
    rw [← r.map_cut, List.forall_mem_map]
  rw [hcuts]
  constructor
  · intro hroutable piece hpiece
    have hbatch := hroutable (piece.exchange env) (r.mem_exchanges.mpr ⟨piece, hpiece, rfl⟩)
      piece.fragment (r.mem_fragments.mpr (Or.inr ⟨piece, hpiece, rfl⟩)) rfl piece.localPlan rfl
      ⟨piece.sourcePlan.schema.asArrow, []⟩ (by rw [r.localPlan_schema hp hpiece])
    exact (piece.keysRoutable_iff env).mp hbatch.2
  · intro hpieces exchange hexchange source hsource hid localPlan hlocal batch hbatch
    obtain ⟨piece, hpiece, rfl⟩ := r.mem_exchanges.mp hexchange
    obtain rfl : source = piece.fragment :=
      List.inj_on_of_nodup_map r.fragmentIds_nodup hsource
        (r.mem_fragments.mpr (Or.inr ⟨piece, hpiece, rfl⟩)) hid
    obtain rfl := Option.some.inj hlocal
    rw [r.localPlan_schema hp hpiece] at hbatch
    have hkeys := (piece.keysRoutable_iff env).mpr (hpieces piece hpiece)
    rw [← hbatch] at hkeys
    refine ⟨fun hash channels hchannels => ?_, hkeys⟩
    rw [routeExchangeBatch_eq_ok_iff hchannels]
    simpa only [RecordBatch.exists_indexOf_iff] using hkeys

/-- `GROUP BY id` can be routed. -/
theorem routable_groupById : ∃ plan,
    build Sample.env (.aggregate Sample.groupById Sample.scanOrders) = .ok plan ∧ Routable plan := by
  obtain ⟨plan, h⟩ : ∃ plan,
      build Sample.env (.aggregate Sample.groupById Sample.scanOrders) = .ok plan := ⟨_, rfl⟩
  refine ⟨plan, h, (routable_iff h ⟨trivial, rfl⟩).mpr ?_⟩
  show ∀ cut ∈ [(CutOperator.aggregate Sample.groupById, Sample.scanOrders)], KeysRoutable cut
  refine List.forall_mem_singleton.mpr (Or.inr ⟨List.cons_ne_nil _ _, ?_⟩)
  show ∀ column ∈ [Column.mk (some (.bare "orders")) "id"],
    Sample.scanOrders.schema.HasName column.name
  exact List.forall_mem_singleton.mpr ⟨_, List.mem_cons_self, rfl⟩

/-- `GROUP BY 1` with the literal 1 as its only key. -/
def Sample.groupByLiteral : Aggregate where
  groupExpr := [.literal (.integer 1)]
  aggrExpr := []
  schema := ⟨[(none, ⟨"Int64(1)", .int64, false⟩)]⟩

/-- Grouping by a constant is planned as a repartition without keys, which no batch gets through. -/
theorem not_routable_groupByLiteral : ∃ plan,
    (LogicalPlan.aggregate Sample.groupByLiteral Sample.scanOrders).Constructed Sample.env.df ∧
    build Sample.env (.aggregate Sample.groupByLiteral Sample.scanOrders) = .ok plan ∧
    ¬ Routable plan := by
  refine ⟨_, ⟨trivial, rfl⟩, rfl, fun hroutable => ?_⟩
  have hbatch := hroutable _ List.mem_cons_self _ (List.mem_cons_of_mem _ List.mem_cons_self) rfl
    _ rfl ⟨_, []⟩ rfl
  exact (hbatch.2 rfl).1 rfl

end BrewDB

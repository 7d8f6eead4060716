import BrewDB.Common.Bag
import BrewDB.Runtime.Routing

/-!
# Routed batches

Reference: `route_exchange_batch` and `route_repartition_batch` of
`brewdb-execution/src/runtime/exchange.rs`.

Gathering and replicating hand the whole batch to every channel. A repartition filters the batch once for
each channel; the filters are the classes of the rows by their hash, so that together they are the batch.
-/

namespace BrewDB

/-- The channel a row is meant for: its hash, modulo the number of channels. -/
def rowOrdinal (hash : List TypedCell → ℕ) (schema : List Field) (indices : List ℕ) (channels : ℕ)
    (row : Row) : ℕ :=
  hash (hashedCells schema indices row) % channels

/-- The batch, dealt out by a channel ordinal for each row. -/
structure DealsOut (ordinal : Row → ℕ) (channels : List ExchangeChannelDescriptor) (batch : RecordBatch)
    (out : List (ExchangeChannelDescriptor × RecordBatch)) : Prop where
  /-- Each routed batch holds exactly the rows of its channel, in their order, and is not empty. The channels
  are listed in order, and none is missing that a row is meant for. -/
  parts : ∃ ordinals : List ℕ, ordinals.Pairwise (· < ·) ∧ (∀ row ∈ batch.rows, ordinal row ∈ ordinals) ∧
    List.Forall₂ (fun j (part : ExchangeChannelDescriptor × RecordBatch) =>
      channels[j]? = some part.1 ∧ part.2.schema = batch.schema ∧
      part.2.rows = batch.rows.filter (ordinal · = j) ∧ part.2.rows ≠ []) ordinals out
  perm : (out.flatMap (·.2.rows)).Perm batch.rows
  single : channels.length = 1 → out.flatMap (·.2.rows) = batch.rows

/-- The rows of one channel, if there are any. -/
def routedPart (ordinal : Row → ℕ) (batch : RecordBatch) (channel : ExchangeChannelDescriptor × ℕ) :
    Option (ExchangeChannelDescriptor × RecordBatch) :=
  let routed := batch.filterRows fun row => ordinal row = channel.2
  if routed.rows.isEmpty then none else some (channel.1, routed)

section Dealing

variable {ordinal : Row → ℕ} {batch : RecordBatch}

theorem routedPart_eq_none {channel : ExchangeChannelDescriptor × ℕ}
    (h : batch.rows.filter (ordinal · = channel.2) = []) : routedPart ordinal batch channel = none := by
  have hempty : (batch.filterRows fun row => ordinal row = channel.2).rows = [] := h
  rw [routedPart, hempty]
  rfl

theorem routedPart_eq_some {channel : ExchangeChannelDescriptor × ℕ}
    (h : batch.rows.filter (ordinal · = channel.2) ≠ []) :
    routedPart ordinal batch channel = some (channel.1, batch.filterRows fun row => ordinal row = channel.2) := by
  have hsome : (batch.filterRows fun row => ordinal row = channel.2).rows ≠ [] := h
  rw [routedPart, if_neg (by simpa using hsome)]

/-- Leaving out the empty parts leaves out no rows. -/
theorem flatMap_routedPart (channels : List (ExchangeChannelDescriptor × ℕ)) :
    (channels.filterMap (routedPart ordinal batch)).flatMap (·.2.rows) =
      (channels.map Prod.snd).flatMap fun j => batch.rows.filter (ordinal · = j) := by
  induction channels with
  | nil => rfl
  | cons channel channels ih =>
      rw [List.map_cons, List.flatMap_cons, ← ih]
      by_cases hrows : batch.rows.filter (ordinal · = channel.2) = []
      · rw [List.filterMap_cons_none (routedPart_eq_none hrows), hrows, List.nil_append]
      · rw [List.filterMap_cons_some (routedPart_eq_some hrows), List.flatMap_cons]
        rfl

/-- The ordinals of the channels that get rows. -/
theorem forall₂_routedPart (channels : List (ExchangeChannelDescriptor × ℕ)) :
    List.Forall₂ (fun j (part : ExchangeChannelDescriptor × RecordBatch) =>
      (part.1, j) ∈ channels ∧ part.2.schema = batch.schema ∧
      part.2.rows = batch.rows.filter (ordinal · = j) ∧ part.2.rows ≠ [])
      ((channels.map Prod.snd).filter fun j => batch.rows.filter (ordinal · = j) ≠ [])
      (channels.filterMap (routedPart ordinal batch)) := by
  induction channels with
  | nil => exact .nil
  | cons channel channels ih =>
      have hrest := ih.imp fun j part h => And.imp_left (List.mem_cons_of_mem channel) h
      rw [List.map_cons]
      by_cases hrows : batch.rows.filter (ordinal · = channel.2) = []
      · rw [List.filterMap_cons_none (routedPart_eq_none hrows), List.filter_cons_of_neg (by simpa using hrows)]
        exact hrest
      · rw [List.filterMap_cons_some (routedPart_eq_some hrows), List.filter_cons_of_pos (by simpa using hrows)]
        exact .cons ⟨List.mem_cons_self, rfl, rfl, hrows⟩ hrest

/-- Filtering the batch for each channel deals it out. -/
theorem dealsOut_filterMap {channels : List ExchangeChannelDescriptor}
    (h : ∀ row ∈ batch.rows, ordinal row < channels.length) :
    DealsOut ordinal channels batch (channels.zipIdx.filterMap (routedPart ordinal batch)) := by
  have hordinals : channels.zipIdx.map Prod.snd = List.range channels.length := by
    rw [List.zipIdx_map_snd, List.range_eq_range']
  have hflat : (channels.zipIdx.filterMap (routedPart ordinal batch)).flatMap (·.2.rows) =
      (List.range channels.length).flatMap fun j => batch.rows.filter (ordinal · = j) := by
    rw [flatMap_routedPart, hordinals]
  refine ⟨⟨_, ?_, ?_, (forall₂_routedPart channels.zipIdx).imp fun j part hpart => ?_⟩, ?_, fun hsingle => ?_⟩
  · rw [hordinals]
    exact List.pairwise_lt_range.filter _
  · intro row hrow
    rw [hordinals, List.mem_filter, List.mem_range]
    refine ⟨h row hrow, ?_⟩
    rw [decide_eq_true_eq]
    exact List.ne_nil_of_mem (List.mem_filter.mpr ⟨hrow, by simp⟩)
  · exact ⟨List.mem_zipIdx_iff_getElem?.mp hpart.1, hpart.2⟩
  · rw [hflat]
    exact Bag.perm_flatMap_filter_class _ _ _ h
  · rw [hflat, hsingle, List.range_one, List.flatMap_singleton, List.filter_eq_self]
    intro row hrow
    have hlt := h row hrow
    rw [decide_eq_true_eq]
    omega

end Dealing

/-- Gathering and replicating give each channel the whole batch. A repartition by columns of the batch deals
its rows out by their hash; without keys it is refused. -/
theorem routeExchangeBatch_routes (hash : List TypedCell → ℕ) (first : ExchangeChannelDescriptor)
    (rest : List ExchangeChannelDescriptor) (batch : RecordBatch) :
    (first.exchangeType = .gather ∨ first.exchangeType = .replicate →
      routeExchangeBatch hash (first :: rest) batch = .ok ((first :: rest).map fun channel => (channel, batch))) ∧
    (first.exchangeType = .repartition → first.partitioningScheme.partitionKeys = [] →
      routeExchangeBatch hash (first :: rest) batch =
        .error (.invalidExchangeRouting "repartition exchange requires at least one partition key")) ∧
    (first.exchangeType = .repartition → first.partitioningScheme.partitionKeys ≠ [] →
      (∀ key ∈ first.partitioningScheme.partitionKeys, ∃ field ∈ batch.schema, field.name = key.name) →
      ∃ indices out, partitionIndices first.partitioningScheme.partitionKeys batch.schema = .ok indices ∧
        routeExchangeBatch hash (first :: rest) batch = .ok out ∧
        DealsOut (rowOrdinal hash batch.schema indices (first :: rest).length) (first :: rest) batch out) := by
  refine ⟨?_, fun htype hkeys => ?_, fun htype hkeys hnamed => ?_⟩
  · rintro (htype | htype)
    · simp only [routeExchangeBatch, htype]
    · simp only [routeExchangeBatch, htype]
  · simp only [routeExchangeBatch, htype, routeRepartitionBatch, hkeys, List.isEmpty_nil, if_true]
  · obtain ⟨indices, hindices⟩ := exists_partitionIndices_iff.mpr fun key hkey =>
      RecordBatch.exists_indexOf_iff.mpr (hnamed key hkey)
    refine ⟨indices, _, hindices, ?_, dealsOut_filterMap fun row _ => Nat.mod_lt _ (Nat.succ_pos _)⟩
    have hempty : first.partitioningScheme.partitionKeys.isEmpty = false := by simpa using hkeys
    simp only [routeExchangeBatch, htype, routeRepartitionBatch, hempty, Bool.false_eq_true, if_false, hindices]
    rfl

/-- Four rows, dealt out to three channels by the hash of `id`. -/
def Sample.idBatch : RecordBatch :=
  ⟨[⟨"id", .int64, false⟩], [[.integer 1], [.integer 2], [.integer 4], [.integer 1]]⟩

def Sample.idHash (cells : List TypedCell) : ℕ :=
  match cells with
  | [(_, .integer id)] => id.toNat
  | _ => 0

def Sample.byId : ExchangeNode := .repartition 0 1 (.hash [⟨none, "id"⟩])

theorem routeExchangeBatch_routes_ids :
    ∃ indices out, partitionIndices [⟨none, "id"⟩] Sample.idBatch.schema = .ok indices ∧
      routeExchangeBatch Sample.idHash (Sample.byId.channels 3) Sample.idBatch = .ok out ∧
      DealsOut (rowOrdinal Sample.idHash Sample.idBatch.schema indices 3) (Sample.byId.channels 3)
        Sample.idBatch out := by
  have hchannels := Sample.byId.channelsOf (show 0 < 3 by decide)
  have hlength := Sample.byId.length_channels 3
  obtain ⟨first, rest, heq⟩ := List.exists_cons_of_ne_nil hchannels.ne_nil
  rw [heq] at hchannels hlength ⊢
  have htype := hchannels.exchangeType_eq first List.mem_cons_self
  have hscheme := hchannels.scheme_eq first List.mem_cons_self
  have hroutes := (routeExchangeBatch_routes Sample.idHash first rest Sample.idBatch).2.2 htype
  rw [hscheme, hlength] at hroutes
  exact hroutes (List.cons_ne_nil _ _) (by decide)

end BrewDB

import BrewDB.Execution.Invariants
import BrewDB.Execution.Query

/-!
# Queries that share a worker

Reference: `ExchangeBufferManager` of `brewdb-execution/src/runtime/exchange.rs`, one for each
`LocalFragmentExecutor`.

The manager outlives the queries and is keyed by channel ids alone, which every query numbers from 0.
Whatever reaches an instance through a channel id comes from an instance that has a channel of the
same id: pages from their senders, and refusals from whoever took the receiver.
-/

namespace BrewDB

open Mpsc Transition

variable {ι : Type} [DecidableEq ι] {codec : IpcCodec}

/-! ## Where things come from -/

section Provenance

variable {N : Network ι} {st st' : ExecState ι codec}

/-- Queued pages were queued before, or are sent in this step. -/
theorem Move.queue_cases (h : Move N st st') {id : ExchangeId} {item : ι × ExchangeDataPage codec}
    (hitem : item ∈ (st'.manager.entry id).queue) :
    item ∈ (st.manager.entry id).queue ∨ (st.phase item.1).SendsTo id := by
  have hrelease : ∀ {u : ι} {st₁ : ExecState ι codec},
      item ∈ ((st₁.release N u).manager.entry id).queue →
      item ∈ (st₁.manager.entry id).queue := by
    intro u st₁ hitem
    rw [ExecState.entry_release] at hitem
    split at hitem
    · cases hitem
    · exact hitem
  -- a channel is replaced by one with some of its pages
  have hput : ∀ {id' : ExchangeId} {buffer : Buffer (ι × ExchangeDataPage codec)},
      (item ∈ buffer.queue → item ∈ (st.manager.entry id').queue ∨ (st.phase item.1).SendsTo id') →
      item ∈ ((st.manager.put id' buffer).entry id).queue →
      item ∈ (st.manager.entry id).queue ∨ (st.phase item.1).SendsTo id := by
    intro id' buffer hbuffer hitem
    rw [ExchangeBufferManager.entry_put] at hitem
    split at hitem
    next heq =>
      subst heq
      exact hbuffer hitem
    next => exact .inl hitem
  have hcons : ∀ {id' : ExchangeId} {first : ι × ExchangeDataPage codec}
      {queue : List (ι × ExchangeDataPage codec)},
      st.manager.entry id' = ⟨first :: queue, .taken⟩ →
      item ∈ queue → item ∈ (st.manager.entry id').queue ∨ (st.phase item.1).SendsTo id' := by
    intro id' first queue hentry hitem
    rw [hentry]
    exact .inl (List.mem_cons_of_mem _ hitem)
  cases h with
  | idle _ => exact .inl hitem
  | wait _ _ _ => exact .inl hitem
  | route _ _ => exact .inl hitem
  | finishOutput _ => exact .inl hitem
  | take _ _ _ _ =>
      refine hput (fun hmem => ?_) hitem
      exact .inl hmem
  | receiveData _ _ hentry _ _ => exact hput (hcons hentry) hitem
  | receiveEos _ _ hentry _ =>
      rw [ExecState.manager_setPhase, ExchangeBufferManager.dropReceiver,
        ExchangeBufferManager.entry_put] at hitem
      split at hitem
      · cases hitem
      · exact hput (hcons hentry) hitem
  | receiveGarbled _ _ hentry _ _ => exact hput (hcons hentry) (hrelease hitem)
  | yieldBatch _ _ => exact .inl hitem
  | dropStream _ _ => exact hput (fun hmem => absurd hmem List.not_mem_nil) hitem
  | @send u id' batch routed hphase _ =>
      refine hput (fun hmem => ?_) hitem
      rcases List.mem_append.mp hmem with hold | hnew
      · exact .inl hold
      · obtain rfl := List.mem_singleton.mp hnew
        exact .inr (.inl ⟨batch, routed, hphase⟩)
  | @close u id' ids hphase _ =>
      refine hput (fun hmem => ?_) hitem
      rcases List.mem_append.mp hmem with hold | hnew
      · exact .inl hold
      · obtain rfl := List.mem_singleton.mp hnew
        exact .inr (.inr ⟨ids, hphase⟩)
  | finish _ => exact .inl (hrelease hitem)
  | fail _ => exact .inl (hrelease hitem)
  | takeRefused _ _ _ _ => exact .inl (hrelease hitem)
  | sendRefused _ _ => exact .inl (hrelease hitem)

/-- Received pages were received before, or were queued for an open stream. -/
theorem Move.received_cases (h : Move N st st') {t : ι} {id : ExchangeId}
    {item : ι × ExchangeDataPage codec} (hitem : item ∈ st'.received t id) :
    item ∈ st.received t id ∨
      (item ∈ (st.manager.entry id).queue ∧ st.stream t id = .opened []) := by
  have hupdate : ∀ {u : ι} {id' : ExchangeId} {first : ι × ExchangeDataPage codec}
      {queue : List (ι × ExchangeDataPage codec)},
      st.manager.entry id' = ⟨first :: queue, .taken⟩ → st.stream u id' = .opened [] →
      item ∈ update₂ st.received u id' (st.received u id' ++ [first]) t id →
      item ∈ st.received t id ∨
        (item ∈ (st.manager.entry id).queue ∧ st.stream t id = .opened []) := by
    intro u id' first queue hentry hstream hitem
    by_cases heq : t = u ∧ id = id'
    · obtain ⟨rfl, rfl⟩ := heq
      rw [update₂_self, List.mem_append, List.mem_singleton] at hitem
      rcases hitem with hold | rfl
      · exact .inl hold
      · exact .inr ⟨by simp [hentry], hstream⟩
    · rw [update₂, if_neg heq] at hitem
      exact .inl hitem
  cases h with
  | receiveData _ hstream hentry _ _ => exact hupdate hentry hstream hitem
  | receiveEos _ hstream hentry _ => exact hupdate hentry hstream hitem
  | receiveGarbled _ hstream hentry _ _ => exact hupdate hentry hstream hitem
  | _ => exact .inl hitem

/-- A receiver was taken before, or is taken by an instance with such an input. -/
theorem Move.taker_cases (h : Move N st st') {id : ExchangeId} {u : ι}
    (htaker : st'.taker id = some u) : st.taker id = some u ∨ id ∈ N.inputs u := by
  cases h with
  | @take t id' _ hinput _ _ =>
      by_cases heq : id = id'
      · subst heq
        obtain rfl : t = u := by simpa using htaker
        exact .inr hinput
      · exact .inl (by simpa [heq] using htaker)
  | _ => exact .inl htaker

/-- Everything that reaches an instance through a channel comes from the ends of channels of the same
id. -/
structure Traced (N : Network ι) (st : ExecState ι codec) : Prop where
  exec : ExecInv N st
  queue : ∀ {id item}, item ∈ (st.manager.entry id).queue → id ∈ N.outputIds item.1
  received : ∀ {t id item}, item ∈ st.received t id → id ∈ N.inputs t ∧ id ∈ N.outputIds item.1
  taker : ∀ {id u}, st.taker id = some u → id ∈ N.inputs u
  taken : ∀ {t id u}, st.phase t = .failed (.receiverAlreadyTaken id (some u)) →
    id ∈ N.inputs t ∧ id ∈ N.inputs u
  closed : ∀ {t id u}, st.phase t = .failed (.receiverClosed id (some u)) →
    id ∈ N.outputIds t ∧ id ∈ N.inputs u

namespace Traced

omit [DecidableEq ι] in
theorem init (N : Network ι) :
    Traced N (ExecState.init (.default : ExchangeBufferManager ι codec)) where
  exec := .init N _
  queue h := nomatch h
  received h := nomatch h
  taker h := nomatch h
  taken h := nomatch h
  closed h := nomatch h

/-- A move keeps track. -/
theorem move (hinv : Traced N st) (h : Move N st st') : Traced N st' where
  exec := hinv.exec.move h
  queue hitem := by
    rcases h.queue_cases hitem with hold | hsends
    · exact hinv.queue hold
    · exact hinv.exec.mem_outputIds_of_sendsTo hsends
  received {t id item} hitem := by
    rcases h.received_cases hitem with hold | ⟨hqueue, hstream⟩
    · exact hinv.received hold
    · exact ⟨hinv.exec.opened_input t id (by simp [hstream]), hinv.queue hqueue⟩
  taker {id u} htaker := by
    rcases h.taker_cases htaker with hold | hinput
    · exact hinv.taker hold
    · exact hinput
  taken {t id u} hfailed := by
    rcases h.failed_cases hfailed with
      hsame | hcause | ⟨id', hcause, -, hinput, -, -⟩ | ⟨id', hcause, -, -⟩
    · exact hinv.taken hsame
    · cases hcause
    · obtain ⟨rfl, htaker⟩ := Failure.receiverAlreadyTaken.inj hcause
      exact ⟨hinput, hinv.taker htaker.symm⟩
    · cases hcause
  closed {t id u} hfailed := by
    rcases h.failed_cases hfailed with
      hsame | hcause | ⟨id', hcause, -, -, -, -⟩ | ⟨id', hcause, hsends, -⟩
    · exact hinv.closed hsame
    · cases hcause
    · cases hcause
    · obtain ⟨rfl, htaker⟩ := Failure.receiverClosed.inj hcause
      exact ⟨hinv.exec.mem_outputIds_of_sendsTo hsends, hinv.taker htaker.symm⟩

end Traced

/-- Of two instances that open a stream of the same id, the second fails because of the first. -/
theorem exec_openStream_twice (N : Network ι) (hash : List TypedCell → ℕ) {t u : ι} (hne : u ≠ t)
    {id : ExchangeId} (ht : id ∈ N.inputs t) (hu : id ∈ N.inputs u) :
    ∃ st : ExecState ι codec,
      exec (ExecState.step N hash) (.init .default) [.openStream t id, .openStream u id] = some st ∧
      st.phase u = .failed (.receiverAlreadyTaken id (some t)) := by
  set start : ExecState ι codec := .init .default with hstart
  set mid : ExecState ι codec := { start with
    manager := start.manager.put id { start.manager.entry id with receiver := .taken }
    stream := update₂ start.stream t id (.opened [])
    taker := Function.update start.taker id (some t) } with hmid
  have hfirst : start.openStream N t id = some mid := by
    rw [ExecState.openStream, if_pos ⟨rfl, ht, rfl⟩,
      ExchangeBufferManager.takeReceiver_eq_ok_iff.mpr ⟨rfl, rfl⟩]
  have hunopened : mid.stream u id = .unopened := update₂_of_ne_left _ hne _ _ _
  obtain ⟨error, hrefused⟩ : ∃ error, mid.manager.takeReceiver id = .error error := by
    rw [ExchangeBufferManager.takeReceiver_eq_error_iff]
    simp [hmid]
  have htaker : mid.taker id = some t := Function.update_self _ _ _
  have hsecond : mid.openStream N u id =
      some (mid.failTask N u (.receiverAlreadyTaken id (mid.taker id))) := by
    rw [ExecState.openStream, if_pos ⟨rfl, hu, hunopened⟩, hrefused]
  refine ⟨_, exec_cons.mpr ⟨mid, hfirst, exec_cons.mpr ⟨_, hsecond, rfl⟩⟩, ?_⟩
  rw [htaker, ExecState.phase_failTask, Function.update_self]

end Provenance

/-! ## Several queries -/

section Shared

variable {κ : Type} [DecidableEq κ] (queries : κ → PlannedQuery)

/-- An instance of one of the queries. -/
abbrev SharedInstance : Type := Σ k, (queries k).Instance

/-- The instances of all queries, over one manager. -/
def sharedNetwork : Network (SharedInstance queries) where
  inputs t := (queries t.1).network.inputs t.2
  outputs t := (queries t.1).network.outputs t.2

variable {queries} in
/-- Instances read what instances of their own query sent on the channel, and what is refused to them
is refused because of an instance of their own query. -/
structure Isolated (st : ExecState (SharedInstance queries) codec) : Prop where
  reads : ∀ {t id item}, item ∈ st.received t id →
    item.1.1 = t.1 ∧ id ∈ (sharedNetwork queries).outputIds item.1
  taken : ∀ {t id u}, st.phase t = .failed (.receiverAlreadyTaken id (some u)) → u.1 = t.1
  closed : ∀ {t id u}, st.phase t = .failed (.receiverClosed id (some u)) → u.1 = t.1

omit [DecidableEq κ] in
theorem channels_ne_nil_of_mem_inputs {t : SharedInstance queries} {id : ExchangeId}
    (h : id ∈ (sharedNetwork queries).inputs t) : (queries t.1).channels ≠ [] := by
  obtain ⟨c, hc, -⟩ := (queries t.1).mem_inputs.mp h
  exact List.ne_nil_of_mem hc

omit [DecidableEq κ] in
theorem channels_ne_nil_of_mem_outputIds {t : SharedInstance queries} {id : ExchangeId}
    (h : id ∈ (sharedNetwork queries).outputIds t) : (queries t.1).channels ≠ [] := by
  obtain ⟨c, hc, -⟩ := (queries t.1).mem_outputIds.mp h
  exact List.ne_nil_of_mem hc

omit [DecidableEq κ] in
/-- Instances are isolated if only one query has channels. -/
theorem Traced.isolated {st : ExecState (SharedInstance queries) codec}
    (h : Traced (sharedNetwork queries) st)
    (hone : ∀ k k', (queries k).channels ≠ [] → (queries k').channels ≠ [] → k = k') :
    Isolated st where
  reads hitem := by
    obtain ⟨hinput, houtput⟩ := h.received hitem
    exact ⟨hone _ _ (channels_ne_nil_of_mem_outputIds queries houtput)
      (channels_ne_nil_of_mem_inputs queries hinput), houtput⟩
  taken hfailed := by
    obtain ⟨hinput, htaker⟩ := h.taken hfailed
    exact hone _ _ (channels_ne_nil_of_mem_inputs queries htaker)
      (channels_ne_nil_of_mem_inputs queries hinput)
  closed hfailed := by
    obtain ⟨houtput, htaker⟩ := h.closed hfailed
    exact hone _ _ (channels_ne_nil_of_mem_inputs queries htaker)
      (channels_ne_nil_of_mem_outputIds queries houtput)

/-- A query with channels has one with the first id, and an instance that reads it. -/
theorem PlannedQuery.exists_mem_inputs_zero (q : PlannedQuery) (h : q.channels ≠ []) :
    ∃ t, 0 ∈ q.network.inputs t := by
  obtain ⟨c, rest, hcons⟩ := List.exists_cons_of_ne_nil h
  have hc : c ∈ q.channels := by simp [hcons]
  have hid : c.exchangeId = 0 := by
    have hends := q.channels_eq
    rw [hcons] at hends
    cases hlist : channelEnds q.graph q.plan.exchanges with
    | nil =>
        rw [hlist] at hends
        cases hends
    | cons e es =>
        rw [hlist, List.zipIdx_cons, List.map_cons] at hends
        obtain ⟨rfl, -⟩ := List.cons.inj hends
        rfl
  obtain ⟨-, ⟨t, ht⟩, -⟩ := q.channel_ends hc
  exact ⟨t, q.mem_inputs.mpr ⟨c, hc, ht, hid⟩⟩

/-- The queries of a worker are isolated in all runs exactly when at most one of them has channels. -/
theorem isolated_iff (hash : List TypedCell → ℕ) :
    (∀ as (st : ExecState (SharedInstance queries) codec),
      exec (ExecState.step (sharedNetwork queries) hash) (.init .default) as = some st →
        Isolated st) ↔
      ∀ k k', (queries k).channels ≠ [] → (queries k').channels ≠ [] → k = k' := by
  constructor
  · intro hall k k' hk hk'
    by_contra hne
    obtain ⟨t, ht⟩ := (queries k).exists_mem_inputs_zero hk
    obtain ⟨t', ht'⟩ := (queries k').exists_mem_inputs_zero hk'
    have hne' : (⟨k', t'⟩ : SharedInstance queries) ≠ ⟨k, t⟩ := fun heq =>
      hne (congrArg Sigma.fst heq).symm
    obtain ⟨st, hrun, hfailed⟩ := exec_openStream_twice (sharedNetwork queries) hash hne' ht ht'
    exact hne ((hall _ st hrun).taken hfailed)
  · intro hone as st hrun
    have htraced := invariant_of_exec (I := Traced (sharedNetwork queries))
      (fun st a st' hst hstep => hst.move (ExecState.step_move hstep)) (.init _) hrun
    exact htraced.isolated queries hone

end Shared

/-- Two queries of the same kind. -/
def Sample.twoQueries : Bool → PlannedQuery := fun _ => Sample.countQuery

/-- The first query runs from start to end, then the second one opens its stream. -/
def Sample.oneAfterTheOther : List (Action (SharedInstance Sample.twoQueries)) :=
  [.openStream ⟨false, counter⟩ 0, .finishOutput ⟨false, scanner⟩, .close ⟨false, scanner⟩,
    .finish ⟨false, scanner⟩, .receive ⟨false, counter⟩ 0, .finishOutput ⟨false, counter⟩,
    .finish ⟨false, counter⟩, .openStream ⟨true, counter⟩ 0]

/-- The second query fails because the first one took the receiver of channel 0. -/
theorem not_isolated_oneAfterTheOther :
    ∃ st : ExecState (SharedInstance Sample.twoQueries) Sample.codec,
      exec (ExecState.step (sharedNetwork Sample.twoQueries) fun _ => 0) (.init .default)
        Sample.oneAfterTheOther = some st ∧ ¬ Isolated st := by
  obtain ⟨st, hrun, hfailed⟩ : ∃ st : ExecState (SharedInstance Sample.twoQueries) Sample.codec,
      exec (ExecState.step (sharedNetwork Sample.twoQueries) fun _ => 0) (.init .default)
        Sample.oneAfterTheOther = some st ∧
      st.phase ⟨true, Sample.counter⟩ =
        .failed (.receiverAlreadyTaken 0 (some ⟨false, Sample.counter⟩)) := ⟨_, rfl, rfl⟩
  exact ⟨st, hrun, fun hisolated => Bool.false_ne_true (hisolated.taken hfailed)⟩

end BrewDB

import BrewDB.Execution.Invariants
import BrewDB.Execution.Query

/-!
# Delivery on one channel

A channel with one source and one target instance, seen on its own: its buffer, the target's stream
and what the two ends have sent and yielded. Every step of the whole system is a step of this view or
leaves it alone, and the view satisfies a queue invariant: the batches sent are the ones yielded,
followed by the ones pending in the stream, followed by the ones in the buffer.
-/

namespace BrewDB

open Mpsc

variable {ι : Type} [DecidableEq ι] {codec : IpcCodec}

/-- One channel. -/
structure ChannelView (ι : Type) (codec : IpcCodec) where
  buffer : Buffer (ι × ExchangeDataPage codec)
  stream : StreamState
  sent : List RecordBatch
  eosSent : Bool
  yielded : List RecordBatch

/-- The channel `id` from `source` to `target`. -/
def ExecState.view (st : ExecState ι codec) (source target : ι) (id : ExchangeId) :
    ChannelView ι codec where
  buffer := st.manager.entry id
  stream := st.stream target id
  sent := st.sent source id
  eosSent := st.eosSent source id
  yielded := st.yielded target id

/-- The pages that carry some batches, and the end-of-stream page. -/
def channelPages (source : ι) (id : ExchangeId) (batches : List RecordBatch) (eosSent : Bool) :
    List (ι × ExchangeDataPage codec) :=
  batches.map (fun batch => (source, .fromRecordBatch id batch)) ++
    if eosSent then [(source, .eos id)] else []

/-- What can happen to a channel. -/
inductive ChannelStep (source : ι) (id : ExchangeId) (v : ChannelView ι codec) :
    ChannelView ι codec → Prop
  | same : ChannelStep source id v v
  | take : v.stream = .unopened → v.buffer.receiver = .held →
      ChannelStep source id v { v with
        buffer := { v.buffer with receiver := .taken }
        stream := .opened [] }
  | data (batch) : v.eosSent = false → v.buffer.receiver ≠ .dropped →
      ChannelStep source id v { v with
        buffer := { v.buffer with
          queue := v.buffer.queue ++ [(source, .fromRecordBatch id batch)] }
        sent := v.sent ++ [batch] }
  | eos : v.eosSent = false → v.buffer.receiver ≠ .dropped →
      ChannelStep source id v { v with
        buffer := { v.buffer with queue := v.buffer.queue ++ [(source, .eos id)] }
        eosSent := true }
  | receiveData {item queue batches} : v.stream = .opened [] →
      v.buffer = ⟨item :: queue, .taken⟩ → item.2.endOfStream = false →
      item.2.intoRecordBatches = .ok batches →
      ChannelStep source id v { v with buffer := ⟨queue, .taken⟩, stream := .opened batches }
  | receiveEos {item queue} : v.stream = .opened [] →
      v.buffer = ⟨item :: queue, .taken⟩ → item.2.endOfStream = true →
      ChannelStep source id v { v with buffer := .closed, stream := .ended }
  | yieldBatch {batch pending} : v.stream = .opened (batch :: pending) →
      ChannelStep source id v { v with
        stream := .opened pending
        yielded := v.yielded ++ [batch] }
  | drop : v.stream.isOpen = true →
      ChannelStep source id v { v with buffer := .closed, stream := .dropped }

/-- The queue invariant. -/
def ChannelInv (source : ι) (id : ExchangeId) (v : ChannelView ι codec) : Prop :=
  match v.stream with
  | .unopened => v.buffer = ⟨channelPages source id v.sent v.eosSent, .held⟩ ∧ v.yielded = []
  | .opened pending => ∃ rest, v.buffer = ⟨channelPages source id rest v.eosSent, .taken⟩ ∧
      v.sent = v.yielded ++ pending ++ rest
  | .ended => v.buffer = .closed ∧ v.eosSent = true ∧ v.yielded = v.sent
  | .dropped => v.buffer = .closed ∧ v.yielded <+: v.sent

omit [DecidableEq ι] in
/-- A batch is queued behind the earlier ones. -/
theorem channelPages_data (source : ι) (id : ExchangeId) (batches : List RecordBatch)
    (batch : RecordBatch) :
    (channelPages source id batches false ++ [(source, .fromRecordBatch id batch)] :
      List (ι × ExchangeDataPage codec)) = channelPages source id (batches ++ [batch]) false := by
  simp [channelPages]

omit [DecidableEq ι] in
/-- End-of-stream is queued behind all batches. -/
theorem channelPages_eos (source : ι) (id : ExchangeId) (batches : List RecordBatch) :
    (channelPages source id batches false ++ [(source, .eos id)] :
      List (ι × ExchangeDataPage codec)) = channelPages source id batches true := by
  simp [channelPages]

omit [DecidableEq ι] in
/-- The first queued page carries the first batch, or it is end-of-stream and there are no batches. -/
theorem channelPages_eq_cons {source : ι} {id : ExchangeId} {batches : List RecordBatch}
    {eosSent : Bool} {item : ι × ExchangeDataPage codec} {queue : List (ι × ExchangeDataPage codec)}
    (h : channelPages source id batches eosSent = item :: queue) :
    (∃ batch rest, batches = batch :: rest ∧ item = (source, .fromRecordBatch id batch) ∧
      queue = channelPages source id rest eosSent) ∨
    (batches = [] ∧ eosSent = true ∧ item = (source, .eos id) ∧ queue = []) := by
  cases batches with
  | nil =>
      cases eosSent with
      | false => cases h
      | true =>
          simp only [channelPages, List.map_nil, List.nil_append, if_true, List.cons.injEq] at h
          exact .inr ⟨rfl, rfl, h.1.symm, h.2.symm⟩
  | cons batch rest =>
      simp only [channelPages, List.map_cons, List.cons_append, List.cons.injEq] at h
      exact .inl ⟨batch, rest, rfl, h.1.symm, h.2.symm⟩

omit [DecidableEq ι] in
/-- A step of the channel keeps the queue invariant. -/
theorem ChannelInv.step {source : ι} {id : ExchangeId} {v v' : ChannelView ι codec}
    (h : ChannelStep source id v v') (hv : ChannelInv source id v) : ChannelInv source id v' := by
  obtain ⟨buffer, stream, sent, eosSent, yielded⟩ := v
  cases h with
  | same => exact hv
  | take hstream hheld =>
      obtain rfl : stream = .unopened := hstream
      dsimp only [ChannelInv] at hv
      obtain ⟨rfl, rfl⟩ := hv
      exact ⟨sent, rfl, rfl⟩
  | data batch heos hopen =>
      obtain rfl : eosSent = false := heos
      cases stream with
      | unopened =>
          dsimp only [ChannelInv] at hv
          obtain ⟨rfl, rfl⟩ := hv
          exact ⟨by rw [← channelPages_data], rfl⟩
      | opened pending =>
          dsimp only [ChannelInv] at hv
          obtain ⟨rest, rfl, rfl⟩ := hv
          exact ⟨rest ++ [batch], by rw [← channelPages_data], by simp⟩
      | ended => exact absurd hv.2.1 Bool.false_ne_true
      | dropped => exact absurd (congrArg Buffer.receiver hv.1) hopen
  | eos heos hopen =>
      obtain rfl : eosSent = false := heos
      cases stream with
      | unopened =>
          dsimp only [ChannelInv] at hv
          obtain ⟨rfl, rfl⟩ := hv
          exact ⟨by rw [← channelPages_eos], rfl⟩
      | opened pending =>
          dsimp only [ChannelInv] at hv
          obtain ⟨rest, rfl, rfl⟩ := hv
          exact ⟨rest, by rw [← channelPages_eos], rfl⟩
      | ended => exact absurd hv.2.1 Bool.false_ne_true
      | dropped => exact absurd (congrArg Buffer.receiver hv.1) hopen
  | @receiveData item queue batches hstream hbuffer hdata hbatches =>
      obtain rfl : stream = .opened [] := hstream
      obtain rfl : buffer = ⟨item :: queue, .taken⟩ := hbuffer
      dsimp only [ChannelInv] at hv
      obtain ⟨rest, hqueue, rfl⟩ := hv
      have hpages := (Buffer.mk.inj hqueue).1
      rcases channelPages_eq_cons hpages.symm with ⟨batch, rest, rfl, rfl, rfl⟩ | ⟨-, -, rfl, -⟩
      · rw [ExchangeDataPage.intoRecordBatches_fromRecordBatch] at hbatches
        obtain rfl := Except.ok.inj hbatches
        exact ⟨rest, rfl, by simp⟩
      · cases hdata
  | @receiveEos item queue hstream hbuffer heos =>
      obtain rfl : stream = .opened [] := hstream
      obtain rfl : buffer = ⟨item :: queue, .taken⟩ := hbuffer
      dsimp only [ChannelInv] at hv
      obtain ⟨rest, hqueue, rfl⟩ := hv
      have hpages := (Buffer.mk.inj hqueue).1
      rcases channelPages_eq_cons hpages.symm with ⟨batch, rest, -, rfl, -⟩ | ⟨rfl, rfl, -, -⟩
      · cases heos
      · exact ⟨rfl, rfl, by simp⟩
  | @yieldBatch batch pending hstream =>
      obtain rfl : stream = .opened (batch :: pending) := hstream
      dsimp only [ChannelInv] at hv
      obtain ⟨rest, rfl, rfl⟩ := hv
      exact ⟨rest, rfl, by simp⟩
  | drop hopen =>
      cases stream with
      | unopened => cases hopen
      | opened pending =>
          dsimp only [ChannelInv] at hv
          obtain ⟨rest, rfl, rfl⟩ := hv
          exact ⟨rfl, by simp [List.append_assoc]⟩
      | ended => cases hopen
      | dropped => cases hopen

omit [DecidableEq ι] in
/-- What the queue invariant says about delivery. -/
theorem ChannelInv.delivery {source : ι} {id : ExchangeId} {v : ChannelView ι codec}
    (hv : ChannelInv source id v) :
    v.yielded <+: v.sent ∧ (v.stream = .ended → v.eosSent = true ∧ v.yielded = v.sent) := by
  obtain ⟨buffer, stream, sent, eosSent, yielded⟩ := v
  cases stream with
  | unopened =>
      obtain rfl : yielded = [] := hv.2
      exact ⟨List.nil_prefix, fun hend => nomatch hend⟩
  | opened pending =>
      obtain ⟨rest, -, hsent⟩ := hv
      obtain rfl : sent = yielded ++ pending ++ rest := hsent
      exact ⟨⟨pending ++ rest, (List.append_assoc _ _ _).symm⟩, fun hend => nomatch hend⟩
  | ended =>
      obtain ⟨-, heos, hyielded⟩ := hv
      obtain rfl : yielded = sent := hyielded
      exact ⟨List.prefix_refl _, fun _ => ⟨heos, rfl⟩⟩
  | dropped => exact ⟨hv.2, fun hend => nomatch hend⟩

/-! ## The whole system acts on one channel -/

namespace ChannelOf

variable {N : Network ι} {st st' : ExecState ι codec} {source target : ι} {id : ExchangeId}

/-- Releasing the receivers of an instance drops the channel's stream, or does nothing to it. -/
theorem step_release (hchannel : ChannelOf N source target id) (st : ExecState ι codec)
    (hopened : ∀ u, st.stream u id ≠ .unopened → id ∈ N.inputs u) (u : ι) (p : Phase ι) :
    ChannelStep source id (st.view source target id)
      (((st.release N u).setPhase u p).view source target id) := by
  by_cases hopen : (st.stream u id).isOpen = true
  · have hinput : id ∈ N.inputs u := by
      refine hopened u fun hun => ?_
      rw [hun] at hopen
      cases hopen
    obtain rfl := hchannel.target_unique u hinput
    have hstep : ChannelStep source id (st.view source u id) _ := .drop hopen
    simpa [ExecState.view, ExecState.entry_release, ExecState.stream_release, hinput, hopen]
      using hstep
  · have hstep : ChannelStep source id (st.view source target id) _ := .same
    simpa [ExecState.view, ExecState.entry_release, ExecState.stream_release, hopen] using hstep

omit [DecidableEq ι] in
/-- Whoever has a page for the channel to send is its source, and has not sent end-of-stream yet. -/
theorem source_of_sendsTo (hchannel : ChannelOf N source target id) (hinv : ExecInv N st) {u : ι}
    (h : (st.phase u).SendsTo id) : u = source ∧ st.eosSent u id = false := by
  have hsource := hchannel.source_unique u (hinv.mem_outputIds_of_sendsTo h)
  refine ⟨hsource, ?_⟩
  have hprogress := hinv.eosProgress u
  rcases h with ⟨batch, routed, hphase⟩ | ⟨ids, hphase⟩
  · rw [EosProgress, hphase] at hprogress
    exact hprogress.1 id
  · rw [EosProgress, hphase] at hprogress
    obtain ⟨done, hids, hdone⟩ := hprogress
    -- the ids are distinct, so this one is not among those that are done
    have hnodup := hchannel.nodup
    rw [← hsource, hids] at hnodup
    have hfresh : id ∉ done := fun hmem =>
      (List.disjoint_of_nodup_append hnodup) hmem List.mem_cons_self
    rw [← hdone, Bool.not_eq_true] at hfresh
    exact hfresh

/-- Every move of the system is a step of the channel. -/
theorem step_of_move (hchannel : ChannelOf N source target id) (hinv : ExecInv N st)
    (h : Move N st st') :
    ChannelStep source id (st.view source target id) (st'.view source target id) := by
  have hopened : ∀ u, st.stream u id ≠ .unopened → id ∈ N.inputs u :=
    fun u => hinv.opened_input u id
  have hsame : ChannelStep source id (st.view source target id) (st.view source target id) := .same
  -- whoever has opened a stream of this channel is its target
  have htarget : ∀ {u : ι} {pending : List RecordBatch}, st.stream u id = .opened pending →
      u = target := fun hstream =>
    hchannel.target_unique _ (hopened _ (by simp [hstream]))
  cases h with
  | idle _ => exact .same
  | wait _ _ _ => exact .same
  | route _ _ => exact .same
  | finishOutput _ => exact .same
  | @take u id' _ hinput hstream hheld =>
      by_cases hid : id = id'
      · subst hid
        obtain rfl := hchannel.target_unique u hinput
        have hstep : ChannelStep source id (st.view source u id) _ := .take hstream hheld
        simpa [ExecState.view, update₂_self] using hstep
      · simpa [ExecState.view, ExchangeBufferManager.entry_put, hid, update₂_of_ne_right] using hsame
  | @receiveData u id' _ _ _ _ hstream hentry hdata hbatches =>
      by_cases hid : id = id'
      · subst hid
        obtain rfl := htarget hstream
        have hstep : ChannelStep source id (st.view source u id) _ :=
          .receiveData hstream hentry hdata hbatches
        simpa [ExecState.view, update₂_self] using hstep
      · simpa [ExecState.view, ExchangeBufferManager.entry_put, hid, update₂_of_ne_right] using hsame
  | @receiveEos u id' _ _ _ hstream hentry heos =>
      by_cases hid : id = id'
      · subst hid
        obtain rfl := htarget hstream
        have hstep : ChannelStep source id (st.view source u id) _ :=
          .receiveEos hstream hentry heos
        simpa [ExecState.view, ExchangeBufferManager.dropReceiver, update₂_self] using hstep
      · simpa [ExecState.view, ExchangeBufferManager.dropReceiver, ExchangeBufferManager.entry_put,
          hid, update₂_of_ne_right] using hsame
  | @receiveGarbled u id' item queue _ _ hstream hentry _ _ =>
      by_cases hid : id = id'
      · subst hid
        obtain rfl := htarget hstream
        have hinput := hopened u (by simp [hstream])
        have hopen : (st.view source u id).stream.isOpen = true := by
          simp [ExecState.view, hstream, StreamState.isOpen]
        have hstep : ChannelStep source id (st.view source u id) _ := .drop hopen
        simpa [ExecState.view, ExecState.entry_release, ExecState.stream_release, hinput, hstream,
          StreamState.isOpen] using hstep
      · have hstep := hchannel.step_release { st with
          manager := st.manager.put id' ⟨queue, .taken⟩
          received := update₂ st.received u id' (st.received u id' ++ [item]) } hopened u
          (.failed .own)
        simpa [ExecState.view, ExchangeBufferManager.entry_put, hid, ExecState.failTask] using hstep
  | @yieldBatch u id' _ _ _ hstream =>
      by_cases hid : id = id'
      · subst hid
        obtain rfl := htarget hstream
        have hstep : ChannelStep source id (st.view source u id) _ := .yieldBatch hstream
        simpa [ExecState.view, update₂_self] using hstep
      · simpa [ExecState.view, hid, update₂_of_ne_right] using hsame
  | @dropStream u id' _ hopen =>
      by_cases hid : id = id'
      · subst hid
        have hinput := hopened u (fun hun => by simp [hun, StreamState.isOpen] at hopen)
        obtain rfl := hchannel.target_unique u hinput
        have hstep : ChannelStep source id (st.view source u id) _ := .drop hopen
        simpa [ExecState.view, ExchangeBufferManager.dropReceiver, update₂_self] using hstep
      · simpa [ExecState.view, ExchangeBufferManager.dropReceiver, ExchangeBufferManager.entry_put,
          hid, update₂_of_ne_right] using hsame
  | @send u id' batch routed hphase hopen =>
      by_cases hid : id = id'
      · subst hid
        obtain ⟨rfl, heos⟩ := hchannel.source_of_sendsTo hinv (.inl ⟨batch, routed, hphase⟩)
        have hstep : ChannelStep u id (st.view u target id) _ := .data batch heos hopen
        simpa [ExecState.view, update₂_self] using hstep
      · simpa [ExecState.view, ExchangeBufferManager.entry_put, hid, update₂_of_ne_right] using hsame
  | @close u id' ids hphase hopen =>
      by_cases hid : id = id'
      · subst hid
        obtain ⟨rfl, heos⟩ := hchannel.source_of_sendsTo hinv (.inr ⟨ids, hphase⟩)
        have hstep : ChannelStep u id (st.view u target id) _ := .eos heos hopen
        simpa [ExecState.view, update₂_self] using hstep
      · simpa [ExecState.view, ExchangeBufferManager.entry_put, hid, update₂_of_ne_right] using hsame
  | finish _ => exact hchannel.step_release st hopened _ _
  | fail _ => exact hchannel.step_release st hopened _ _
  | takeRefused _ _ _ _ => exact hchannel.step_release st hopened _ _
  | sendRefused _ _ => exact hchannel.step_release st hopened _ _

end ChannelOf

/-! ## Runs -/

omit [DecidableEq ι] in
/-- A channel without a buffer satisfies the queue invariant. -/
theorem channelInv_init {manager : ExchangeBufferManager ι codec} {id : ExchangeId}
    (hfresh : manager.entry id = .new) (source target : ι) :
    ChannelInv source id ((ExecState.init manager).view source target id) :=
  ⟨hfresh, rfl⟩

/-- The general and the channel's invariant hold throughout a run. -/
theorem ChannelOf.inv_of_exec {N : Network ι} {source target : ι} {id : ExchangeId}
    (hchannel : ChannelOf N source target id) {manager : ExchangeBufferManager ι codec}
    (hfresh : manager.entry id = .new) {hash : List TypedCell → ℕ} {as : List (Action ι)}
    {st : ExecState ι codec}
    (h : Transition.exec (ExecState.step N hash) (.init manager) as = some st) :
    ExecInv N st ∧ ChannelInv source id (st.view source target id) := by
  refine Transition.invariant_of_exec (I := fun st =>
    ExecInv N st ∧ ChannelInv source id (st.view source target id)) ?_
    ⟨.init N manager, channelInv_init hfresh source target⟩ h
  rintro st a st' ⟨hinv, hview⟩ hstep
  have hmove := ExecState.step_move hstep
  exact ⟨hinv.move hmove, hview.step (hchannel.step_of_move hinv hmove)⟩

/-- Delivery on a channel with a fresh id, one source and one target is exact: at any time the batches
handed out are a prefix of the batches sent, and a stream that has ended has handed out all of them. -/
theorem delivery_exact {N : Network ι} {source target : ι} {id : ExchangeId}
    (hchannel : ChannelOf N source target id) {manager : ExchangeBufferManager ι codec}
    (hfresh : manager.entry id = .new) (hash : List TypedCell → ℕ) (as : List (Action ι))
    {st : ExecState ι codec}
    (h : Transition.exec (ExecState.step N hash) (.init manager) as = some st) :
    st.yielded target id <+: st.sent source id ∧
      (st.stream target id = .ended →
        st.eosSent source id = true ∧ st.yielded target id = st.sent source id) := by
  exact (hchannel.inv_of_exec hfresh h).2.delivery

/-- A run that moves one batch from the scanner to the counter. -/
def Sample.oneBatch : List (Action Sample.countQuery.Instance) :=
  [.openStream counter 0, .produce scanner orderBatch, .send scanner, .finishOutput scanner,
    .close scanner, .receive counter 0, .yieldBatch counter 0, .receive counter 0]

/-- One batch through the channel of a query, to the end of the stream. -/
theorem delivery_exact_oneBatch : ∃ st : ExecState Sample.countQuery.Instance Sample.codec,
    Transition.exec (ExecState.step Sample.countQuery.network fun _ => 0) (.init .default)
      Sample.oneBatch = some st ∧
    st.stream Sample.counter 0 = .ended ∧
    st.yielded Sample.counter 0 <+: st.sent Sample.scanner 0 ∧
      (st.stream Sample.counter 0 = .ended → st.eosSent Sample.scanner 0 = true ∧
        st.yielded Sample.counter 0 = st.sent Sample.scanner 0) := by
  have hchannel : ChannelOf Sample.countQuery.network Sample.scanner Sample.counter 0 := by
    refine ⟨?_, ?_, ?_⟩ <;> decide
  obtain ⟨st, hrun, hended⟩ : ∃ st : ExecState Sample.countQuery.Instance Sample.codec,
      Transition.exec (ExecState.step Sample.countQuery.network fun _ => 0) (.init .default)
        Sample.oneBatch = some st ∧ st.stream Sample.counter 0 = .ended := ⟨_, rfl, rfl⟩
  exact ⟨st, hrun, hended, delivery_exact hchannel rfl _ _ hrun⟩

end BrewDB

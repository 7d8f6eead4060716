import BrewDB.Execution.Delivery

/-!
# How a query ends

Reference: `execute_physical_plan_streaming` of `brewdb-execution/src/execution/executor.rs` and
`QueryCoordinator::execute_fragment_instances` of `brewdb-execution/src/runtime/coordinator.rs`.

The coordinator joins every instance. An instance that fails sends no end-of-stream, and the manager
keeps a sender for each channel, so its targets may wait forever; and an instance that stops reading
early closes its channels, which makes its sources fail. Without these two a query always goes on
until all instances have returned, and all of them succeed.
-/

namespace BrewDB

open Mpsc Transition

variable {ι : Type} [DecidableEq ι] {codec : IpcCodec}

/-! ## Channels over one step -/

namespace ChannelStep

variable {source : ι} {id : ExchangeId} {v v' : ChannelView ι codec}

omit [DecidableEq ι] in
/-- End-of-stream is never taken back. -/
theorem eosSent_mono (h : ChannelStep source id v v') (heos : v.eosSent = true) :
    v'.eosSent = true := by
  cases h with
  | eos _ _ => rfl
  | _ => exact heos

omit [DecidableEq ι] in
/-- A closed channel stays closed. -/
theorem dropped_mono (h : ChannelStep source id v v') (hdropped : v.buffer.receiver = .dropped) :
    v'.buffer.receiver = .dropped := by
  cases h with
  | same => exact hdropped
  | take _ hheld => rw [hheld] at hdropped; cases hdropped
  | data _ _ hopen => exact absurd hdropped hopen
  | eos _ hopen => exact absurd hdropped hopen
  | receiveData _ hbuffer _ _ => rw [hbuffer] at hdropped; cases hdropped
  | receiveEos _ _ _ => rfl
  | yieldBatch _ => exact hdropped
  | drop _ => rfl

omit [DecidableEq ι] in
/-- Nothing more is sent on a closed channel. -/
theorem eosSent_eq_of_dropped (h : ChannelStep source id v v')
    (hdropped : v'.buffer.receiver = .dropped) : v'.eosSent = v.eosSent := by
  cases h with
  | eos _ hopen => exact absurd hdropped hopen
  | _ => rfl

end ChannelStep

/-- The invariants of a network whose buffers were fresh at the start. -/
structure QueryInv (N : Network ι) (st : ExecState ι codec) : Prop where
  exec : ExecInv N st
  channel : ∀ {s t id}, ChannelOf N s t id → ChannelInv s id (st.view s t id)

namespace QueryInv

variable {N : Network ι} {st st' : ExecState ι codec}

omit [DecidableEq ι] in
theorem init (N : Network ι) : QueryInv N (ExecState.init (.default : ExchangeBufferManager ι codec)) where
  exec := .init N _
  channel _ := channelInv_init rfl _ _

theorem step {hash : List TypedCell → ℕ} {a : Action ι} (h : QueryInv N st)
    (hstep : st.step N hash a = some st') : QueryInv N st' where
  exec := h.exec.move (ExecState.step_move hstep)
  channel hchannel :=
    (h.channel hchannel).step (hchannel.step_of_move h.exec (ExecState.step_move hstep))

/-- What a step does to a channel. -/
theorem channelStep {hash : List TypedCell → ℕ} {a : Action ι} (h : QueryInv N st)
    (hstep : st.step N hash a = some st') {s t : ι} {id : ExchangeId} (hchannel : ChannelOf N s t id) :
    ChannelStep s id (st.view s t id) (st'.view s t id) :=
  hchannel.step_of_move h.exec (ExecState.step_move hstep)

omit [DecidableEq ι] in
/-- The receiver of a stream that was not opened is there to be taken. -/
theorem held_of_unopened (h : QueryInv N st) {s t : ι} {id : ExchangeId}
    (hchannel : ChannelOf N s t id) (hstream : st.stream t id = .unopened) :
    (st.manager.entry id).receiver = .held := by
  have hview := h.channel hchannel
  rw [ChannelInv, show (st.view s t id).stream = .unopened from hstream] at hview
  exact congrArg Buffer.receiver hview.1

omit [DecidableEq ι] in
/-- What is queued for an open stream without pending batches. -/
theorem entry_of_drained (h : QueryInv N st) {s t : ι} {id : ExchangeId}
    (hchannel : ChannelOf N s t id) (hstream : st.stream t id = .opened []) :
    ∃ rest, st.manager.entry id = ⟨channelPages s id rest (st.eosSent s id), .taken⟩ := by
  have hview := h.channel hchannel
  rw [ChannelInv, show (st.view s t id).stream = .opened [] from hstream] at hview
  obtain ⟨rest, hbuffer, -⟩ := hview
  exact ⟨rest, hbuffer⟩

end QueryInv

/-! ## Getting stuck -/

/-- Some step is enabled while there are instances that have not returned, and nobody waits for an
instance that has returned without end-of-stream. -/
structure NotStuck (N : Network ι) (hash : List TypedCell → ℕ) (st : ExecState ι codec) : Prop where
  progress : (∃ t, (st.phase t).isTerminated = false) → ∃ a st', st.step N hash a = some st'
  no_orphan : ∀ t ids, st.phase t = .waiting ids → ∀ id ∈ ids, ∀ s, id ∈ N.outputIds s →
    (st.phase s).isTerminated = true → st.eosSent s id = true

/-- An instance fails in this step only if on each of its output channels end-of-stream has been sent
or nobody reads any more. -/
def FailsSafely (N : Network ι) (st st' : ExecState ι codec) : Prop :=
  ∀ s, (st'.phase s).isFailed = true → (st.phase s).isFailed = false →
    ∀ id ∈ N.outputIds s, st.eosSent s id = true ∨ (st.manager.entry id).receiver = .dropped

/-- No channel of a failed instance is left open. -/
def FailedQuiet (N : Network ι) (st : ExecState ι codec) : Prop :=
  ∀ s, (st.phase s).isFailed = true → ∀ id ∈ N.outputIds s,
    st.eosSent s id = true ∨ (st.manager.entry id).receiver = .dropped

section Stuck

variable {N : Network ι} {hash : List TypedCell → ℕ} {st st' : ExecState ι codec} {a : Action ι}

/-- Safe failures leave no channel open. -/
theorem FailedQuiet.step (hwired : N.Wired) (hinv : QueryInv N st) (hquiet : FailedQuiet N st)
    (hstep : st.step N hash a = some st') (hsafe : FailsSafely N st st') : FailedQuiet N st' := by
  intro s hphase id hid
  obtain ⟨t, -, hchannel⟩ := hwired.target hid
  have hview := hinv.channelStep hstep hchannel
  have hbefore : st.eosSent s id = true ∨ (st.manager.entry id).receiver = .dropped := by
    by_cases hfailed : (st.phase s).isFailed = true
    · exact hquiet s hfailed id hid
    · exact hsafe s hphase (by simpa using hfailed) id hid
  rcases hbefore with heos | hdropped
  · exact .inl (hview.eosSent_mono heos)
  · exact .inr (hview.dropped_mono hdropped)

omit [DecidableEq ι] in
/-- Whoever waits for an instance that has returned will find its end-of-stream. -/
theorem eosSent_of_waiting (hinv : QueryInv N st) (hquiet : FailedQuiet N st) {s t : ι}
    {id : ExchangeId} (hchannel : ChannelOf N s t id) (hid : id ∈ N.outputIds s)
    (hstream : st.stream t id = .opened []) (hterm : (st.phase s).isTerminated = true) :
    st.eosSent s id = true := by
  have hprogress := hinv.exec.eosProgress s
  cases hphase : st.phase s with
  | finished =>
      rw [EosProgress, hphase] at hprogress
      exact hprogress id hid
  | failed cause =>
      rcases hquiet s (by rw [hphase]; rfl) id hid with heos | hdropped
      · exact heos
      · -- an open stream owns its receiver
        obtain ⟨rest, hentry⟩ := hinv.entry_of_drained hchannel hstream
        rw [hentry] at hdropped
        cases hdropped
  | running => rw [hphase] at hterm; cases hterm
  | waiting ids => rw [hphase] at hterm; cases hterm
  | sending routed => rw [hphase] at hterm; cases hterm
  | closing ids => rw [hphase] at hterm; cases hterm

/-- An instance that can receive and has a page can go on. -/
theorem exists_receive {t : ι} {id : ExchangeId} (hphase : (st.phase t).canReceive id = true)
    (hstream : st.stream t id = .opened []) {item : ι × ExchangeDataPage codec}
    {queue : List (ι × ExchangeDataPage codec)} (hentry : st.manager.entry id = ⟨item :: queue, .taken⟩) :
    ∃ st', st.step N hash (.receive t id) = some st' := by
  have hrecv := ExchangeBufferManager.recvPage_eq_some_iff.mpr ⟨queue, hentry, rfl⟩
  simp only [ExecState.step, ExecState.receive, hphase, hstream, hrecv, and_self, if_true]
  by_cases heos : item.2.endOfStream = true
  · exact ⟨_, if_pos heos⟩
  · rw [if_neg heos]
    cases item.2.intoRecordBatches with
    | ok batches => exact ⟨_, rfl⟩
    | error error => exact ⟨_, rfl⟩

/-- An instance that is not waiting can always go on. -/
theorem exists_step (hinv : QueryInv N st) {t : ι} (hterm : (st.phase t).isTerminated = false)
    (hwaiting : ∀ ids, st.phase t ≠ .waiting ids) : ∃ a st', st.step N hash a = some st' := by
  have hsettled := hinv.exec.settled t
  cases hphase : st.phase t with
  | running => exact ⟨.finishOutput t, _, if_pos hphase⟩
  | waiting ids => exact absurd hphase (hwaiting ids)
  | sending routed =>
      rw [hphase] at hsettled
      obtain ⟨⟨id, batch⟩, rest, rfl⟩ := List.exists_cons_of_ne_nil hsettled
      refine ⟨.send t, ?_⟩
      simp only [ExecState.step, ExecState.send, hphase]
      cases st.manager.enqueuePage t (.fromRecordBatch id batch) with
      | ok manager => exact ⟨_, rfl⟩
      | error error => exact ⟨_, rfl⟩
  | closing ids =>
      cases ids with
      | nil => exact ⟨.finish t, _, if_pos hphase⟩
      | cons id ids =>
          refine ⟨.close t, ?_⟩
          simp only [ExecState.step, ExecState.close, hphase]
          cases st.manager.enqueuePage t (.eos id) with
          | ok manager => exact ⟨_, rfl⟩
          | error error => exact ⟨_, rfl⟩
  | finished => rw [hphase] at hterm; cases hterm
  | failed cause => rw [hphase] at hterm; cases hterm

/-- Nothing is stuck while no channel of a failed instance is left open: follow the channels from an
instance that has not returned up to one that does not wait for anything. -/
theorem notStuck_of_failedQuiet [Fintype ι] (hwired : N.Wired) (hinv : QueryInv N st)
    (hquiet : FailedQuiet N st) : NotStuck N hash st := by
  have hno_orphan : ∀ t ids, st.phase t = .waiting ids → ∀ id ∈ ids, ∀ s, id ∈ N.outputIds s →
      (st.phase s).isTerminated = true → st.eosSent s id = true := by
    intro t ids hphase id hid s hout hterm
    have hsettled := hinv.exec.settled t
    rw [hphase] at hsettled
    have hstream := hsettled.2 id hid
    obtain ⟨t', -, hchannel⟩ := hwired.target hout
    obtain rfl := hchannel.target_unique t (hinv.exec.opened_input t id (by simp [hstream]))
    exact eosSent_of_waiting hinv hquiet hchannel hout hstream hterm
  refine ⟨fun hsome => ?_, hno_orphan⟩
  obtain ⟨rank, hrank⟩ := hwired.acyclic
  obtain ⟨t, ht, hmax⟩ := Finset.exists_max_image
    (Finset.univ.filter fun t => (st.phase t).isTerminated = false) rank
    (by obtain ⟨t, ht⟩ := hsome; exact ⟨t, by simpa using ht⟩)
  have hterm : (st.phase t).isTerminated = false := by simpa using ht
  by_cases hwaiting : ∃ ids, st.phase t = .waiting ids
  · obtain ⟨ids, hphase⟩ := hwaiting
    have hsettled := hinv.exec.settled t
    rw [hphase] at hsettled
    obtain ⟨id, rest, rfl⟩ := List.exists_cons_of_ne_nil hsettled.1
    have hstream := hsettled.2 id List.mem_cons_self
    have hinput := hinv.exec.opened_input t id (by simp [hstream])
    obtain ⟨s, hout, hchannel⟩ := hwired.source hinput
    -- the source is of higher rank, so it has returned
    have hsource : (st.phase s).isTerminated = true := by
      by_contra hrunning
      have hle := hmax s (by simpa using hrunning)
      have hlt := hrank hout hinput
      omega
    have heos := hno_orphan t _ hphase id List.mem_cons_self s hout hsource
    obtain ⟨rest', hentry⟩ := hinv.entry_of_drained hchannel hstream
    have hqueue : channelPages s id rest' (st.eosSent s id) ≠ ([] : List (ι × ExchangeDataPage codec)) := by
      simp [channelPages, heos]
    obtain ⟨item, queue, hcons⟩ := List.exists_cons_of_ne_nil hqueue
    rw [hcons] at hentry
    exact ⟨.receive t id, exists_receive (by simp [hphase, Phase.canReceive]) hstream hentry⟩
  · exact exists_step hinv hterm fun ids hphase => hwaiting ⟨ids, hphase⟩

end Stuck

/-- A query is not stuck in any state of a run in which instances fail only after the end of their
streams, or when nobody reads any more. -/
theorem not_stuck (q : PlannedQuery) (hash : List TypedCell → ℕ) (as : List (Action q.Instance))
    {st : ExecState q.Instance codec}
    (h : exec (ExecState.step q.network hash) (q.start codec) as = some st)
    (hsafe : Along (ExecState.step q.network hash)
      (fun st _ st' => FailsSafely q.network st st') (q.start codec) as) :
    NotStuck q.network hash st := by
  have hinv := invariant_of_along
    (I := fun st => QueryInv q.network st ∧ FailedQuiet q.network st)
    (fun st a st' hst hstep hsafe =>
      ⟨hst.1.step hstep, hst.2.step q.wired hst.1 hstep hsafe⟩)
    ⟨.init _, fun s hphase => nomatch hphase⟩ h hsafe
  exact notStuck_of_failedQuiet q.wired hinv.1 hinv.2

instance [Fintype ι] (N : Network ι) (st st' : ExecState ι codec) :
    Decidable (FailsSafely N st st') :=
  inferInstanceAs (Decidable (∀ s, _ → _ → ∀ id ∈ N.outputIds s, _))

/-- A run in which the scanner fails after its end of stream. -/
def Sample.lateFailure : List (Action Sample.countQuery.Instance) :=
  [.openStream counter 0, .wait counter [0], .finishOutput scanner, .close scanner, .fail scanner]

/-- The counter will find the end of the stream. -/
theorem not_stuck_lateFailure : ∃ st : ExecState Sample.countQuery.Instance Sample.codec,
    exec (ExecState.step Sample.countQuery.network fun _ => 0) (Sample.countQuery.start _)
      Sample.lateFailure = some st ∧
    st.phase Sample.scanner = .failed .own ∧ st.phase Sample.counter = .waiting [0] ∧
    NotStuck Sample.countQuery.network (fun _ => 0) st := by
  obtain ⟨st, hrun, hscanner, hcounter⟩ :
      ∃ st : ExecState Sample.countQuery.Instance Sample.codec,
        exec (ExecState.step Sample.countQuery.network fun _ => 0) (Sample.countQuery.start _)
          Sample.lateFailure = some st ∧
        st.phase Sample.scanner = .failed .own ∧ st.phase Sample.counter = .waiting [0] :=
    ⟨_, rfl, rfl, rfl⟩
  exact ⟨st, hrun, hscanner, hcounter, not_stuck _ _ _ hrun (by decide)⟩

/-- A run in which the scanner fails while the counter waits for it. -/
def Sample.earlyFailure : List (Action Sample.countQuery.Instance) :=
  [.openStream counter 0, .wait counter [0], .fail scanner]

/-- The counter waits, the scanner is gone, and no step is enabled. -/
theorem not_notStuck_earlyFailure : ∃ st : ExecState Sample.countQuery.Instance Sample.codec,
    exec (ExecState.step Sample.countQuery.network fun _ => 0) (Sample.countQuery.start _)
      Sample.earlyFailure = some st ∧
    ¬ NotStuck Sample.countQuery.network (fun _ => 0) st := by
  obtain ⟨st, hrun, hscanner, hcounter, hentry⟩ :
      ∃ st : ExecState Sample.countQuery.Instance Sample.codec,
        exec (ExecState.step Sample.countQuery.network fun _ => 0) (Sample.countQuery.start _)
          Sample.earlyFailure = some st ∧
        st.phase Sample.scanner = .failed .own ∧ st.phase Sample.counter = .waiting [0] ∧
        st.manager.entry 0 = ⟨[], .taken⟩ :=
    ⟨_, rfl, rfl, rfl, rfl⟩
  refine ⟨st, hrun, fun hnot => ?_⟩
  obtain ⟨a, st', hstep⟩ := hnot.progress ⟨Sample.counter, by rw [hcounter]; rfl⟩
  have htwo : ∀ t, t = Sample.scanner ∨ t = Sample.counter := by decide
  have hphase : ∀ t, st.phase t = .failed .own ∨ st.phase t = .waiting [0] := by
    intro t
    rcases htwo t with rfl | rfl
    · exact .inl hscanner
    · exact .inr hcounter
  have hreceive : ∀ t id item queue, (st.phase t).canReceive id = true →
      st.manager.entry id ≠ ⟨item :: queue, .taken⟩ := by
    intro t id item queue hcan hcons
    rcases hphase t with h | h
    · rw [h] at hcan
      cases hcan
    · obtain rfl : id = 0 := by simpa [h, Phase.canReceive] using hcan
      rw [hentry] at hcons
      cases hcons
  cases ExecState.step_move hstep with
  | receiveData h _ hcons _ _ => exact hreceive _ _ _ _ h hcons
  | receiveEos h _ hcons _ => exact hreceive _ _ _ _ h hcons
  | receiveGarbled h _ hcons _ _ => exact hreceive _ _ _ _ h hcons
  | @fail t h => rcases hphase t with h' | h' <;> simp [h', Phase.canFail] at h
  | @sendRefused t _ h _ => rcases hphase t with h' | h' <;> simp [h', Phase.SendsTo] at h
  | @idle t h => rcases hphase t with h' | h' <;> simp [h'] at h
  | @wait t _ h _ _ => rcases hphase t with h' | h' <;> simp [h'] at h
  | @route t _ h _ => rcases hphase t with h' | h' <;> simp [h'] at h
  | @finishOutput t h => rcases hphase t with h' | h' <;> simp [h'] at h
  | @take t _ h _ _ _ => rcases hphase t with h' | h' <;> simp [h'] at h
  | @yieldBatch t _ _ _ h _ => rcases hphase t with h' | h' <;> simp [h'] at h
  | @dropStream t _ h _ => rcases hphase t with h' | h' <;> simp [h'] at h
  | @send t _ _ _ h _ => rcases hphase t with h' | h' <;> simp [h'] at h
  | @close t _ _ h _ => rcases hphase t with h' | h' <;> simp [h'] at h
  | @finish t h => rcases hphase t with h' | h' <;> simp [h'] at h
  | @takeRefused t _ h _ _ _ => rcases hphase t with h' | h' <;> simp [h'] at h

/-! ## Failing because of the others -/

/-- In this step no receiver is dropped before its source has sent end-of-stream. -/
def DropsLate (N : Network ι) (st st' : ExecState ι codec) : Prop :=
  ∀ s, ∀ id ∈ N.outputIds s, (st.manager.entry id).receiver ≠ .dropped →
    (st'.manager.entry id).receiver = .dropped → st.eosSent s id = true

instance [Fintype ι] (N : Network ι) (st st' : ExecState ι codec) :
    Decidable (DropsLate N st st') :=
  inferInstanceAs (Decidable (∀ s, ∀ id ∈ N.outputIds s, _ → _ → _))

/-- Some receiver is gone and its source has more to send. -/
def Cut (N : Network ι) (st : ExecState ι codec) : Prop :=
  ∃ s, ∃ id ∈ N.outputIds s, (st.manager.entry id).receiver = .dropped ∧ st.eosSent s id = false

section Outcome

variable {N : Network ι} {hash : List TypedCell → ℕ} {st st' : ExecState ι codec} {a : Action ι}

/-- An early drop shows. -/
theorem cut_of_not_dropsLate (hwired : N.Wired) (hinv : QueryInv N st)
    (hstep : st.step N hash a = some st') (h : ¬ DropsLate N st st') : Cut N st' := by
  simp only [DropsLate, not_forall] at h
  obtain ⟨s, id, hid, -, hdropped, heos⟩ := h
  obtain ⟨t, -, hchannel⟩ := hwired.target hid
  have hsame := (hinv.channelStep hstep hchannel).eosSent_eq_of_dropped hdropped
  exact ⟨s, id, hid, hdropped, hsame.trans (Bool.eq_false_of_not_eq_true heos)⟩

/-- What is cut off stays cut off. -/
theorem Cut.step (hwired : N.Wired) (hinv : QueryInv N st) (hstep : st.step N hash a = some st')
    (h : Cut N st) : Cut N st' := by
  obtain ⟨s, id, hid, hdropped, heos⟩ := h
  obtain ⟨t, -, hchannel⟩ := hwired.target hid
  have hview := hinv.channelStep hstep hchannel
  have hdropped' := hview.dropped_mono hdropped
  exact ⟨s, id, hid, hdropped', (hview.eosSent_eq_of_dropped hdropped').trans heos⟩

/-- Late drops cut nothing off. -/
theorem not_cut_of_dropsLate (hwired : N.Wired) (hinv : QueryInv N st) (hcut : ¬ Cut N st)
    (hstep : st.step N hash a = some st') (hlate : DropsLate N st st') : ¬ Cut N st' := by
  rintro ⟨s, id, hid, hdropped, heos⟩
  obtain ⟨t, -, hchannel⟩ := hwired.target hid
  have hsame := (hinv.channelStep hstep hchannel).eosSent_eq_of_dropped hdropped
  have heos' : st.eosSent s id = false := hsame.symm.trans heos
  by_cases hbefore : (st.manager.entry id).receiver = .dropped
  · exact hcut ⟨s, id, hid, hbefore, heos'⟩
  · exact Bool.false_ne_true (heos'.symm.trans (hlate s id hid hbefore hdropped))

/-- While nothing is cut off, an instance fails only by itself. -/
theorem own_of_failed (hwired : N.Wired) (hinv : QueryInv N st) (hcut : ¬ Cut N st)
    (hown : ∀ t cause, st.phase t = .failed cause → cause = .own)
    (hstep : st.step N hash a = some st') :
    ∀ t cause, st'.phase t = .failed cause → cause = .own := by
  intro t cause hfailed
  rcases (ExecState.step_move hstep).failed_cases hfailed with
    hsame | hcause | ⟨id, -, -, hinput, hstream, hheld⟩ | ⟨id, -, hsends, hdropped⟩
  · exact hown t cause hsame
  · exact hcause
  · obtain ⟨s, -, hchannel⟩ := hwired.source hinput
    exact absurd (hinv.held_of_unopened hchannel hstream) hheld
  · -- whoever has something to send has not sent end-of-stream
    have hout := hinv.exec.mem_outputIds_of_sendsTo hsends
    obtain ⟨target, -, hchannel⟩ := hwired.target hout
    have heos := (hchannel.source_of_sendsTo hinv.exec hsends).2
    exact absurd ⟨t, id, hout, hdropped, heos⟩ hcut

end Outcome

/-- If no operator, storage read or transport call fails by itself, a query that has run to its end
has succeeded exactly when no receiver was dropped before its source had sent end-of-stream. -/
theorem all_finished_iff (q : PlannedQuery) (hash : List TypedCell → ℕ)
    (as : List (Action q.Instance)) {st : ExecState q.Instance codec}
    (h : exec (ExecState.step q.network hash) (q.start codec) as = some st)
    (hdone : ∀ t, (st.phase t).isTerminated = true) (hown : ∀ t, st.phase t ≠ .failed .own) :
    (∀ t, st.phase t = .finished) ↔
      Along (ExecState.step q.network hash)
        (fun st _ st' => DropsLate q.network st st') (q.start codec) as := by
  have hstart : QueryInv q.network (q.start codec) := .init _
  constructor
  · intro hfinished
    have hinv := invariant_of_exec (I := QueryInv q.network)
      (fun st a st' hst hstep => hst.step hstep) hstart h
    -- every end-of-stream has been sent in the end, so nothing is cut off
    have hcut : ¬ Cut q.network st := by
      rintro ⟨s, id, hid, -, heos⟩
      have hprogress := hinv.exec.eosProgress s
      rw [EosProgress, hfinished s] at hprogress
      exact Bool.false_ne_true (heos.symm.trans (hprogress id hid))
    exact along_of_no_trace (I := QueryInv q.network) (T := Cut q.network)
      (fun st a st' hst hstep => hst.step hstep)
      (fun st a st' hst hstep => cut_of_not_dropsLate q.wired hst hstep)
      (fun st a st' hst hstep hcut => hcut.step q.wired hst hstep) hstart h hcut
  · intro hlate t
    have hnot_cut : ¬ Cut q.network (q.start codec) := by
      rintro ⟨s, id, -, hdropped, -⟩
      cases hdropped
    have hnone : ∀ t cause, (q.start codec).phase t = .failed cause → cause = .own := by
      intro t cause hphase
      cases hphase
    have hinv := invariant_of_along (I := fun st : ExecState q.Instance codec =>
        QueryInv q.network st ∧ ¬ Cut q.network st ∧
          ∀ t cause, st.phase t = .failed cause → cause = .own)
      (fun st a st' hst hstep hlate => ⟨hst.1.step hstep,
        not_cut_of_dropsLate q.wired hst.1 hst.2.1 hstep hlate,
        own_of_failed q.wired hst.1 hst.2.1 hst.2.2 hstep⟩)
      ⟨hstart, hnot_cut, hnone⟩ h hlate
    have hterm := hdone t
    cases hphase : st.phase t with
    | finished => rfl
    | failed cause =>
        obtain rfl := hinv.2.2 t cause hphase
        exact absurd hphase (hown t)
    | running => rw [hphase] at hterm; cases hterm
    | waiting ids => rw [hphase] at hterm; cases hterm
    | sending routed => rw [hphase] at hterm; cases hterm
    | closing ids => rw [hphase] at hterm; cases hterm

/-- The counter reads its stream to the end, and both instances return. -/
def Sample.fullRead : List (Action Sample.countQuery.Instance) :=
  oneBatch ++ [.finish scanner, .finishOutput counter, .finish counter]

theorem all_finished_fullRead : ∃ st : ExecState Sample.countQuery.Instance Sample.codec,
    exec (ExecState.step Sample.countQuery.network fun _ => 0) (Sample.countQuery.start _)
      Sample.fullRead = some st ∧
    ((∀ t, st.phase t = .finished) ↔
      Along (ExecState.step Sample.countQuery.network fun _ => 0)
        (fun st _ st' => DropsLate Sample.countQuery.network st st')
        (Sample.countQuery.start Sample.codec) Sample.fullRead) := by
  obtain ⟨st, hrun, hscanner, hcounter⟩ :
      ∃ st : ExecState Sample.countQuery.Instance Sample.codec,
        exec (ExecState.step Sample.countQuery.network fun _ => 0) (Sample.countQuery.start _)
          Sample.fullRead = some st ∧
        st.phase Sample.scanner = .finished ∧ st.phase Sample.counter = .finished :=
    ⟨_, rfl, rfl, rfl⟩
  have hfinished : ∀ t, st.phase t = .finished := by
    intro t
    rcases (by decide : ∀ t, t = Sample.scanner ∨ t = Sample.counter) t with rfl | rfl
    · exact hscanner
    · exact hcounter
  exact ⟨st, hrun, all_finished_iff _ _ _ hrun (fun t => by rw [hfinished t]; rfl)
    (fun t => by rw [hfinished t]; exact fun h => nomatch h)⟩

/-- The table `customers(id)`. -/
def Sample.customers : TableCatalogEntry := ⟨2, ⟨"brewdb", "default", "customers"⟩⟩

/-- `orders JOIN customers ON orders.id = customers.id LIMIT 1`. -/
def Sample.limitJoin : LogicalPlan :=
  .unary (.limit none (some (.literal (.integer 1))))
    (.join
      { onKeys := [(ordersColumn "id", .column ⟨some (.bare "customers"), "id"⟩)]
        filter := none
        joinType := .inner
        joinConstraint := .onClause
        schema := ⟨[(some (.bare "orders"), ⟨"id", .int64, false⟩),
          (some (.bare "orders"), ⟨"amount", .int64, true⟩),
          (some (.bare "customers"), ⟨"id", .int64, false⟩)]⟩
        nullEquality := .nullEqualsNothing
        nullAware := false }
      scanOrders (.tableScan (.ofTable customers [⟨"id", .int64, false⟩])))

/-- The query, with an instance for each scan and one for the join and the limit. -/
def Sample.limitQuery : PlannedQuery where
  env := Sample.env
  logicalPlan := Sample.limitJoin
  plan := _
  built := rfl
  selectWorker := firstWorkerSelector
  newV4 := id
  newV4_injective := Function.injective_id
  workers := Sample.workers
  graph := _
  scheduled := rfl
  channels := _
  connected := rfl
  ids_fit := by decide
  tableCatalogs := [Sample.orders, Sample.customers]
  instances := _
  instances_eq := rfl

/-- The instances that scan `orders` and `customers`, and the one that joins. -/
def Sample.left : Sample.limitQuery.Instance := ⟨0, by decide⟩

@[inherit_doc Sample.left]
def Sample.right : Sample.limitQuery.Instance := ⟨1, by decide⟩

@[inherit_doc Sample.left]
def Sample.joiner : Sample.limitQuery.Instance := ⟨2, by decide⟩

/-- The first joined row satisfies the limit, and the join drops the stream of `customers` before its
end. -/
def Sample.earlyStop : List (Action Sample.limitQuery.Instance) :=
  [.openStream joiner 0, .openStream joiner 1, .produce left orderBatch, .send left,
    .finishOutput left, .close left, .finish left, .receive joiner 0, .yieldBatch joiner 0,
    .receive joiner 0, .produce right ⟨[⟨"id", .int64, false⟩], [[.integer 1]]⟩, .send right,
    .receive joiner 1, .yieldBatch joiner 1, .dropStream joiner 1, .finishOutput joiner,
    .finish joiner, .finishOutput right, .close right]

/-- The scan of `customers` fails when it sends end-of-stream, and the query with it. -/
theorem not_all_finished_earlyStop : ∃ st : ExecState Sample.limitQuery.Instance Sample.codec,
    exec (ExecState.step Sample.limitQuery.network fun _ => 0) (Sample.limitQuery.start _)
      Sample.earlyStop = some st ∧
    (∀ t, (st.phase t).isTerminated = true) ∧ (∀ t, st.phase t ≠ .failed .own) ∧
    st.phase Sample.right = .failed (.receiverClosed 1 (some Sample.joiner)) ∧
    ¬ ∀ t, st.phase t = .finished := by
  obtain ⟨st, hrun, hleft, hright, hjoiner⟩ :
      ∃ st : ExecState Sample.limitQuery.Instance Sample.codec,
        exec (ExecState.step Sample.limitQuery.network fun _ => 0) (Sample.limitQuery.start _)
          Sample.earlyStop = some st ∧
        st.phase Sample.left = .finished ∧
        st.phase Sample.right = .failed (.receiverClosed 1 (some Sample.joiner)) ∧
        st.phase Sample.joiner = .finished :=
    ⟨_, rfl, rfl, rfl, rfl⟩
  have hthree : ∀ t, t = Sample.left ∨ t = Sample.right ∨ t = Sample.joiner := by decide
  refine ⟨st, hrun, fun t => ?_, fun t => ?_, hright, fun hall => ?_⟩
  · rcases hthree t with rfl | rfl | rfl <;> simp [hleft, hright, hjoiner, Phase.isTerminated]
  · rcases hthree t with rfl | rfl | rfl <;> simp [hleft, hright, hjoiner]
  · exact nomatch hright.symm.trans (hall Sample.right)

end BrewDB

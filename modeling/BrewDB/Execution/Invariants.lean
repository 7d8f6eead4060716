import BrewDB.Execution.Executor

/-!
# What one step can do, and what every state satisfies

`Move` lists everything that a step of the transition function can do, with the guards it passed.
The invariants that hold in every network follow: only inputs are opened, an instance waits only on
open streams that are drained, and end-of-stream goes out on the output channels in order, after the
last batch.
-/

namespace BrewDB

open Mpsc

variable {ι : Type} [DecidableEq ι] {codec : IpcCodec}

theorem update₂_self {α β γ : Type} [DecidableEq α] [DecidableEq β] (f : α → β → γ) (a : α) (b : β)
    (c : γ) : update₂ f a b c a b = c :=
  if_pos ⟨rfl, rfl⟩

theorem update₂_of_ne_left {α β γ : Type} [DecidableEq α] [DecidableEq β] (f : α → β → γ) {a a' : α}
    (h : a' ≠ a) (b b' : β) (c : γ) : update₂ f a b c a' b' = f a' b' :=
  if_neg fun heq => h heq.1

theorem update₂_of_ne_right {α β γ : Type} [DecidableEq α] [DecidableEq β] (f : α → β → γ) {b b' : β}
    (h : b' ≠ b) (a a' : α) (c : γ) : update₂ f a b c a' b' = f a' b' :=
  if_neg fun heq => h heq.2

namespace ExecState

section Fields

variable (st : ExecState ι codec) (N : Network ι) (t : ι) (p : Phase ι) (cause : Failure ι)

@[simp] theorem manager_setPhase : (st.setPhase t p).manager = st.manager := rfl
@[simp] theorem stream_setPhase : (st.setPhase t p).stream = st.stream := rfl
@[simp] theorem sent_setPhase : (st.setPhase t p).sent = st.sent := rfl
@[simp] theorem eosSent_setPhase : (st.setPhase t p).eosSent = st.eosSent := rfl
@[simp] theorem yielded_setPhase : (st.setPhase t p).yielded = st.yielded := rfl
@[simp] theorem received_setPhase : (st.setPhase t p).received = st.received := rfl
@[simp] theorem taker_setPhase : (st.setPhase t p).taker = st.taker := rfl
@[simp] theorem phase_setPhase : (st.setPhase t p).phase = Function.update st.phase t p := rfl

@[simp] theorem phase_release : (st.release N t).phase = st.phase := rfl
@[simp] theorem sent_release : (st.release N t).sent = st.sent := rfl
@[simp] theorem eosSent_release : (st.release N t).eosSent = st.eosSent := rfl
@[simp] theorem yielded_release : (st.release N t).yielded = st.yielded := rfl
@[simp] theorem received_release : (st.release N t).received = st.received := rfl
@[simp] theorem taker_release : (st.release N t).taker = st.taker := rfl

@[simp] theorem manager_failTask :
    (st.failTask N t cause).manager = (st.release N t).manager := rfl
@[simp] theorem stream_failTask : (st.failTask N t cause).stream = (st.release N t).stream := rfl
@[simp] theorem sent_failTask : (st.failTask N t cause).sent = st.sent := rfl
@[simp] theorem eosSent_failTask : (st.failTask N t cause).eosSent = st.eosSent := rfl
@[simp] theorem yielded_failTask : (st.failTask N t cause).yielded = st.yielded := rfl
@[simp] theorem received_failTask : (st.failTask N t cause).received = st.received := rfl
@[simp] theorem taker_failTask : (st.failTask N t cause).taker = st.taker := rfl
@[simp] theorem phase_failTask :
    (st.failTask N t cause).phase = Function.update st.phase t (.failed cause) := rfl

end Fields

/-! ## Releasing receivers -/

omit [DecidableEq ι] in
theorem entry_foldl_dropReceiver (ids : List ExchangeId) (manager : ExchangeBufferManager ι codec)
    (id : ExchangeId) :
    (ids.foldl ExchangeBufferManager.dropReceiver manager).entry id =
      if id ∈ ids then .closed else manager.entry id := by
  induction ids generalizing manager with
  | nil => simp
  | cons id' ids ih =>
      rw [List.foldl_cons, ih, ExchangeBufferManager.dropReceiver, ExchangeBufferManager.entry_put]
      by_cases hmem : id ∈ ids
      · simp [hmem]
      · by_cases heq : id = id' <;> simp [hmem, heq]

/-- Releasing closes the channels of the open streams. -/
theorem entry_release (N : Network ι) (st : ExecState ι codec) (t : ι) (id : ExchangeId) :
    (st.release N t).manager.entry id =
      if id ∈ N.inputs t ∧ (st.stream t id).isOpen = true then .closed else st.manager.entry id := by
  simp [release, entry_foldl_dropReceiver]

theorem stream_release (N : Network ι) (st : ExecState ι codec) (t t' : ι) (id : ExchangeId) :
    (st.release N t).stream t' id =
      if t' = t ∧ (st.stream t id).isOpen = true then .dropped else st.stream t' id := by
  by_cases ht : t' = t
  · subst ht
    simp [release]
  · simp [release, ht]

theorem failTask_setPhase (N : Network ι) (st : ExecState ι codec) (t : ι) (phase : Phase ι)
    (cause : Failure ι) : (st.setPhase t phase).failTask N t cause = st.failTask N t cause := by
  simp only [failTask, setPhase, release, Function.update_idem]
  rfl

end ExecState

/-! ## Moves -/

/-- The instance has a page for this channel to send next. -/
def Phase.SendsTo (id : ExchangeId) (p : Phase ι) : Prop :=
  (∃ batch routed, p = .sending ((id, batch) :: routed)) ∨ ∃ ids, p = .closing (id :: ids)

/-- Everything a step can do. -/
inductive Move (N : Network ι) (st : ExecState ι codec) : ExecState ι codec → Prop
  /-- Nothing happens to the buffers or the instances. -/
  | idle {t} : st.phase t = .running → Move N st st
  | wait {t ids} : st.phase t = .running → ids ≠ [] → (∀ id ∈ ids, st.stream t id = .opened []) →
      Move N st (st.setPhase t (.waiting ids))
  | route {t routed} : st.phase t = .running → (∀ part ∈ routed, part.1 ∈ N.outputIds t) →
      Move N st (st.setPhase t (.afterSend routed))
  | finishOutput {t} : st.phase t = .running →
      Move N st (st.setPhase t (.closing (N.outputIds t)))
  | take {t id} : st.phase t = .running → id ∈ N.inputs t → st.stream t id = .unopened →
      (st.manager.entry id).receiver = .held →
      Move N st { st with
        manager := st.manager.put id { st.manager.entry id with receiver := .taken }
        stream := update₂ st.stream t id (.opened [])
        taker := Function.update st.taker id (some t) }
  | receiveData {t id item queue batches} : (st.phase t).canReceive id = true →
      st.stream t id = .opened [] → st.manager.entry id = ⟨item :: queue, .taken⟩ →
      item.2.endOfStream = false → item.2.intoRecordBatches = .ok batches →
      Move N st ({ st with
        manager := st.manager.put id ⟨queue, .taken⟩
        received := update₂ st.received t id (st.received t id ++ [item])
        stream := update₂ st.stream t id (.opened batches) }.setPhase t .running)
  | receiveEos {t id item queue} : (st.phase t).canReceive id = true →
      st.stream t id = .opened [] → st.manager.entry id = ⟨item :: queue, .taken⟩ →
      item.2.endOfStream = true →
      Move N st ({ st with
        manager := (st.manager.put id ⟨queue, .taken⟩).dropReceiver id
        received := update₂ st.received t id (st.received t id ++ [item])
        stream := update₂ st.stream t id .ended }.setPhase t .running)
  | receiveGarbled {t id item queue error} : (st.phase t).canReceive id = true →
      st.stream t id = .opened [] → st.manager.entry id = ⟨item :: queue, .taken⟩ →
      item.2.endOfStream = false → item.2.intoRecordBatches = .error error →
      Move N st ({ st with
        manager := st.manager.put id ⟨queue, .taken⟩
        received := update₂ st.received t id (st.received t id ++ [item]) }.failTask N t .own)
  | yieldBatch {t id batch pending} : st.phase t = .running →
      st.stream t id = .opened (batch :: pending) →
      Move N st { st with
        stream := update₂ st.stream t id (.opened pending)
        yielded := update₂ st.yielded t id (st.yielded t id ++ [batch]) }
  | dropStream {t id} : st.phase t = .running → (st.stream t id).isOpen = true →
      Move N st { st with
        manager := st.manager.dropReceiver id
        stream := update₂ st.stream t id .dropped }
  | send {t id batch routed} : st.phase t = .sending ((id, batch) :: routed) →
      (st.manager.entry id).receiver ≠ .dropped →
      Move N st ({ st with
        manager := st.manager.put id { st.manager.entry id with
          queue := (st.manager.entry id).queue ++ [(t, ExchangeDataPage.fromRecordBatch id batch)] }
        sent := update₂ st.sent t id (st.sent t id ++ [batch]) }.setPhase t (.afterSend routed))
  | close {t id ids} : st.phase t = .closing (id :: ids) →
      (st.manager.entry id).receiver ≠ .dropped →
      Move N st ({ st with
        manager := st.manager.put id { st.manager.entry id with
          queue := (st.manager.entry id).queue ++ [(t, ExchangeDataPage.eos id)] }
        eosSent := update₂ st.eosSent t id true }.setPhase t (.closing ids))
  | finish {t} : st.phase t = .closing [] → Move N st ((st.release N t).setPhase t .finished)
  | fail {t} : (st.phase t).canFail = true → Move N st (st.failTask N t .own)
  | takeRefused {t id} : st.phase t = .running → id ∈ N.inputs t → st.stream t id = .unopened →
      (st.manager.entry id).receiver ≠ .held →
      Move N st (st.failTask N t (.receiverAlreadyTaken id (st.taker id)))
  | sendRefused {t id} : (st.phase t).SendsTo id →
      (st.manager.entry id).receiver = .dropped →
      Move N st (st.failTask N t (.receiverClosed id (st.taker id)))

/-- Every step is one of the moves. -/
theorem ExecState.step_move {N : Network ι} {hash : List TypedCell → ℕ} {st st' : ExecState ι codec}
    {a : Action ι} (h : st.step N hash a = some st') : Move N st st' := by
  cases a with
  | openStream t id =>
      simp only [step, openStream, Option.ite_none_right_eq_some] at h
      obtain ⟨⟨hphase, hinput, hstream⟩, h⟩ := h
      split at h
      next manager hok =>
        obtain ⟨hheld, rfl⟩ := ExchangeBufferManager.takeReceiver_eq_ok_iff.mp hok
        obtain rfl := Option.some.inj h
        exact .take hphase hinput hstream hheld
      next error herror =>
        obtain rfl := Option.some.inj h
        exact .takeRefused hphase hinput hstream
          (ExchangeBufferManager.takeReceiver_eq_error_iff.mp ⟨error, herror⟩)
  | wait t ids =>
      simp only [step, ExecState.wait, Option.ite_none_right_eq_some, Option.some.injEq] at h
      obtain ⟨⟨hphase, hne, hopen⟩, rfl⟩ := h
      exact .wait hphase hne hopen
  | receive t id =>
      simp only [step, receive, Option.ite_none_right_eq_some] at h
      obtain ⟨⟨hphase, hstream⟩, h⟩ := h
      split at h
      · cases h
      next item manager hrecv =>
        obtain ⟨queue, hentry, rfl⟩ := ExchangeBufferManager.recvPage_eq_some_iff.mp hrecv
        split at h
        next heos =>
          obtain rfl := Option.some.inj h
          exact .receiveEos hphase hstream hentry heos
        next heos =>
          split at h
          next batches hbatches =>
            obtain rfl := Option.some.inj h
            exact .receiveData hphase hstream hentry (by simpa using heos) hbatches
          next error herror =>
            obtain rfl := Option.some.inj h
            rw [failTask_setPhase]
            exact .receiveGarbled hphase hstream hentry (by simpa using heos) herror
  | yieldBatch t id =>
      simp only [step, yieldBatch] at h
      split at h
      next hphase hstream =>
        obtain rfl := Option.some.inj h
        exact .yieldBatch hphase hstream
      · cases h
  | dropStream t id =>
      simp only [step, dropStream, Option.ite_none_right_eq_some, Option.some.injEq] at h
      obtain ⟨⟨hphase, hopen⟩, rfl⟩ := h
      exact .dropStream hphase hopen
  | produce t batch =>
      simp only [step, produce, Option.ite_none_right_eq_some] at h
      obtain ⟨hphase, h⟩ := h
      split at h
      · obtain rfl := Option.some.inj h
        exact .idle hphase
      · split at h
        next routed hroute =>
          obtain rfl := Option.some.inj h
          refine .route hphase fun part hpart => ?_
          obtain ⟨routedPart, hmem, rfl⟩ := List.mem_map.mp hpart
          exact List.mem_map_of_mem (mem_channels_of_routeExchangeBatch hroute routedPart hmem)
        next error _ =>
          obtain rfl := Option.some.inj h
          exact .fail (by rw [hphase]; rfl)
  | send t =>
      simp only [step, ExecState.send] at h
      split at h
      next id batch routed hphase =>
        split at h
        next manager hok =>
          obtain ⟨hopen, rfl⟩ := ExchangeBufferManager.enqueuePage_eq_ok_iff.mp hok
          obtain rfl := Option.some.inj h
          exact .send hphase hopen
        next error herror =>
          obtain rfl := Option.some.inj h
          exact .sendRefused (Or.inl ⟨batch, routed, hphase⟩)
            (ExchangeBufferManager.enqueuePage_eq_error_iff.mp ⟨error, herror⟩)
      · cases h
  | finishOutput t =>
      simp only [step, finishOutput, Option.ite_none_right_eq_some, Option.some.injEq] at h
      obtain ⟨hphase, rfl⟩ := h
      exact .finishOutput hphase
  | close t =>
      simp only [step, close] at h
      split at h
      next id ids hphase =>
        split at h
        next manager hok =>
          obtain ⟨hopen, rfl⟩ := ExchangeBufferManager.enqueuePage_eq_ok_iff.mp hok
          obtain rfl := Option.some.inj h
          exact .close hphase hopen
        next error herror =>
          obtain rfl := Option.some.inj h
          exact .sendRefused (Or.inr ⟨ids, hphase⟩)
            (ExchangeBufferManager.enqueuePage_eq_error_iff.mp ⟨error, herror⟩)
      · cases h
  | finish t =>
      simp only [step, finish, Option.ite_none_right_eq_some, Option.some.injEq] at h
      obtain ⟨hphase, rfl⟩ := h
      exact .finish hphase
  | fail t =>
      simp only [step, fail, Option.ite_none_right_eq_some, Option.some.injEq] at h
      obtain ⟨hphase, rfl⟩ := h
      exact .fail hphase

/-! ## Invariants of every network -/

/-- How far the end-of-stream pages of an instance have got. -/
def EosProgress (N : Network ι) (st : ExecState ι codec) (s : ι) : Prop :=
  match st.phase s with
  | .running | .waiting _ => ∀ id, st.eosSent s id = false
  | .sending routed =>
      (∀ id, st.eosSent s id = false) ∧ ∀ part ∈ routed, part.1 ∈ N.outputIds s
  | .closing ids => ∃ done, N.outputIds s = done ++ ids ∧
      ∀ id, st.eosSent s id = true ↔ id ∈ done
  | .finished => ∀ id ∈ N.outputIds s, st.eosSent s id = true
  | .failed _ => True

/-- An instance waits on open streams that are drained, and sends what there is to send. -/
def Phase.Settled (stream : ExchangeId → StreamState) : Phase ι → Prop
  | .waiting ids => ids ≠ [] ∧ ∀ id ∈ ids, stream id = .opened []
  | .sending routed => routed ≠ []
  | _ => True

/-- What holds in every state. -/
structure ExecInv (N : Network ι) (st : ExecState ι codec) : Prop where
  opened_input : ∀ t id, st.stream t id ≠ .unopened → id ∈ N.inputs t
  settled : ∀ t, (st.phase t).Settled (st.stream t)
  eosProgress : ∀ s, EosProgress N st s

omit [DecidableEq ι] in
/-- Progress depends on the instance's own phase and pages only. -/
theorem EosProgress.congr {N : Network ι} {st st' : ExecState ι codec} {s : ι}
    (hphase : st'.phase s = st.phase s) (heos : st'.eosSent s = st.eosSent s)
    (h : EosProgress N st s) : EosProgress N st' s := by
  rwa [EosProgress, hphase, heos]

omit [DecidableEq ι] in
/-- Whoever can receive has not sent end-of-stream yet. -/
theorem EosProgress.eosSent_of_canReceive {N : Network ι} {st : ExecState ι codec} {s : ι}
    {id : ExchangeId} (h : EosProgress N st s) (hphase : (st.phase s).canReceive id = true) :
    ∀ id, st.eosSent s id = false := by
  unfold EosProgress at h
  cases hp : st.phase s with
  | running => simpa [hp] using h
  | waiting ids => simpa [hp] using h
  | sending routed => simp [hp, Phase.canReceive] at hphase
  | closing ids => simp [hp, Phase.canReceive] at hphase
  | finished => simp [hp, Phase.canReceive] at hphase
  | failed cause => simp [hp, Phase.canReceive] at hphase

/-- A move of an instance keeps its progress. -/
theorem Move.eosProgress {N : Network ι} {st st' : ExecState ι codec} (h : Move N st st')
    (hst : ∀ s, EosProgress N st s) (s : ι) : EosProgress N st' s := by
  have hs := hst s
  -- only the instance that moves has to be looked at
  have hkeep : ∀ {t : ι} {p : Phase ι} {st₁ : ExecState ι codec}, st₁.phase = st.phase →
      (s ≠ t → st₁.eosSent s = st.eosSent s) → (s = t → EosProgress N (st₁.setPhase t p) s) →
      EosProgress N (st₁.setPhase t p) s := by
    intro t p st₁ hphase heos hself
    by_cases hst : s = t
    · exact hself hst
    · exact hs.congr (by simp [hphase, hst]) (by simp [heos hst])
  have hnone : ∀ id, (st.phase s).canReceive id = true → ∀ id, st.eosSent s id = false :=
    fun id hphase => hs.eosSent_of_canReceive hphase
  have hrunning : st.phase s = .running → ∀ id, st.eosSent s id = false :=
    fun hphase => hnone 0 (by rw [hphase]; rfl)
  have hfailed : ∀ {t : ι} {cause : Failure ι} {st₁ : ExecState ι codec}, st₁.phase = st.phase →
      st₁.eosSent = st.eosSent → EosProgress N (st₁.failTask N t cause) s := by
    intro t cause st₁ hphase heos
    refine hkeep hphase (fun _ => by simp [heos]) fun heq => ?_
    subst heq
    simp [EosProgress]
  cases h with
  | idle _ => exact hs
  | wait hphase _ _ =>
      refine hkeep rfl (fun _ => rfl) fun heq => ?_
      subst heq
      simpa [EosProgress] using hrunning hphase
  | @route t routed hphase hrouted =>
      refine hkeep rfl (fun _ => rfl) fun heq => ?_
      subst heq
      cases routed with
      | nil => simpa [EosProgress, Phase.afterSend] using hrunning hphase
      | cons part routed =>
          have hstart : (∀ id, st.eosSent s id = false) ∧
              ∀ part' ∈ part :: routed, part'.1 ∈ N.outputIds s := ⟨hrunning hphase, hrouted⟩
          simpa [EosProgress, Phase.afterSend] using hstart
  | finishOutput hphase =>
      refine hkeep rfl (fun _ => rfl) fun heq => ?_
      subst heq
      have hstart : ∃ done, N.outputIds s = done ++ N.outputIds s ∧
          ∀ id, st.eosSent s id = true ↔ id ∈ done :=
        ⟨[], rfl, fun id => by simp [hrunning hphase id]⟩
      simpa [EosProgress] using hstart
  | take hphase _ _ _ => exact hs.congr rfl rfl
  | @receiveData t id _ _ _ hphase _ _ _ _ =>
      refine hkeep rfl (fun _ => rfl) fun heq => ?_
      subst heq
      simpa [EosProgress] using hnone id hphase
  | @receiveEos t id _ _ hphase _ _ _ =>
      refine hkeep rfl (fun _ => rfl) fun heq => ?_
      subst heq
      simpa [EosProgress] using hnone id hphase
  | receiveGarbled _ _ _ _ _ => exact hfailed rfl rfl
  | yieldBatch _ _ => exact hs.congr rfl rfl
  | dropStream _ _ => exact hs.congr rfl rfl
  | @send t id batch routed hphase _ =>
      refine hkeep rfl (fun _ => rfl) fun heq => ?_
      subst heq
      rw [EosProgress, hphase] at hs
      obtain ⟨hnone, hrouted⟩ := hs
      cases routed with
      | nil => simpa [EosProgress, Phase.afterSend] using hnone
      | cons part routed =>
          have hrest : (∀ id, st.eosSent s id = false) ∧
              ∀ part' ∈ part :: routed, part'.1 ∈ N.outputIds s :=
            ⟨hnone, fun part' hmem => hrouted part' (List.mem_cons_of_mem _ hmem)⟩
          simpa [EosProgress, Phase.afterSend] using hrest
  | @close t id ids hphase _ =>
      refine hkeep rfl (fun hne => funext fun id' => update₂_of_ne_left _ hne _ _ _) fun heq => ?_
      subst heq
      rw [EosProgress, hphase] at hs
      obtain ⟨done, hids, hdone⟩ := hs
      have hnext : ∃ done', N.outputIds s = done' ++ ids ∧
          ∀ id', update₂ st.eosSent s id true s id' = true ↔ id' ∈ done' := by
        refine ⟨done ++ [id], by simp [hids], fun id' => ?_⟩
        by_cases heq : id' = id
        · subst heq
          simp [update₂_self]
        · simp [update₂_of_ne_right _ heq, hdone, heq]
      simpa [EosProgress] using hnext
  | finish hphase =>
      refine hkeep rfl (fun _ => rfl) fun heq => ?_
      subst heq
      rw [EosProgress, hphase] at hs
      obtain ⟨done, hids, hdone⟩ := hs
      have hall : ∀ id ∈ N.outputIds s, st.eosSent s id = true := by
        intro id hid
        rw [hdone, ← List.append_nil done, ← hids]
        exact hid
      simpa [EosProgress] using hall
  | fail _ => exact hfailed rfl rfl
  | takeRefused _ _ _ _ => exact hfailed rfl rfl
  | sendRefused _ _ => exact hfailed rfl rfl

/-- A step changes the streams of one instance only, and opens no stream but an input of it. -/
theorem Move.stream_cases {N : Network ι} {st st' : ExecState ι codec} (h : Move N st st') (t : ι)
    (id : ExchangeId) (hopened : st'.stream t id ≠ .unopened) :
    st.stream t id ≠ .unopened ∨ id ∈ N.inputs t := by
  have hupdate : ∀ {u : ι} {id' : ExchangeId} {v : StreamState}, st.stream u id' ≠ .unopened →
      update₂ st.stream u id' v t id ≠ .unopened → st.stream t id ≠ .unopened := by
    intro u id' v hopen hopened
    by_cases heq : t = u ∧ id = id'
    · obtain ⟨rfl, rfl⟩ := heq
      exact hopen
    · rwa [update₂, if_neg heq] at hopened
  have hrelease : ∀ {u : ι} {st₁ : ExecState ι codec}, st₁.stream = st.stream →
      (st₁.release N u).stream t id ≠ .unopened → st.stream t id ≠ .unopened := by
    intro u st₁ hstream hopened
    rw [ExecState.stream_release, hstream] at hopened
    by_cases heq : t = u ∧ (st.stream u id).isOpen = true
    · obtain ⟨rfl, hopen⟩ := heq
      intro hun
      rw [hun] at hopen
      cases hopen
    · rwa [if_neg heq] at hopened
  cases h with
  | idle _ => exact .inl hopened
  | wait _ _ _ => exact .inl hopened
  | route _ _ => exact .inl hopened
  | finishOutput _ => exact .inl hopened
  | @take u id' _ hinput _ _ =>
      by_cases heq : t = u ∧ id = id'
      · obtain ⟨rfl, rfl⟩ := heq
        exact .inr hinput
      · exact .inl (by simpa [update₂, heq] using hopened)
  | receiveData _ hstream _ _ _ => exact .inl (hupdate (by simp [hstream]) hopened)
  | receiveEos _ hstream _ _ => exact .inl (hupdate (by simp [hstream]) hopened)
  | receiveGarbled _ _ _ _ _ => exact .inl (hrelease rfl hopened)
  | yieldBatch _ hstream => exact .inl (hupdate (by simp [hstream]) hopened)
  | dropStream _ hopen =>
      refine .inl (hupdate (fun hun => ?_) hopened)
      rw [hun] at hopen
      cases hopen
  | send _ _ => exact .inl hopened
  | close _ _ => exact .inl hopened
  | finish _ => exact .inl (hrelease rfl hopened)
  | fail _ => exact .inl (hrelease rfl hopened)
  | takeRefused _ _ _ _ => exact .inl (hrelease rfl hopened)
  | sendRefused _ _ => exact .inl (hrelease rfl hopened)

omit [DecidableEq ι] in
theorem Phase.settled_afterSend (stream : ExchangeId → StreamState)
    (routed : List (ExchangeId × RecordBatch)) :
    (Phase.afterSend routed : Phase ι).Settled stream := by
  cases routed with
  | nil => trivial
  | cons part routed => exact List.cons_ne_nil _ _

omit [DecidableEq ι] in
theorem Phase.settled_of_isTerminated (stream : ExchangeId → StreamState) {p : Phase ι}
    (h : p.isTerminated = true) : p.Settled stream := by
  cases p with
  | finished => trivial
  | failed cause => trivial
  | running => trivial
  | waiting ids => cases h
  | sending routed => cases h
  | closing ids => trivial

/-- Every move is a move of one instance, which ends up in a settled phase. -/
theorem Move.actor {N : Network ι} {st st' : ExecState ι codec} (h : Move N st st') :
    ∃ u, (∀ t, t ≠ u → st'.phase t = st.phase t ∧ st'.stream t = st.stream t) ∧
      (st'.phase u).Settled (st'.stream u) := by
  have hstream : ∀ {u t : ι} {id : ExchangeId} {v : StreamState}, t ≠ u →
      update₂ st.stream u id v t = st.stream t :=
    fun ht => funext fun id' => update₂_of_ne_left _ ht _ _ _
  have hreleased : ∀ {u : ι} {p : Phase ι} {st₁ : ExecState ι codec}, st₁.phase = st.phase →
      st₁.stream = st.stream → p.isTerminated = true →
      ∃ v, (∀ t, t ≠ v → ((st₁.release N u).setPhase u p).phase t = st.phase t ∧
        ((st₁.release N u).setPhase u p).stream t = st.stream t) ∧
        (((st₁.release N u).setPhase u p).phase v).Settled
          (((st₁.release N u).setPhase u p).stream v) := by
    intro u p st₁ hphase₁ hstream₁ hterm
    refine ⟨u, fun t ht => ⟨by simp [ht, hphase₁], funext fun id => ?_⟩, ?_⟩
    · rw [ExecState.stream_setPhase, ExecState.stream_release, if_neg (fun heq => ht heq.1),
        hstream₁]
    · rw [ExecState.phase_setPhase, Function.update_self]
      exact Phase.settled_of_isTerminated _ hterm
  cases h with
  | @idle t hrunning => exact ⟨t, fun _ _ => ⟨rfl, rfl⟩, by rw [hrunning]; trivial⟩
  | @wait t ids _ hne hopen =>
      exact ⟨t, fun u hu => ⟨by simp [hu], rfl⟩, by simpa using ⟨hne, hopen⟩⟩
  | @route t routed _ _ =>
      exact ⟨t, fun u hu => ⟨by simp [hu], rfl⟩, by simpa using Phase.settled_afterSend _ _⟩
  | @finishOutput t _ => exact ⟨t, fun u hu => ⟨by simp [hu], rfl⟩, by simp [Phase.Settled]⟩
  | @take t id hrunning _ _ _ =>
      exact ⟨t, fun u hu => ⟨rfl, hstream hu⟩, by simp [hrunning, Phase.Settled]⟩
  | @receiveData t id _ _ _ _ _ _ _ _ =>
      exact ⟨t, fun u hu => ⟨by simp [hu], hstream hu⟩, by simp [Phase.Settled]⟩
  | @receiveEos t id _ _ _ _ _ _ =>
      exact ⟨t, fun u hu => ⟨by simp [hu], hstream hu⟩, by simp [Phase.Settled]⟩
  | receiveGarbled _ _ _ _ _ => exact hreleased rfl rfl rfl
  | @yieldBatch t id _ _ hrunning _ =>
      exact ⟨t, fun u hu => ⟨rfl, hstream hu⟩, by simp [hrunning, Phase.Settled]⟩
  | @dropStream t id hrunning _ =>
      exact ⟨t, fun u hu => ⟨rfl, hstream hu⟩, by simp [hrunning, Phase.Settled]⟩
  | @send t id batch routed _ _ =>
      exact ⟨t, fun u hu => ⟨by simp [hu], rfl⟩, by simpa using Phase.settled_afterSend _ _⟩
  | @close t id ids _ _ => exact ⟨t, fun u hu => ⟨by simp [hu], rfl⟩, by simp [Phase.Settled]⟩
  | finish _ => exact hreleased rfl rfl rfl
  | fail _ => exact hreleased rfl rfl rfl
  | takeRefused _ _ _ _ => exact hreleased rfl rfl rfl
  | sendRefused _ _ => exact hreleased rfl rfl rfl

/-- How an instance comes to fail. -/
theorem Move.failed_cases {N : Network ι} {st st' : ExecState ι codec} (h : Move N st st') {t : ι}
    {cause : Failure ι} (hfailed : st'.phase t = .failed cause) :
    st.phase t = .failed cause ∨ cause = .own ∨
    (∃ id, cause = .receiverAlreadyTaken id (st.taker id) ∧ st.phase t = .running ∧
      id ∈ N.inputs t ∧ st.stream t id = .unopened ∧ (st.manager.entry id).receiver ≠ .held) ∨
    (∃ id, cause = .receiverClosed id (st.taker id) ∧ (st.phase t).SendsTo id ∧
      (st.manager.entry id).receiver = .dropped) := by
  have hset : ∀ {u : ι} {p : Phase ι}, Function.update st.phase u p t = .failed cause →
      st.phase t = .failed cause ∨ (u = t ∧ p = .failed cause) := by
    intro u p hphase
    by_cases ht : u = t
    · subst ht
      rw [Function.update_self] at hphase
      exact .inr ⟨rfl, hphase⟩
    · rw [Function.update_of_ne (Ne.symm ht)] at hphase
      exact .inl hphase
  -- a move into a phase that is not a failure
  have hquiet : ∀ {u : ι} {p : Phase ι}, p.isFailed = false →
      Function.update st.phase u p t = .failed cause → st.phase t = .failed cause := by
    intro u p hp hphase
    rcases hset hphase with hsame | ⟨-, rfl⟩
    · exact hsame
    · cases hp
  have hafter : ∀ routed, (Phase.afterSend routed : Phase ι).isFailed = false := by
    intro routed
    cases routed <;> rfl
  cases h with
  | idle _ => exact .inl hfailed
  | wait _ _ _ => exact .inl (hquiet rfl hfailed)
  | route _ _ => exact .inl (hquiet (hafter _) hfailed)
  | finishOutput _ => exact .inl (hquiet rfl hfailed)
  | take _ _ _ _ => exact .inl hfailed
  | receiveData _ _ _ _ _ => exact .inl (hquiet rfl hfailed)
  | receiveEos _ _ _ _ => exact .inl (hquiet rfl hfailed)
  | receiveGarbled _ _ _ _ _ =>
      rcases hset hfailed with hsame | ⟨-, hcause⟩
      · exact .inl hsame
      · exact .inr (.inl (Phase.failed.inj hcause).symm)
  | yieldBatch _ _ => exact .inl hfailed
  | dropStream _ _ => exact .inl hfailed
  | send _ _ => exact .inl (hquiet (hafter _) hfailed)
  | close _ _ => exact .inl (hquiet rfl hfailed)
  | finish _ => exact .inl (hquiet rfl hfailed)
  | fail _ =>
      rcases hset hfailed with hsame | ⟨-, hcause⟩
      · exact .inl hsame
      · exact .inr (.inl (Phase.failed.inj hcause).symm)
  | @takeRefused u id hphase hinput hstream hheld =>
      rcases hset hfailed with hsame | ⟨rfl, hcause⟩
      · exact .inl hsame
      · exact .inr (.inr (.inl ⟨id, (Phase.failed.inj hcause).symm, hphase, hinput, hstream, hheld⟩))
  | @sendRefused u id hphase hdropped =>
      rcases hset hfailed with hsame | ⟨rfl, hcause⟩
      · exact .inl hsame
      · exact .inr (.inr (.inr ⟨id, (Phase.failed.inj hcause).symm, hphase, hdropped⟩))

omit [DecidableEq ι] in
/-- The invariants hold at the start. -/
theorem ExecInv.init (N : Network ι) (manager : ExchangeBufferManager ι codec) :
    ExecInv N (ExecState.init manager) where
  opened_input _ _ h := absurd rfl h
  settled _ := trivial
  eosProgress _ _ := rfl

/-- The invariants are kept by every move. -/
theorem ExecInv.move {N : Network ι} {st st' : ExecState ι codec} (hinv : ExecInv N st)
    (h : Move N st st') : ExecInv N st' where
  opened_input t id hopened := by
    rcases h.stream_cases t id hopened with hopen | hinput
    · exact hinv.opened_input t id hopen
    · exact hinput
  settled t := by
    obtain ⟨u, hother, hsettled⟩ := h.actor
    by_cases ht : t = u
    · subst ht
      exact hsettled
    · obtain ⟨hphase, hstream⟩ := hother t ht
      rw [hphase, hstream]
      exact hinv.settled t
  eosProgress := h.eosProgress hinv.eosProgress

omit [DecidableEq ι] in
/-- Pages are sent on output channels. -/
theorem ExecInv.mem_outputIds_of_sendsTo {N : Network ι} {st : ExecState ι codec}
    (hinv : ExecInv N st) {s : ι} {id : ExchangeId} (h : (st.phase s).SendsTo id) :
    id ∈ N.outputIds s := by
  have hprogress := hinv.eosProgress s
  rcases h with ⟨batch, routed, hphase⟩ | ⟨ids, hphase⟩
  · rw [EosProgress, hphase] at hprogress
    exact hprogress.2 (id, batch) List.mem_cons_self
  · rw [EosProgress, hphase] at hprogress
    obtain ⟨done, hids, -⟩ := hprogress
    simp [hids]

end BrewDB

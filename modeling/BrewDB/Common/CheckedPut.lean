import BrewDB.Common.Transition
import BrewDB.Common.TwoIndex

/-!
# Clients that check a key and then write it

Each client looks whether a key is taken, works for a while, and writes an entry of its own under the key.
Nothing holds the key in between, so that two clients may write one after the other. At most one client
writes exactly if every write finds the key free.
-/

namespace BrewDB.CheckedPut

universe u v w x

variable {ι : Type x} {K : Type u} {I : Type v} {E : Type w} [DecidableEq ι] [LinearOrder K] [LinearOrder I]

/-- How far a client is. -/
inductive Phase where
  | idle
  | working
  | failed
  | won
deriving DecidableEq

/-- The entries, and the phases of the clients. -/
structure State (ι : Type x) (K : Type u) (I : Type v) (E : Type w) [LinearOrder K] [LinearOrder I] where
  index : TwoIndex K I E
  phase : ι → Phase

/-- The state after client `i` has come to phase `p`. -/
def State.next (s : State ι K I E) (index : TwoIndex K I E) (i : ι) (p : Phase) : State ι K I E :=
  ⟨index, Function.update s.phase i p⟩

@[simp]
theorem State.index_next (s : State ι K I E) (index : TwoIndex K I E) (i : ι) (p : Phase) :
    (s.next index i p).index = index := rfl

@[simp]
theorem State.phase_next (s : State ι K I E) (index : TwoIndex K I E) (i j : ι) (p : Phase) :
    (s.next index i p).phase j = if j = i then p else s.phase j :=
  Function.update_apply _ _ _ _

theorem State.next_self (s : State ι K I E) (i : ι) : s.next s.index i (s.phase i) = s := by
  rw [State.next, Function.update_eq_self]

/-- What one client does at a time to the entries and to its phase. -/
inductive Effect (key : E → K) (id : E → I) (k : K) (own : I) (index : TwoIndex K I E) (p : Phase) :
    TwoIndex K I E → Phase → Prop where
  | stay : Effect key id k own index p index p
  | check (hphase : p = .idle) (hfree : index.byKey.get? k = none) : Effect key id k own index p index .working
  | fail : Effect key id k own index p index .failed
  | put (e : E) (hphase : p = .working) (hkey : key e = k) (hid : id e = own) :
      Effect key id k own index p (index.put key id e) .won

/-- A client moves: it has not written yet, and the others stay where they are. -/
def Move (key : E → K) (id : E → I) (k : K) (own : ι → I) (s : State ι K I E) (i : ι) (s' : State ι K I E) :
    Prop :=
  s.phase i ≠ .won ∧
    ∃ index' p', Effect key id k (own i) s.index (s.phase i) index' p' ∧ s' = s.next index' i p'

/-- The key is free wherever a client writes it. -/
def PutsFree (k : K) (s : State ι K I E) (i : ι) (s' : State ι K I E) : Prop :=
  s'.phase i = .won → s.index.byKey.get? k = none

/-- At most one client has written. -/
def AtMostOne (s : State ι K I E) : Prop := ∀ i j, s.phase i = .won → s.phase j = .won → i = j

variable {key : E → K} {id : E → I} {k : K} {own : ι → I} {s s' : State ι K I E} {i : ι}

/-- What holds while every write finds the key free. -/
structure Inv (key : E → K) (id : E → I) (k : K) (own : ι → I) (s : State ι K I E) : Prop where
  consistent : TwoIndex.Consistent key id s.index
  won : ∀ i, s.phase i = .won → ∃ e, s.index.byKey.get? k = some e ∧ id e = own i
  unused : ∀ i, s.phase i ≠ .won → s.index.byId.get? (own i) = none

theorem Inv.move (h : Inv key id k own s) (hown : Function.Injective own) (hmove : Move key id k own s i s')
    (hfree : PutsFree k s i s') : Inv key id k own s' := by
  obtain ⟨hnot, index', p', heffect, rfl⟩ := hmove
  -- a move that writes nothing
  have hsame : p' ≠ .won → index' = s.index → Inv key id k own (s.next index' i p') := by
    rintro hp' rfl
    refine ⟨h.consistent, fun j hj => ?_, fun j hj => ?_⟩
    · rw [State.phase_next] at hj
      split_ifs at hj
      · exact absurd hj hp'
      · exact h.won j hj
    · apply h.unused
      rw [State.phase_next] at hj
      split_ifs at hj with heq
      · rw [heq]
        exact hnot
      · exact hj
  cases heffect with
  | stay => exact hsame hnot rfl
  | check _ _ => exact hsame nofun rfl
  | fail => exact hsame nofun rfl
  | put e _ hkey hid =>
      have hnone := hfree (by rw [State.phase_next, if_pos rfl])
      refine ⟨h.consistent.put (fun e' he' => ?_) (fun e' he' => ?_), fun j hj => ?_, fun j hj => ?_⟩
      · rw [hkey, hnone] at he'
        cases he'
      · rw [hid, h.unused i hnot] at he'
        cases he'
      · rw [State.phase_next] at hj
        split_ifs at hj with heq
        · refine ⟨e, ?_, heq ▸ hid⟩
          rw [State.index_next, TwoIndex.get?_put, if_pos hkey.symm]
        · obtain ⟨e', he', -⟩ := h.won j hj
          rw [hnone] at he'
          cases he'
      · rw [State.phase_next] at hj
        split_ifs at hj with heq
        · exact absurd rfl hj
        · have hne : own j ≠ own i := fun hsame => heq (hown hsame)
          rw [State.index_next, TwoIndex.put, BTreeMap.get?_insert, hid, if_neg hne]
          exact h.unused j hj

omit [DecidableEq ι] in
theorem Inv.atMostOne (h : Inv key id k own s) (hown : Function.Injective own) : AtMostOne s := by
  intro i j hi hj
  obtain ⟨e, he, hid⟩ := h.won i hi
  obtain ⟨e', he', hid'⟩ := h.won j hj
  rw [he] at he'
  cases he'
  exact hown (hid.symm.trans hid')

omit [DecidableEq ι] in
/-- The entry of the client that wrote is the only one with the key. -/
theorem Inv.only (h : Inv key id k own s) (hi : s.phase i = .won) :
    ∃ e, s.index.byKey.get? k = some e ∧ id e = own i ∧ s.index.byId.get? (own i) = some e ∧
      ∀ i' e', s.index.byId.get? i' = some e' → key e' = k → i' = own i := by
  obtain ⟨e, he, hid⟩ := h.won i hi
  have hbyId := (h.consistent.of_key k e he).2
  rw [hid] at hbyId
  refine ⟨e, he, hid, hbyId, fun i' e' he' hkey => ?_⟩
  obtain ⟨hid', hbyKey⟩ := h.consistent.of_id i' e' he'
  rw [hkey, he] at hbyKey
  cases hbyKey
  exact hid'.symm.trans hid

/-- A key that is taken while a client works was taken by another client. -/
def TakenByOther (k : K) (s : State ι K I E) : Prop :=
  ∀ i, s.phase i = .working → s.index.byKey.get? k ≠ none → ∃ j, j ≠ i ∧ s.phase j = .won

theorem TakenByOther.move (h : TakenByOther k s) (hmove : Move key id k own s i s') : TakenByOther k s' := by
  obtain ⟨hnot, index', p', heffect, rfl⟩ := hmove
  -- who has written stays so
  have hkeep : ∀ {l}, (∃ j, j ≠ l ∧ s.phase j = .won) → ∃ j, j ≠ l ∧ (s.next index' i p').phase j = .won := by
    rintro l ⟨j, hne, hj⟩
    refine ⟨j, hne, ?_⟩
    rw [State.phase_next, if_neg, hj]
    rintro rfl
    exact hnot hj
  cases heffect with
  | stay =>
      rw [State.next_self]
      exact h
  | check _ hfree =>
      intro l _ htaken
      exact absurd hfree htaken
  | fail =>
      intro l hl htaken
      rw [State.phase_next] at hl
      split_ifs at hl
      exact hkeep (h l hl htaken)
  | put e _ _ _ =>
      intro l hl _
      rw [State.phase_next] at hl
      split_ifs at hl with heq
      exact ⟨i, fun hi => heq hi.symm, by rw [State.phase_next, if_pos rfl]⟩

/-- If at most one client has written after a move, the move found the key free. -/
theorem TakenByOther.putsFree (h : TakenByOther k s) (hmove : Move key id k own s i s') (hone : AtMostOne s') :
    PutsFree k s i s' := by
  intro hwon
  obtain ⟨hnot, index', p', heffect, rfl⟩ := hmove
  rw [State.phase_next, if_pos rfl] at hwon
  cases heffect with
  | stay => exact absurd hwon hnot
  | check _ _ => cases hwon
  | fail => cases hwon
  | put e hphase _ _ =>
      by_contra htaken
      obtain ⟨j, hne, hj⟩ := h i hphase htaken
      refine hne (hone j i ?_ ?_)
      · rw [State.phase_next, if_neg hne]
        exact hj
      · rw [State.phase_next, if_pos rfl]

/-! ## Systems of clients -/

/-- In a system whose steps are moves of clients, a property that says that at most one client has written,
and that holds as long as every write finds the key free, holds along a run exactly if every write does. -/
theorem along_iff {σ : Type*} {step : σ → ι → Option σ} {view : σ → State ι K I E} {J Q : σ → Prop}
    {P : σ → ι → σ → Prop} (hown : Function.Injective own)
    (hstep : ∀ s i s', J s → step s i = some s' →
      J s' ∧ Move key id k own (view s) i (view s') ∧ (P s i s' ↔ PutsFree k (view s) i (view s')))
    (hinv : ∀ s, J s → Inv key id k own (view s) → Q s) (hone : ∀ s, J s → Q s → AtMostOne (view s))
    {s : σ} (hJ : J s) (hstart : Inv key id k own (view s)) (hidle : ∀ i, (view s).phase i = .idle)
    (as : List ι) : Transition.Along step (fun _ _ s' => Q s') s as ↔ Transition.Along step P s as := by
  constructor
  · refine fun hQ => Transition.along_of_along (I := fun s => J s ∧ TakenByOther k (view s))
      (fun s i s' hs hs' hQ' => ?_) ⟨hJ, fun i hi => ?_⟩ hQ
    · obtain ⟨hJ', hmove, hP⟩ := hstep s i s' hs.1 hs'
      exact ⟨⟨hJ', hs.2.move hmove⟩, hP.mpr (hs.2.putsFree hmove (hone s' hJ' hQ'))⟩
    · rw [hidle i] at hi
      cases hi
  · refine fun hP => Transition.along_of_along (I := fun s => J s ∧ Inv key id k own (view s))
      (fun s i s' hs hs' hfree => ?_) ⟨hJ, hstart⟩ hP
    obtain ⟨hJ', hmove, hP⟩ := hstep s i s' hs.1 hs'
    have hinv' := hs.2.move hown hmove (hP.mp hfree)
    exact ⟨⟨hJ', hinv'⟩, hinv s' hJ' hinv'⟩

end BrewDB.CheckedPut

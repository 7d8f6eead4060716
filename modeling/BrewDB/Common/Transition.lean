import Mathlib

/-!
# Runs of a transition function

A system given by a partial step function: an action is enabled in a state if the function is defined
there. Runs are lists of actions, and invariants are proved one step at a time.
-/

namespace BrewDB.Transition

universe u v

variable {σ : Type u} {α : Type v} (step : σ → α → Option σ)

/-- Execute a list of actions. -/
def exec : σ → List α → Option σ
  | s, [] => some s
  | s, a :: as => (step s a).bind fun s' => exec s' as

/-- Every step of the run satisfies `P`. -/
def Along (P : σ → α → σ → Prop) : σ → List α → Prop
  | _, [] => True
  | s, a :: as => ∀ s', step s a = some s' → P s a s' ∧ Along P s' as

/-- A run can be checked step by step. -/
instance decidableAlong (P : σ → α → σ → Prop) [∀ s a s', Decidable (P s a s')] :
    ∀ (s : σ) (as : List α), Decidable (Along step P s as)
  | _, [] => isTrue trivial
  | s, a :: as =>
      match h : step s a with
      | none => isTrue fun _ hs' => nomatch h.symm.trans hs'
      | some mid =>
          have := decidableAlong P mid as
          decidable_of_iff (P s a mid ∧ Along step P mid as)
            ⟨fun hmid _ hs' => Option.some.inj (h.symm.trans hs') ▸ hmid, fun hall => hall mid h⟩

variable {step}

/-- A non-empty run is a step and a run. -/
theorem exec_cons {s s'' : σ} {a : α} {as : List α} :
    exec step s (a :: as) = some s'' ↔ ∃ s', step s a = some s' ∧ exec step s' as = some s'' :=
  Option.bind_eq_some_iff

/-- A property that steps preserve is preserved by runs. -/
theorem invariant_of_exec {I : σ → Prop} (hstep : ∀ s a s', I s → step s a = some s' → I s')
    {s s' : σ} {as : List α} (hs : I s) (h : exec step s as = some s') : I s' := by
  induction as generalizing s with
  | nil =>
      obtain rfl := Option.some.inj h
      exact hs
  | cons a as ih =>
      obtain ⟨mid, hmid, h⟩ := exec_cons.mp h
      exact ih (hstep s a mid hs hmid) h

/-- If every step uses up some of a measure, the measure bounds the length of runs. -/
theorem length_add_le_of_exec {μ : σ → ℕ} (hstep : ∀ s a s', step s a = some s' → μ s' < μ s)
    {s s' : σ} {as : List α} (h : exec step s as = some s') : as.length + μ s' ≤ μ s := by
  induction as generalizing s with
  | nil =>
      obtain rfl := Option.some.inj h
      simp
  | cons a as ih =>
      obtain ⟨mid, hmid, h⟩ := exec_cons.mp h
      have hfirst := hstep s a mid hmid
      have hrest := ih h
      simp only [List.length_cons]
      omega

/-- A property that the steps with `P` preserve is preserved by runs all of whose steps have `P`. -/
theorem invariant_of_along {I : σ → Prop} {P : σ → α → σ → Prop}
    (hstep : ∀ s a s', I s → step s a = some s' → P s a s' → I s') {s s' : σ} {as : List α}
    (hs : I s) (h : exec step s as = some s') (hP : Along step P s as) : I s' := by
  induction as generalizing s with
  | nil =>
      obtain rfl := Option.some.inj h
      exact hs
  | cons a as ih =>
      obtain ⟨mid, hmid, h⟩ := exec_cons.mp h
      obtain ⟨hmidP, hrest⟩ := hP mid hmid
      exact ih (hstep s a mid hs hmid hmidP) h hrest

/-- If the steps with `P` preserve an invariant and have `Q`, a run all of whose steps have `P` has only
steps with `Q`. -/
theorem along_of_along {I : σ → Prop} {P Q : σ → α → σ → Prop}
    (hstep : ∀ s a s', I s → step s a = some s' → P s a s' → I s' ∧ Q s a s') {s : σ} {as : List α}
    (hs : I s) (hP : Along step P s as) : Along step Q s as := by
  induction as generalizing s with
  | nil => trivial
  | cons a as ih =>
      intro s' hs'
      obtain ⟨hfirst, hrest⟩ := hP s' hs'
      obtain ⟨hI, hQ⟩ := hstep s a s' hs hs' hfirst
      exact ⟨hQ, ih hI hrest⟩

/-- The last step of a run all of whose steps have `P`. -/
theorem last_of_along {P : σ → α → σ → Prop} {s s' : σ} {as : List α} {a : α}
    (hP : Along step P s (as ++ [a])) (h : exec step s (as ++ [a]) = some s') : ∃ mid, P mid a s' := by
  induction as generalizing s with
  | nil =>
      obtain ⟨mid, hmid, h⟩ := exec_cons.mp h
      obtain rfl := Option.some.inj h
      exact ⟨s, (hP mid hmid).1⟩
  | cons b as ih =>
      obtain ⟨mid, hmid, h⟩ := exec_cons.mp h
      exact ih (hP mid hmid).2 h

/-- If whatever violates `P` leaves a trace that no later step removes, a run without the trace has
only steps with `P`. -/
theorem along_of_no_trace {I : σ → Prop} {P : σ → α → σ → Prop} {T : σ → Prop}
    (hinv : ∀ s a s', I s → step s a = some s' → I s')
    (hleave : ∀ s a s', I s → step s a = some s' → ¬ P s a s' → T s')
    (hkeep : ∀ s a s', I s → step s a = some s' → T s → T s') {s s' : σ} {as : List α}
    (hs : I s) (h : exec step s as = some s') (hnone : ¬ T s') : Along step P s as := by
  have hback : ∀ as s, I s → exec step s as = some s' → ¬ T s := by
    intro as
    induction as with
    | nil =>
        intro s _ h
        obtain rfl := Option.some.inj h
        exact hnone
    | cons a as ih =>
        intro s hs h htrace
        obtain ⟨mid, hmid, h⟩ := exec_cons.mp h
        exact ih mid (hinv s a mid hs hmid) h (hkeep s a mid hs hmid htrace)
  induction as generalizing s with
  | nil => trivial
  | cons a as ih =>
      obtain ⟨mid, hmid, h⟩ := exec_cons.mp h
      intro mid' hmid'
      obtain rfl := Option.some.inj (hmid.symm.trans hmid')
      have hmidI := hinv s a mid hs hmid
      refine ⟨?_, ih hmidI h⟩
      by_contra hviolates
      exact hback as mid hmidI h (hleave s a mid hs hmid hviolates)

end BrewDB.Transition

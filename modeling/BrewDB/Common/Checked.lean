import Mathlib

/-!
# Computations that may panic

A computation ends with a value or an error, or it panics; a loop that has used its rounds up is left unfinished.
The rounds of its loops are counted. Credits bound them: each round pays for itself, and a value leaves the rest
of the credits to what comes after.
-/

namespace Checked

/-- How a computation ends. -/
inductive Outcome (ε α : Type) where
  | value (a : α)
  | error (error : ε)
  | panic
  | unfinished
deriving DecidableEq, Repr

/-- A computation: how it ends, after how many rounds of its loops. -/
structure Run (ε α : Type) where
  outcome : Outcome ε α
  rounds : ℕ
deriving DecidableEq, Repr

variable {ε α β σ : Type}

namespace Run

/-- A value. -/
def ret (a : α) : Run ε α := ⟨.value a, 0⟩

/-- An error. -/
def fail (error : ε) : Run ε α := ⟨.error error, 0⟩

/-- A panic. -/
def abort : Run ε α := ⟨.panic, 0⟩

/-- One computation after the other. -/
def andThen (run : Run ε α) (next : α → Run ε β) : Run ε β :=
  match run.outcome with
  | .value a => ⟨(next a).outcome, run.rounds + (next a).rounds⟩
  | .error error => ⟨.error error, run.rounds⟩
  | .panic => ⟨.panic, run.rounds⟩
  | .unfinished => ⟨.unfinished, run.rounds⟩

instance : Monad (Run ε) where
  pure := ret
  bind := andThen

/-- The round of a loop. -/
def round : Run ε Unit := ⟨.value (), 1⟩

/-- A loop whose body says whether it goes on or is left; it may run this often. -/
def whileLoop (test : σ → Run ε Bool) (body : σ → Run ε (σ ⊕ σ)) : ℕ → σ → Run ε σ
  | 0, s => do
      let go ← test s
      if go then ⟨.unfinished, 0⟩ else ret s
  | limit + 1, s => do
      let go ← test s
      if go then do
        round
        match ← body s with
        | .inl s => whileLoop test body limit s
        | .inr s => pure s
      else ret s

/-- `for _ in 0..count`. -/
def repeatLoop (body : σ → Run ε σ) : ℕ → σ → Run ε σ
  | 0, s => ret s
  | count + 1, s => do
      round
      let s ← body s
      repeatLoop body count s

/-! ## Values -/

/-- The computation ends with this value. -/
def Returns (run : Run ε α) (a : α) : Prop := run.outcome = .value a

theorem returns_pure (a : α) : Returns (pure a : Run ε α) a := rfl

theorem outcome_bind {run : Run ε α} {a : α} (h : Returns run a) (next : α → Run ε β) :
    (run >>= next).outcome = (next a).outcome := by
  show (andThen run next).outcome = _
  rw [andThen, h]

theorem Returns.bind {run : Run ε α} {next : α → Run ε β} {a : α} {b : β} (h : Returns run a)
    (hnext : Returns (next a) b) : Returns (run >>= next) b := by
  rw [Returns, outcome_bind h]
  exact hnext

section

variable {test : σ → Run ε Bool} {body : σ → Run ε (σ ⊕ σ)} {s : σ}

/-- Leaving a loop. -/
theorem returns_whileLoop_done (limit : ℕ) (htest : Returns (test s) false) :
    Returns (whileLoop test body limit s) s := by
  cases limit with
  | zero => exact htest.bind rfl
  | succ limit => exact htest.bind rfl

/-- A round that goes on. -/
theorem returns_whileLoop_next {s' t : σ} {limit : ℕ} (htest : Returns (test s) true)
    (hbody : Returns (body s) (.inl s')) (hrest : Returns (whileLoop test body limit s') t) :
    Returns (whileLoop test body (limit + 1) s) t := by
  refine htest.bind ?_
  refine Returns.bind (a := ()) rfl ?_
  exact hbody.bind hrest

/-- A round that leaves the loop. -/
theorem returns_whileLoop_break {t : σ} {limit : ℕ} (htest : Returns (test s) true)
    (hbody : Returns (body s) (.inr t)) : Returns (whileLoop test body (limit + 1) s) t := by
  refine htest.bind ?_
  refine Returns.bind (a := ()) rfl ?_
  exact hbody.bind rfl

end

/-! ## Beside a computation that cannot panic -/

section

variable {α' β' : Type}

/-- The computation ends as the result does, with a related value. -/
def Matches (R : α → β → Prop) (run : Run ε α) (result : Except ε β) : Prop :=
  match result with
  | .ok b => ∃ a, Returns run a ∧ R a b
  | .error error => run.outcome = .error error

theorem matches_pure {R : α → β → Prop} {a : α} {b : β} (h : R a b) :
    Matches R (pure a : Run ε α) (.ok b) := ⟨a, rfl, h⟩

theorem matches_fail {R : α → β → Prop} (error : ε) : Matches R (fail error) (.error error) := rfl

/-- Only how a computation ends counts. -/
theorem Matches.congr {R : α → β → Prop} {run run' : Run ε α} {result : Except ε β} (h : Matches R run result)
    (hsame : run'.outcome = run.outcome) : Matches R run' result := by
  cases result with
  | ok b =>
      obtain ⟨a, ha, hrelated⟩ := h
      exact ⟨a, hsame.trans ha, hrelated⟩
  | error error => exact hsame.trans h

theorem Matches.mono {R R' : α → β → Prop} {run : Run ε α} {result : Except ε β} (h : Matches R run result)
    (himp : ∀ a b, R a b → R' a b) : Matches R' run result := by
  cases result with
  | ok b =>
      obtain ⟨a, ha, hrelated⟩ := h
      exact ⟨a, ha, himp a b hrelated⟩
  | error error => exact h

/-- Matching computations are continued by matching ones. -/
theorem Matches.bind {R : α → β → Prop} {R' : α' → β' → Prop} {run : Run ε α} {result : Except ε β}
    {next : α → Run ε α'} {next' : β → Except ε β'} (h : Matches R run result)
    (hnext : ∀ a b, R a b → Matches R' (next a) (next' b)) : Matches R' (run >>= next) (result >>= next') := by
  cases result with
  | ok b =>
      obtain ⟨a, ha, hrelated⟩ := h
      exact (hnext a b hrelated).congr (outcome_bind ha next)
  | error error =>
      replace h : run.outcome = .error error := h
      show (andThen run next).outcome = .error error
      rw [andThen, h]

/-- The value may be turned into another one at the end. -/
theorem Matches.map {R : α → β → Prop} {R' : α' → β → Prop} {run : Run ε α} {result : Except ε β}
    {f : α → α'} (h : Matches R run result) (himp : ∀ a b, R a b → R' (f a) b) :
    Matches R' (run >>= fun a => pure (f a)) result := by
  cases result with
  | ok b =>
      obtain ⟨a, ha, hrelated⟩ := h
      exact (matches_pure (himp a b hrelated)).congr (outcome_bind ha _)
  | error error =>
      replace h : run.outcome = .error error := h
      show (andThen run _).outcome = .error error
      rw [andThen, h]

/-- A value that is returned may be put in. -/
theorem Matches.of_returns {R : α' → β → Prop} {run : Run ε α} {a : α} {next : α → Run ε α'}
    {result : Except ε β} (h : Returns run a) (hnext : Matches R (next a) result) :
    Matches R (run >>= next) result :=
  hnext.congr (outcome_bind h next)

end

/-! ## Credits -/

/-- With these credits the computation ends, and a value leaves some of them over. -/
def Affords (credits : ℕ) (run : Run ε α) (post : α → ℕ → Prop) : Prop :=
  match run.outcome with
  | .value a => ∃ left, run.rounds + left = credits ∧ post a left
  | .error _ => run.rounds ≤ credits
  | .panic => False
  | .unfinished => False

/-- The computation ends with a value or an error, after at most this many rounds. -/
def EndsWithin (limit : ℕ) (run : Run ε α) : Prop :=
  run.outcome ≠ .panic ∧ run.outcome ≠ .unfinished ∧ run.rounds ≤ limit

variable {credits : ℕ} {post post' : α → ℕ → Prop}

theorem affords_pure {a : α} (h : post a credits) : Affords credits (pure a : Run ε α) post :=
  ⟨credits, Nat.zero_add credits, h⟩

theorem affords_fail (error : ε) : Affords credits (fail error : Run ε α) post := Nat.zero_le credits

theorem Affords.mono {run : Run ε α} (h : Affords credits run post)
    (hpost : ∀ a left, left ≤ credits → post a left → post' a left) : Affords credits run post' := by
  unfold Affords at h ⊢
  cases hout : run.outcome with
  | value a =>
      rw [hout] at h
      obtain ⟨left, hleft, ha⟩ := h
      exact ⟨left, hleft, hpost a left (by omega) ha⟩
  | error error =>
      rw [hout] at h
      exact h
  | panic =>
      rw [hout] at h
      exact h.elim
  | unfinished =>
      rw [hout] at h
      exact h.elim

/-- What the first computation leaves over pays for the second. -/
theorem Affords.bind {run : Run ε α} {next : α → Run ε β} {post : α → ℕ → Prop} {last : β → ℕ → Prop}
    (h : Affords credits run post)
    (hnext : ∀ a left, left ≤ credits → post a left → Affords left (next a) last) :
    Affords credits (run >>= next) last := by
  show Affords credits (andThen run next) last
  unfold Affords at h
  cases hout : run.outcome with
  | value a =>
      rw [hout] at h
      obtain ⟨left, hleft, ha⟩ := h
      have hlast := hnext a left (by omega) ha
      unfold Affords at hlast
      simp only [andThen, hout, Affords]
      cases hend : (next a).outcome with
      | value b =>
          rw [hend] at hlast
          obtain ⟨left', hleft', hb⟩ := hlast
          exact ⟨left', by omega, hb⟩
      | error error =>
          rw [hend] at hlast
          have : (next a).rounds ≤ left := hlast
          show run.rounds + (next a).rounds ≤ credits
          omega
      | panic =>
          rw [hend] at hlast
          exact hlast
      | unfinished =>
          rw [hend] at hlast
          exact hlast
  | error error =>
      rw [hout] at h
      simp only [andThen, hout, Affords]
      exact h
  | panic =>
      rw [hout] at h
      exact h.elim
  | unfinished =>
      rw [hout] at h
      exact h.elim

end Run

/-! ## Machine sizes and slices -/

/-- `usize` has this many values. -/
def usizeCard : ℕ := 2 ^ 64

/-- No allocation is larger than this. -/
def isizeMax : ℕ := 2 ^ 63 - 1

/-- A signed number `as usize`. -/
def asUsize (n : ℤ) : ℕ := (n % 2 ^ 64).toNat

/-- Addition; an overflow panics. -/
def add (a b : ℕ) : Run ε ℕ := if a + b < usizeCard then .ret (a + b) else .abort

/-- Subtraction; an overflow panics. -/
def sub (a b : ℕ) : Run ε ℕ := if b ≤ a then .ret (a - b) else .abort

/-- `checked_add`. -/
def checkedAdd (a b : ℕ) : Option ℕ := if a + b < usizeCard then some (a + b) else none

/-- Room for so many elements of this size; a capacity overflow panics. -/
def allocate (size count : ℕ) : Run ε Unit := if size * count ≤ isizeMax then .ret () else .abort

variable {byte : Type}

/-- `bytes[i]`. -/
def index (bytes : List byte) (i : ℕ) : Run ε byte :=
  match bytes[i]? with
  | some b => .ret b
  | none => .abort

/-- `bytes[start..stop]`. -/
def slice (bytes : List byte) (start stop : ℕ) : Run ε (List byte) :=
  if start ≤ stop ∧ stop ≤ bytes.length then .ret ((bytes.take stop).drop start) else .abort

/-- `bytes[start..]`. -/
def sliceFrom (bytes : List byte) (start : ℕ) : Run ε (List byte) :=
  if start ≤ bytes.length then .ret (bytes.drop start) else .abort

/-- `bytes.try_into().unwrap()`, for an array of this length. -/
def intoArray (length : ℕ) (bytes : List byte) : Run ε (List byte) :=
  if bytes.length = length then .ret bytes else .abort

theorem asUsize_of_nonneg {n : ℤ} (h : 0 ≤ n) (hlt : n < 2 ^ 64) : asUsize n = n.toNat := by
  rw [asUsize, Int.emod_eq_of_lt h hlt]

theorem add_eq {a b : ℕ} (h : a + b < usizeCard) : (add a b : Run ε ℕ) = pure (a + b) := if_pos h

theorem checkedAdd_eq_some {a b c : ℕ} (h : checkedAdd a b = some c) : c = a + b := by
  unfold checkedAdd at h
  split at h
  · exact (Option.some.inj h).symm
  · cases h

theorem sub_eq {a b : ℕ} (h : b ≤ a) : (sub a b : Run ε ℕ) = pure (a - b) := if_pos h

theorem allocate_eq {size count : ℕ} (h : size * count ≤ isizeMax) :
    (allocate size count : Run ε Unit) = pure () := if_pos h

theorem slice_eq {bytes : List byte} {start stop : ℕ} (h : start ≤ stop) (hstop : stop ≤ bytes.length) :
    (slice bytes start stop : Run ε (List byte)) = pure ((bytes.take stop).drop start) := if_pos ⟨h, hstop⟩

theorem sliceFrom_eq {bytes : List byte} {start : ℕ} (h : start ≤ bytes.length) :
    (sliceFrom bytes start : Run ε (List byte)) = pure (bytes.drop start) := if_pos h

theorem intoArray_eq {length : ℕ} {bytes : List byte} (h : bytes.length = length) :
    (intoArray length bytes : Run ε (List byte)) = pure bytes := if_pos h

@[simp]
theorem Run.pure_bind {α β ε : Type} (a : α) (next : α → Run ε β) : (pure a >>= next) = next a := by
  show Run.andThen (Run.ret a) next = next a
  unfold Run.andThen Run.ret
  simp only [Nat.zero_add]

end Checked

import Mathlib

/-!
# Precedence climbing

A parser that has read a left operand goes on as long as the next operator binds more tightly than the level it was
called at. Each round consumes input, so that as many rounds as there are tokens are enough.
-/

namespace BrewDB.Climbing

universe u v w

variable {τ : Type u} {Tree : Type v} {ε : Type w}

/-- The rounds of a level, at most so many. -/
def climb (power : List τ → ℕ) (round : Tree → List τ → Except ε (Tree × List τ)) (level : ℕ) :
    ℕ → Tree → List τ → Except ε (Tree × List τ)
  | 0, left, input => .ok (left, input)
  | rounds + 1, left, input =>
      if power input ≤ level then .ok (left, input)
      else
        match round left input with
        | .error e => .error e
        | .ok (left, rest) => climb power round level rounds left rest

/-- A round takes at least one token. -/
def Consumes (round : Tree → List τ → Except ε (Tree × List τ)) : Prop :=
  ∀ ⦃left input tree rest⦄, round left input = .ok (tree, rest) → rest.length < input.length

variable {power : List τ → ℕ} {round : Tree → List τ → Except ε (Tree × List τ)} {level : ℕ}

theorem climb_of_le (rounds : ℕ) (left : Tree) {input : List τ} (h : power input ≤ level) :
    climb power round level rounds left input = .ok (left, input) := by
  cases rounds with
  | zero => rfl
  | succ rounds => rw [climb, if_pos h]

/-- More rounds than tokens make no difference. -/
theorem climb_of_length_le (hempty : power [] = 0) (hround : Consumes round) {rounds : ℕ} {left : Tree} {input : List τ}
    (h : input.length ≤ rounds) :
    climb power round level rounds left input = climb power round level input.length left input := by
  induction rounds using Nat.strong_induction_on generalizing left input with
  | _ rounds ih =>
      cases input with
      | nil =>
          have hlevel : power [] ≤ level := hempty.trans_le (Nat.zero_le level)
          rw [climb_of_le _ _ hlevel, climb_of_le _ _ hlevel]
      | cons token input =>
          obtain ⟨rounds, rfl⟩ : ∃ more, rounds = more + 1 := ⟨rounds - 1, by simp only [List.length_cons] at h; omega⟩
          rw [List.length_cons, climb, climb]
          split_ifs
          · rfl
          · cases hstep : round left (token :: input) with
            | error e => rfl
            | ok result =>
                have hless := hround hstep
                simp only [List.length_cons] at h hless
                have hall : climb power round level rounds result.1 result.2
                    = climb power round level result.2.length result.1 result.2 :=
                  ih rounds (Nat.lt_succ_self _) (by omega)
                by_cases hsame : input.length = rounds
                · rw [hsame]
                · have hfewer : climb power round level input.length result.1 result.2
                      = climb power round level result.2.length result.1 result.2 :=
                    ih input.length (by omega) (by omega)
                  exact hall.trans hfewer.symm

/-- A round that is not the last. -/
theorem climb_step (hempty : power [] = 0) (hround : Consumes round) {left tree : Tree} {input rest : List τ}
    (hlevel : level < power input) (hstep : round left input = .ok (tree, rest)) :
    climb power round level input.length left input = climb power round level rest.length tree rest := by
  have hless := hround hstep
  cases input with
  | nil => cases hless
  | cons token input =>
      rw [List.length_cons, climb, if_neg (Nat.not_le.mpr hlevel), hstep]
      exact climb_of_length_le hempty hround (Nat.lt_succ_iff.mp hless)

/-- What every round keeps holds at the end, where the next operator does not bind more tightly. -/
theorem invariant_of_climb (hempty : power [] = 0) (hround : Consumes round) (Holds : Tree → List τ → Prop)
    (hkeep : ∀ ⦃left input tree rest⦄, Holds left input → level < power input → round left input = .ok (tree, rest) →
      Holds tree rest)
    {left tree : Tree} {input rest : List τ} (hleft : Holds left input)
    (h : climb power round level input.length left input = .ok (tree, rest)) :
    Holds tree rest ∧ power rest ≤ level := by
  induction hlength : input.length using Nat.strong_induction_on generalizing left input with
  | _ length ih =>
      by_cases hlevel : power input ≤ level
      · rw [climb_of_le _ _ hlevel] at h
        obtain ⟨rfl, rfl⟩ := Prod.mk.inj (Except.ok.inj h)
        exact ⟨hleft, hlevel⟩
      · cases hstep : round left input with
        | error e =>
            cases input with
            | nil => exact absurd (hempty.trans_le (Nat.zero_le level)) hlevel
            | cons token input =>
                rw [List.length_cons, climb, if_neg hlevel, hstep] at h
                cases h
        | ok result =>
            rw [climb_step hempty hround (Nat.not_le.mp hlevel) hstep] at h
            exact ih result.2.length (hlength ▸ hround hstep) (hkeep hleft (Nat.not_le.mp hlevel) hstep) h rfl

end BrewDB.Climbing

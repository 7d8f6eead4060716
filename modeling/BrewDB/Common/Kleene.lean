import Mathlib

/-!
# Three-valued logic

Truth values of SQL conditions: true, false, or unknown (`none`).
-/

namespace Kleene

/-- True, false or unknown. -/
abbrev Truth := Option Bool

/-- Negation keeps the unknown. -/
def neg : Truth → Truth := Option.map Bool.not

/-- Conjunction: one false side decides. -/
def conj : Truth → Truth → Truth
  | some false, _ => some false
  | _, some false => some false
  | some true, some true => some true
  | _, _ => none

/-- Disjunction: one true side decides. -/
def disj : Truth → Truth → Truth
  | some true, _ => some true
  | _, some true => some true
  | some false, some false => some false
  | _, _ => none

@[simp] theorem conj_true (a : Truth) : conj a (some true) = a := by
  rcases a with _ | _ | _ <;> rfl

@[simp] theorem disj_false (a : Truth) : disj a (some false) = a := by
  rcases a with _ | _ | _ <;> rfl

/-- A conjunction is true if both sides are. -/
theorem conj_eq_true_iff {a b : Truth} : conj a b = some true ↔ a = some true ∧ b = some true := by
  rcases a with _ | _ | _ <;> rcases b with _ | _ | _ <;> simp [conj]

/-- The conjunction of a list. -/
def all (l : List Truth) : Truth := l.foldr conj (some true)

/-- The disjunction of a list. -/
def any (l : List Truth) : Truth := l.foldr disj (some false)

end Kleene

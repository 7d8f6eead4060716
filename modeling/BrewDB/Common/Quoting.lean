import Mathlib

/-!
# Quoting

A text between quotes in which every quote is doubled ends at the first quote that is not followed by another one, and
reading it gives the text back. So does reading digits of a fixed number.
-/

namespace BrewDB.Quoting

universe u

variable {α : Type u} [DecidableEq α]

/-! ## Doubled quotes -/

/-- The text with every quote doubled. -/
def double (quote : α) : List α → List α
  | [] => []
  | a :: s => if a = quote then quote :: quote :: double quote s else a :: double quote s

/-- Read up to the first quote that is not doubled; what follows is left. -/
def undouble (quote : α) : List α → Option (List α × List α)
  | [] => none
  | [a] => if a = quote then some ([], []) else none
  | a :: b :: input =>
      if a = quote then
        if b = quote then (undouble quote input).map fun result => (quote :: result.1, result.2)
        else some ([], b :: input)
      else (undouble quote (b :: input)).map fun result => (a :: result.1, result.2)

variable {quote : α} {input s rest : List α}

theorem length_le_length_double (quote : α) (s : List α) : s.length ≤ (double quote s).length := by
  induction s with
  | nil => exact le_rfl
  | cons a s ih =>
      rw [double]
      split_ifs
      · simp only [List.length_cons]
        omega
      · simpa only [List.length_cons] using Nat.succ_le_succ ih

/-- Doubling changes a text with a quote in it. -/
theorem double_eq_self_iff : double quote s = s ↔ quote ∉ s := by
  induction s with
  | nil => exact iff_of_true rfl List.not_mem_nil
  | cons a s ih =>
      rw [double]
      split_ifs with ha
      · refine iff_of_false (fun heq => ?_) fun h => h (ha ▸ List.mem_cons_self ..)
        have hlength := congrArg List.length heq
        have hle := length_le_length_double quote s
        simp only [List.length_cons] at hlength
        omega
      · rw [List.cons_inj_right, ih, List.mem_cons, not_or]
        exact ⟨fun h => ⟨fun heq => ha heq.symm, h⟩, fun h => h.2⟩

theorem undouble_cons_of_ne {a : α} (h : a ≠ quote) (input : List α) :
    undouble quote (a :: input) = (undouble quote input).map fun result => (a :: result.1, result.2) := by
  cases input with
  | nil => simp only [undouble, if_neg h, Option.map_none]
  | cons b input => rw [undouble, if_neg h]

/-- The doubled text is read back. -/
theorem undouble_double (h : rest.head? ≠ some quote) (s : List α) :
    undouble quote (double quote s ++ quote :: rest) = some (s, rest) := by
  induction s with
  | nil =>
      rw [double, List.nil_append]
      cases rest with
      | nil => rw [undouble, if_pos rfl]
      | cons b rest =>
          have hb : b ≠ quote := fun heq => h (congrArg some heq)
          rw [undouble, if_pos rfl, if_neg hb]
  | cons a s ih =>
      rw [double]
      split_ifs with ha
      · rw [List.cons_append, List.cons_append, undouble, if_pos rfl, if_pos rfl, ih, Option.map_some, ha]
      · rw [List.cons_append, undouble_cons_of_ne ha, ih, Option.map_some]

/-- Nothing else is read. -/
theorem eq_double_of_undouble (h : undouble quote input = some (s, rest)) :
    input = double quote s ++ quote :: rest ∧ rest.head? ≠ some quote := by
  induction input using undouble.induct quote generalizing s with
  | case1 => cases h
  | case2 =>
      rw [undouble, if_pos rfl] at h
      obtain ⟨rfl, rfl⟩ := Prod.mk.inj (Option.some.inj h)
      exact ⟨rfl, nofun⟩
  | case3 a ha =>
      rw [undouble, if_neg ha] at h
      cases h
  | case4 input ih =>
      rw [undouble, if_pos rfl, if_pos rfl] at h
      obtain ⟨⟨s', rest'⟩, hread, heq⟩ := Option.map_eq_some_iff.mp h
      obtain ⟨rfl, rfl⟩ := Prod.mk.inj heq
      obtain ⟨rfl, hrest⟩ := ih hread
      exact ⟨by rw [double, if_pos rfl]; rfl, hrest⟩
  | case5 b input hb =>
      rw [undouble, if_pos rfl, if_neg hb] at h
      obtain ⟨rfl, rfl⟩ := Prod.mk.inj (Option.some.inj h)
      exact ⟨rfl, fun heq => hb (Option.some.inj heq)⟩
  | case6 a b input ha ih =>
      rw [undouble, if_neg ha] at h
      obtain ⟨⟨s', rest'⟩, hread, heq⟩ := Option.map_eq_some_iff.mp h
      obtain ⟨rfl, rfl⟩ := Prod.mk.inj heq
      obtain ⟨hinput, hrest⟩ := ih hread
      exact ⟨by rw [double, if_neg ha, hinput]; rfl, hrest⟩

/-- What is read is what was doubled, and nothing else. -/
theorem undouble_eq_some_iff :
    undouble quote input = some (s, rest) ↔ input = double quote s ++ quote :: rest ∧ rest.head? ≠ some quote := by
  refine ⟨eq_double_of_undouble, ?_⟩
  rintro ⟨rfl, hrest⟩
  exact undouble_double hrest s

/-! ## Digits of a fixed number -/

/-- The last digits of a number, the most significant first. -/
def lastDigits (base : ℕ) : ℕ → ℕ → List ℕ
  | 0, _ => []
  | count + 1, n => lastDigits base count (n / base) ++ [n % base]

/-- The number that digits stand for. -/
def ofDigits (base : ℕ) (digits : List ℕ) : ℕ := digits.foldl (fun n digit => n * base + digit) 0

theorem length_lastDigits (base count n : ℕ) : (lastDigits base count n).length = count := by
  induction count generalizing n with
  | zero => rfl
  | succ count ih => rw [lastDigits, List.length_append, ih, List.length_singleton]

theorem lt_of_mem_lastDigits {base count n digit : ℕ} (hbase : 0 < base) (h : digit ∈ lastDigits base count n) :
    digit < base := by
  induction count generalizing n with
  | zero => cases h
  | succ count ih =>
      rw [lastDigits, List.mem_append, List.mem_singleton] at h
      rcases h with h | rfl
      · exact ih h
      · exact Nat.mod_lt n hbase

/-- Enough digits stand for the number. -/
theorem ofDigits_lastDigits {base count n : ℕ} (h : n < base ^ count) : ofDigits base (lastDigits base count n) = n := by
  induction count generalizing n with
  | zero =>
      obtain rfl : n = 0 := by simpa using h
      rfl
  | succ count ih =>
      have hdiv : n / base < base ^ count := Nat.div_lt_of_lt_mul (by rwa [mul_comm, ← pow_succ])
      rw [lastDigits, ofDigits, List.foldl_append]
      show ofDigits base (lastDigits base count (n / base)) * base + n % base = n
      rw [ih hdiv, Nat.div_add_mod']

end BrewDB.Quoting

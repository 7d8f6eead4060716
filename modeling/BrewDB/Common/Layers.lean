import Mathlib

/-!
# Layers of bindings

Lists with repeated keys in which the last binding of a key counts, and lists sorted by a priority. A stable
sort keeps the members of one priority in their order, so it is the concatenation of them, one priority after
the other.
-/

namespace BrewDB.Layers

universe u v

variable {α : Type u} {K : Type v} {V : Type*}

/-! ## Stable sorting -/

/-- `sort_by_key`. -/
def sortByKey (priority : α → ℕ) (l : List α) : List α :=
  l.mergeSort fun a b => decide (priority a ≤ priority b)

section Priorities

variable {priority : α → ℕ}

theorem perm_sortByKey (l : List α) : (sortByKey priority l).Perm l := List.mergeSort_perm l _

theorem pairwise_sortByKey (l : List α) :
    (sortByKey priority l).Pairwise fun a b => priority a ≤ priority b := by
  have h : (sortByKey priority l).Pairwise fun a b => decide (priority a ≤ priority b) = true := by
    refine List.pairwise_mergeSort (fun a b c hab hbc => ?_) (fun a b => ?_) l
    · simp only [decide_eq_true_eq] at *
      omega
    · simp only [Bool.or_eq_true, decide_eq_true_eq]
      omega
  exact h.imp fun hab => of_decide_eq_true hab

/-- Members of one priority keep their order. -/
theorem filter_sortByKey (l : List α) (n : ℕ) :
    (sortByKey priority l).filter (priority · = n) = l.filter (priority · = n) := by
  have hsub : (l.filter (priority · = n)).Sublist (sortByKey priority l) := by
    refine List.sublist_mergeSort (fun a b c hab hbc => ?_) (fun a b => ?_) ?_ List.filter_sublist
    · simp only [decide_eq_true_eq] at *
      omega
    · simp only [Bool.or_eq_true, decide_eq_true_eq]
      omega
    · refine List.pairwise_of_forall_mem_list fun a ha b hb => ?_
      have ha := of_decide_eq_true (List.mem_filter.mp ha).2
      have hb := of_decide_eq_true (List.mem_filter.mp hb).2
      exact decide_eq_true (ha.trans hb.symm).le
  have hfiltered := hsub.filter (priority · = n)
  rw [List.filter_filter] at hfiltered
  simp only [Bool.and_self] at hfiltered
  exact (hfiltered.eq_of_length ((perm_sortByKey l).filter _).length_eq.symm).symm

/-- A sorted list is split at a priority. -/
theorem eq_append_of_pairwise {l : List α} (h : l.Pairwise fun a b => priority a ≤ priority b) (n : ℕ) :
    l = l.filter (priority · < n) ++ l.filter (n ≤ priority ·) := by
  induction l with
  | nil => rfl
  | cons a l ih =>
      obtain ⟨hhead, htail⟩ := List.pairwise_cons.mp h
      by_cases ha : priority a < n
      · rw [List.filter_cons_of_pos (by simpa using ha), List.filter_cons_of_neg (by simpa using ha),
          List.cons_append, ← ih htail]
      · have hnone : l.filter (priority · < n) = [] := by
          rw [List.filter_eq_nil_iff]
          intro b hb hlt
          have := hhead b hb
          simp only [decide_eq_true_eq] at hlt
          omega
        have hall : l.filter (n ≤ priority ·) = l := by
          rw [List.filter_eq_self]
          intro b hb
          have := hhead b hb
          simp only [decide_eq_true_eq]
          omega
        rw [List.filter_cons_of_neg (by simpa using ha), List.filter_cons_of_pos (by simpa using ha), hnone,
          hall]
        rfl

/-- A sorted list is the concatenation of its priorities. -/
theorem eq_flatMap_of_pairwise {l : List α} (h : l.Pairwise fun a b => priority a ≤ priority b) {n : ℕ}
    (hbound : ∀ a ∈ l, priority a < n) :
    l = (List.range n).flatMap fun i => l.filter (priority · = i) := by
  induction n generalizing l with
  | zero =>
      cases l with
      | nil => rfl
      | cons a l => exact absurd (hbound a List.mem_cons_self) (Nat.not_lt_zero _)
  | succ n ih =>
      have hlow := ih (h.filter (priority · < n)) fun a ha => of_decide_eq_true (List.mem_filter.mp ha).2
      have hhigh : l.filter (n ≤ priority ·) = l.filter (priority · = n) := by
        refine List.filter_congr fun a ha => ?_
        have := hbound a ha
        simp only [decide_eq_decide]
        omega
      have hkept : ∀ i ∈ List.range n, (l.filter (priority · < n)).filter (priority · = i) =
          l.filter (priority · = i) := by
        intro i hi
        rw [List.filter_filter]
        refine List.filter_congr fun a _ => ?_
        have := List.mem_range.mp hi
        simp only [Bool.and_eq_left_iff_imp, decide_eq_true_eq]
        omega
      rw [List.range_succ, List.flatMap_append, List.flatMap_singleton, ← hhigh, ← List.flatMap_congr hkept,
        ← hlow]
      exact eq_append_of_pairwise h n

/-- A stable sort is the concatenation of the priorities. -/
theorem sortByKey_eq_flatMap {l : List α} {n : ℕ} (hbound : ∀ a ∈ l, priority a < n) :
    sortByKey priority l = (List.range n).flatMap fun i => l.filter (priority · = i) := by
  rw [eq_flatMap_of_pairwise (pairwise_sortByKey l) fun a ha => hbound a ((perm_sortByKey l).mem_iff.mp ha)]
  simp only [filter_sortByKey]

end Priorities

/-! ## Last bindings -/

section Bindings

variable [DecidableEq K]

/-- The value of the last binding of a key. -/
def lastValue (key : K) (bindings : List (K × V)) : Option V :=
  ((bindings.filter (·.1 = key)).getLast?).map Prod.snd

theorem lastValue_append (key : K) (first second : List (K × V)) :
    lastValue key (first ++ second) = (lastValue key second).or (lastValue key first) := by
  rw [lastValue, lastValue, lastValue, List.filter_append, List.getLast?_append]
  cases (second.filter (·.1 = key)).getLast? <;> rfl

theorem lastValue_cons (key : K) (binding : K × V) (bindings : List (K × V)) :
    lastValue key (binding :: bindings) =
      (lastValue key bindings).or (if binding.1 = key then some binding.2 else none) := by
  have hone : lastValue key [binding] = if binding.1 = key then some binding.2 else none := by
    by_cases h : binding.1 = key <;> simp [lastValue, h]
  rw [← List.singleton_append, lastValue_append, hone]

theorem mem_of_lastValue {key : K} {value : V} {bindings : List (K × V)} (h : lastValue key bindings = some value) :
    (key, value) ∈ bindings := by
  obtain ⟨binding, hlast, rfl⟩ := Option.map_eq_some_iff.mp h
  obtain ⟨hmem, hkey⟩ := List.mem_filter.mp (List.mem_of_getLast? hlast)
  obtain rfl := of_decide_eq_true hkey
  exact hmem

theorem isSome_lastValue {key : K} {bindings : List (K × V)} :
    (lastValue key bindings).isSome ↔ ∃ binding ∈ bindings, binding.1 = key := by
  simp [lastValue]

/-- In several lists one after the other the last one that binds the key counts. -/
theorem lastValue_flatMap (key : K) (layers : List α) (bindings : α → List (K × V)) :
    lastValue key (layers.flatMap bindings) =
      ((layers.filter fun layer => (lastValue key (bindings layer)).isSome).getLast?).bind fun layer =>
        lastValue key (bindings layer) := by
  induction layers with
  | nil => rfl
  | cons layer layers ih =>
      rw [List.flatMap_cons, lastValue_append, ih, List.filter_cons]
      cases hvalue : lastValue key (bindings layer) with
      | none => simp
      | some value =>
          simp only [Option.isSome_some, if_true, List.getLast?_cons]
          cases hlast : (layers.filter fun layer => (lastValue key (bindings layer)).isSome).getLast? with
          | none => simp [hvalue]
          | some last =>
              have hmem := List.mem_of_getLast? hlast
              obtain ⟨value', hvalue'⟩ := Option.isSome_iff_exists.mp (List.mem_filter.mp hmem).2
              simp [hvalue']

end Bindings

end BrewDB.Layers

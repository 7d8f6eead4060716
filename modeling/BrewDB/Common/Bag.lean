import Mathlib

/-!
# Bags cut into parts

Grouping and joining multisets, and when the results of the parts add up to the result of the whole:
for groups if no key occurs in two parts, for joins if no match crosses from one part to another.
-/

namespace BrewDB.Bag

open Finset (range)

variable {α β γ κ : Type*}

/-- The parts of a bag by a class below `n` add up to the bag. -/
theorem sum_filter_class (s : Multiset α) (n : ℕ) (cls : α → ℕ) (h : ∀ a ∈ s, cls a < n) :
    ∑ j ∈ range n, s.filter (fun a => cls a = j) = s := by
  induction s using Multiset.induction_on with
  | empty => simp
  | cons a s ih =>
      have hs := ih fun b hb => h b (Multiset.mem_cons_of_mem hb)
      have ha : cls a ∈ range n := Finset.mem_range.mpr (h a (Multiset.mem_cons_self a s))
      have hsingle : ∑ j ∈ range n, (if cls a = j then ({a} : Multiset α) else 0) = {a} := by
        rw [Finset.sum_ite_eq, if_pos ha]
      calc ∑ j ∈ range n, (a ::ₘ s).filter (fun b => cls b = j)
          = ∑ j ∈ range n,
              ((if cls a = j then ({a} : Multiset α) else 0) + s.filter fun b => cls b = j) :=
            Finset.sum_congr rfl fun j _ => Multiset.filter_cons s
        _ = {a} + s := by rw [Finset.sum_add_distrib, hsingle, hs]
        _ = a ::ₘ s := Multiset.singleton_add a s

/-- The parts of a list by a class below `n` are the list again. -/
theorem perm_flatMap_filter_class (l : List α) (n : ℕ) (cls : α → ℕ)
    (h : ∀ a ∈ l, cls a < n) : ((List.range n).flatMap fun j => l.filter (cls · = j)).Perm l := by
  rw [← Multiset.coe_eq_coe]
  calc (↑((List.range n).flatMap fun j => l.filter (cls · = j)) : Multiset α)
      = (Multiset.range n).bind fun j => ↑(l.filter (cls · = j)) := (Multiset.coe_bind _ _).symm
    _ = ∑ j ∈ range n, (↑l : Multiset α).filter (cls · = j) := by
        rw [Multiset.bind, Multiset.join, Finset.sum, Finset.range_val]
        rfl
    _ = ↑l := sum_filter_class _ n cls h

/-! ## Groups -/

/-- One result for every key that occurs, from the members with that key. -/
def groups [DecidableEq κ] (key : α → κ) (f : κ → Multiset α → β) (s : Multiset α) : Multiset β :=
  (s.map key).dedup.map fun k => f k (s.filter fun a => key a = k)

section Groups

variable [DecidableEq κ] (key : α → κ) (f : κ → Multiset α → β)

/-- Members without the key do not count. -/
theorem filter_key_eq_zero {s : Multiset α} {k : κ} (h : ∀ a ∈ s, key a ≠ k) :
    s.filter (fun a => key a = k) = 0 :=
  Multiset.filter_eq_nil.mpr h

/-- Two bags without a common key are grouped one by one. -/
theorem groups_add {s t : Multiset α} (h : ∀ a ∈ s, ∀ b ∈ t, key a ≠ key b) :
    groups key f (s + t) = groups key f s + groups key f t := by
  have hdisjoint : Disjoint (s.map key) (t.map key) := by
    rw [Multiset.disjoint_left]
    intro k hs ht
    obtain ⟨a, ha, rfl⟩ := Multiset.mem_map.mp hs
    obtain ⟨b, hb, hkey⟩ := Multiset.mem_map.mp ht
    exact h a ha b hb hkey.symm
  have hkeys : ((s + t).map key).dedup = (s.map key).dedup + (t.map key).dedup := by
    rw [Multiset.map_add, Multiset.Disjoint.dedup_add hdisjoint]
  have hleft : ∀ k ∈ (s.map key).dedup,
      (s + t).filter (fun a => key a = k) = s.filter fun a => key a = k := by
    intro k hk
    obtain ⟨a, ha, rfl⟩ := Multiset.mem_map.mp (Multiset.mem_dedup.mp hk)
    rw [Multiset.filter_add, filter_key_eq_zero key fun b hb => (h a ha b hb).symm, add_zero]
  have hright : ∀ k ∈ (t.map key).dedup,
      (s + t).filter (fun a => key a = k) = t.filter fun a => key a = k := by
    intro k hk
    obtain ⟨b, hb, rfl⟩ := Multiset.mem_map.mp (Multiset.mem_dedup.mp hk)
    rw [Multiset.filter_add, filter_key_eq_zero key fun a ha => h a ha b hb, zero_add]
  rw [groups, hkeys, Multiset.map_add]
  exact congrArg₂ (· + ·) (Multiset.map_congr rfl fun k hk => by rw [hleft k hk])
    (Multiset.map_congr rfl fun k hk => by rw [hright k hk])

/-- Parts without common keys are grouped one by one. -/
theorem groups_sum (n : ℕ) (s : ℕ → Multiset α)
    (h : ∀ i < n, ∀ j < n, i ≠ j → ∀ a ∈ s i, ∀ b ∈ s j, key a ≠ key b) :
    groups key f (∑ i ∈ range n, s i) = ∑ i ∈ range n, groups key f (s i) := by
  induction n with
  | zero => simp [groups]
  | succ n ih =>
      have hinit := ih fun i hi j hj => h i (Nat.lt_succ_of_lt hi) j (Nat.lt_succ_of_lt hj)
      rw [Finset.sum_range_succ, Finset.sum_range_succ, groups_add, hinit]
      intro a ha b hb
      obtain ⟨i, hi, ha⟩ := Multiset.mem_sum.mp ha
      have hlt := Finset.mem_range.mp hi
      exact h i (Nat.lt_succ_of_lt hlt) n (Nat.lt_succ_self n) (by omega) a ha b hb

end Groups

/-! ## Joins -/

/-- A result for every matching pair. -/
def pairs (m : α → β → Bool) (f : α → β → γ) (s : Multiset α) (t : Multiset β) : Multiset γ :=
  s.bind fun a => (t.filter fun b => m a b = true).map (f a)

/-- The members without a match. -/
def unmatched (m : α → β → Bool) (s : Multiset α) (t : Multiset β) : Multiset α :=
  s.filter fun a => ∀ b ∈ t, m a b = false

/-- The members with a match. -/
def matched (m : α → β → Bool) (s : Multiset α) (t : Multiset β) : Multiset α :=
  s.filter fun a => ¬ ∀ b ∈ t, m a b = false

/-- No match crosses from one pair of bags to the other. -/
structure Apart (m : α → β → Bool) (s : Multiset α) (t : Multiset β) (s' : Multiset α)
    (t' : Multiset β) : Prop where
  cross : ∀ a ∈ s, ∀ b ∈ t', m a b = false
  cross' : ∀ a ∈ s', ∀ b ∈ t, m a b = false

section Joins

variable {m : α → β → Bool} {s s' : Multiset α} {t t' : Multiset β}

/-- The other way round. -/
theorem Apart.flip (h : Apart m s t s' t') : Apart (Function.swap m) t s t' s' :=
  ⟨fun b hb a ha => h.cross' a ha b hb, fun b hb a ha => h.cross a ha b hb⟩

/-- Bags without matches between them add nothing. -/
private theorem filter_match_eq_zero {a : α} (h : ∀ b ∈ t, m a b = false) :
    t.filter (fun b => m a b = true) = 0 :=
  Multiset.filter_eq_nil.mpr fun b hb => by simp [h b hb]

theorem pairs_add (f : α → β → γ) (h : Apart m s t s' t') :
    pairs m f (s + s') (t + t') = pairs m f s t + pairs m f s' t' := by
  rw [pairs, Multiset.add_bind]
  refine congrArg₂ (· + ·) (Multiset.bind_congr fun a ha => ?_) (Multiset.bind_congr fun a ha => ?_)
  · rw [Multiset.filter_add, filter_match_eq_zero (h.cross a ha), add_zero]
  · rw [Multiset.filter_add, filter_match_eq_zero (h.cross' a ha), zero_add]

/-- The members on the other side make no difference. -/
private theorem forall_match_add (h : Apart m s t s' t') :
    (∀ a ∈ s, (∀ b ∈ t + t', m a b = false) ↔ ∀ b ∈ t, m a b = false) ∧
    ∀ a ∈ s', (∀ b ∈ t + t', m a b = false) ↔ ∀ b ∈ t', m a b = false := by
  simp only [Multiset.mem_add, or_imp, forall_and]
  exact ⟨fun a ha => and_iff_left (h.cross a ha), fun a ha => and_iff_right (h.cross' a ha)⟩

theorem unmatched_add (h : Apart m s t s' t') :
    unmatched m (s + s') (t + t') = unmatched m s t + unmatched m s' t' := by
  obtain ⟨hleft, hright⟩ := forall_match_add h
  rw [unmatched, Multiset.filter_add, Multiset.filter_congr hleft, Multiset.filter_congr hright]
  rfl

theorem matched_add (h : Apart m s t s' t') :
    matched m (s + s') (t + t') = matched m s t + matched m s' t' := by
  obtain ⟨hleft, hright⟩ := forall_match_add h
  rw [matched, Multiset.filter_add, Multiset.filter_congr fun a ha => not_congr (hleft a ha),
    Multiset.filter_congr fun a ha => not_congr (hright a ha)]
  rfl

/-- An operator on two bags that can be done part by part for two parts can be done so for any
number of them. -/
theorem sum_of_add {F : Multiset α → Multiset β → Multiset γ} (hzero : F 0 0 = 0)
    (hadd : ∀ {s t s' t'}, Apart m s t s' t' → F (s + s') (t + t') = F s t + F s' t') (n : ℕ)
    (s : ℕ → Multiset α) (t : ℕ → Multiset β)
    (h : ∀ i < n, ∀ j < n, i ≠ j → ∀ a ∈ s i, ∀ b ∈ t j, m a b = false) :
    F (∑ i ∈ range n, s i) (∑ i ∈ range n, t i) = ∑ i ∈ range n, F (s i) (t i) := by
  induction n with
  | zero => simpa using hzero
  | succ n ih =>
      have hinit := ih fun i hi j hj => h i (Nat.lt_succ_of_lt hi) j (Nat.lt_succ_of_lt hj)
      have hapart : Apart m (∑ i ∈ range n, s i) (∑ i ∈ range n, t i) (s n) (t n) := by
        constructor
        · intro a ha b hb
          obtain ⟨i, hi, ha⟩ := Multiset.mem_sum.mp ha
          have hlt := Finset.mem_range.mp hi
          exact h i (Nat.lt_succ_of_lt hlt) n (Nat.lt_succ_self n) (by omega) a ha b hb
        · intro a ha b hb
          obtain ⟨j, hj, hb⟩ := Multiset.mem_sum.mp hb
          have hlt := Finset.mem_range.mp hj
          exact h n (Nat.lt_succ_self n) j (Nat.lt_succ_of_lt hlt) (by omega) a ha b hb
      rw [Finset.sum_range_succ, Finset.sum_range_succ, Finset.sum_range_succ, hadd hapart, hinit]

end Joins

end BrewDB.Bag

import BrewDB.Common.Bag

/-!
# Dealing in turns

A list is dealt out to a number of hands, one member after the other. The hands together are the list, and
their lengths differ by at most one.
-/

namespace BrewDB.RoundRobin

variable {α : Type*}

/-- Every `n`-th member, beginning with the `p`-th. -/
def hand (l : List α) (n p : ℕ) : List α := (l.zipIdx.filter fun a => a.2 % n = p).map Prod.fst

/-- All hands. -/
def deal (l : List α) (n : ℕ) : List (List α) := (List.range n).map (hand l n)

@[simp]
theorem length_deal (l : List α) (n : ℕ) : (deal l n).length = n := by
  rw [deal, List.length_map, List.length_range]

/-- Dealing loses nothing. -/
theorem flatten_deal_perm (l : List α) {n : ℕ} (hn : l ≠ [] → 0 < n) : (deal l n).flatten.Perm l := by
  have hclass : ∀ a ∈ l.zipIdx, a.2 % n < n := by
    intro a ha
    have hlt := List.snd_lt_of_mem_zipIdx ha
    exact Nat.mod_lt _ (hn (List.ne_nil_of_length_pos (by omega)))
  have hperm := (Bag.perm_flatMap_filter_class l.zipIdx n (·.2 % n) hclass).map Prod.fst
  rw [List.zipIdx_map_fst, List.map_flatMap] at hperm
  rw [deal, ← List.flatMap_def]
  exact hperm

/-- The first hands get one more where the list does not come out even. -/
theorem length_hand (l : List α) {n p : ℕ} (hp : p < n) :
    (hand l n p).length = l.length / n + if p < l.length % n then 1 else 0 := by
  have hpos : 0 < n := Nat.zero_lt_of_lt hp
  have hindices : (hand l n p).length = ((List.range l.length).filter fun i => i % n = p).length := by
    have hmap : (l.zipIdx.filter fun a => a.2 % n = p).map Prod.snd =
        (List.range l.length).filter fun i => i % n = p := by
      rw [List.range_eq_range', ← List.zipIdx_map_snd 0 l, List.filter_map]
      rfl
    rw [hand, List.length_map, ← hmap, List.length_map]
  have hcount : ((List.range l.length).filter fun i => i % n = p).length =
      l.length.count fun i => i ≡ p [MOD n] := by
    rw [Nat.count_eq_card_filter_range, Finset.card_def, Finset.filter_val, Finset.range_val, Multiset.range,
      Multiset.filter_coe, Multiset.coe_card]
    refine congrArg List.length (List.filter_congr fun i _ => ?_)
    rw [decide_eq_decide, Nat.ModEq, Nat.mod_eq_of_lt hp]
  rw [hindices, hcount, Nat.count_modEq_card _ hpos, Nat.mod_eq_of_lt hp]

/-- No two hands differ by more than one. -/
theorem length_hand_le (l : List α) {n p q : ℕ} (hp : p < n) (hq : q < n) :
    (hand l n p).length ≤ (hand l n q).length + 1 := by
  rw [length_hand l hp, length_hand l hq]
  split_ifs <;> omega

/-- No hand is empty if there are no more hands than members. -/
theorem hand_ne_nil (l : List α) {n p : ℕ} (hp : p < n) (hn : n ≤ l.length) : hand l n p ≠ [] := by
  have hdiv : 0 < l.length / n := Nat.div_pos hn (Nat.zero_lt_of_lt hp)
  apply List.ne_nil_of_length_pos
  rw [length_hand l hp]
  omega

end BrewDB.RoundRobin

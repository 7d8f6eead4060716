import Mathlib

/-!
# Merging versions by key

Of all versions of a key the one with the largest sequence number counts, the first of them in case of a tie;
it may show a row or, as a deletion, none. Merging parts one by one may show more rows than merging the whole,
never fewer, and shows the same just when no key is shown by two parts and no shown key is gone in the whole.
-/

namespace BrewDB.Versions

variable {V κ σ ρ : Type*} [DecidableEq κ] [LinearOrder σ] (key : V → κ) (seq : V → σ) (shown : V → Option ρ)

/-- The version of a key that counts. -/
def newest (versions : List V) (k : κ) : Option V := (versions.filter (key · = k)).argmax seq

/-- What a key shows. -/
def shownAt (versions : List V) (k : κ) : Option ρ := (newest key seq versions k).bind shown

/-- What all keys show. -/
def merge (versions : List V) : List ρ :=
  (versions.map key).dedup.filterMap (shownAt key seq shown versions)

/-- The parts show together what the whole shows: no key is shown by two parts, and none that is shown by a
part is gone in the whole. -/
structure Settled (parts : List (List V)) : Prop where
  apart : ∀ k, parts.Pairwise fun a b =>
    ¬ ((shownAt key seq shown a k).isSome ∧ (shownAt key seq shown b k).isSome)
  live : ∀ k, ∀ part ∈ parts, (shownAt key seq shown part k).isSome →
    (shownAt key seq shown parts.flatten k).isSome

section

variable {key seq shown}

/-- The largest member of two lists is that of one of them. -/
theorem argmax_append (l l' : List V) :
    (l ++ l').argmax seq = l.argmax seq ∨ (l ++ l').argmax seq = l'.argmax seq := by
  induction l with
  | nil => exact .inr rfl
  | cons v l ih =>
      rw [List.cons_append, List.argmax_cons, List.argmax_cons]
      rcases ih with ih | ih
      · rw [ih]
        exact .inl rfl
      · rw [ih]
        cases hb : l'.argmax seq with
        | none =>
            rw [hb, List.argmax_eq_none, List.append_eq_nil_iff] at ih
            rw [ih.1]
            exact .inl rfl
        | some b =>
            by_cases hvb : seq v < seq b
            · exact .inr (if_pos hvb)
            · refine .inl ?_
              simp only [if_neg hvb]
              cases ha : l.argmax seq with
              | none => rfl
              | some a =>
                  -- `b` is the largest of both lists, so `a` is no larger
                  have hab : seq a ≤ seq b :=
                    List.le_of_mem_argmax (List.mem_append_left l' (List.argmax_mem ha)) (ih.trans hb)
                  have hva : ¬ seq v < seq a := fun hva => hvb (hva.trans_le hab)
                  exact (if_neg hva).symm

theorem newest_append (l l' : List V) (k : κ) :
    newest key seq (l ++ l') k = newest key seq l k ∨ newest key seq (l ++ l') k = newest key seq l' k := by
  rw [newest, List.filter_append]
  exact argmax_append _ _

/-- A version of the key. -/
theorem key_of_newest {versions : List V} {k : κ} {v : V} (h : newest key seq versions k = some v) :
    v ∈ versions ∧ key v = k := by
  have hmem := List.mem_filter.mp (List.argmax_mem h)
  exact ⟨hmem.1, by simpa using hmem.2⟩

/-- Versions that differ in key or number have one newest version, in whatever order they come. -/
theorem newest_of_perm {versions versions' : List V} (hperm : versions.Perm versions')
    (hranked : versions.Pairwise fun a b => ¬ (key a = key b ∧ seq a = seq b)) (k : κ) :
    newest key seq versions k = newest key seq versions' k := by
  have hperm' := hperm.filter (key · = k)
  cases h : newest key seq versions k with
  | none =>
      rw [newest, List.argmax_eq_none] at h
      rw [h, List.nil_perm] at hperm'
      rw [newest, hperm', List.argmax_nil]
  | some v =>
      cases h' : newest key seq versions' k with
      | none =>
          rw [newest, List.argmax_eq_none] at h'
          rw [h', List.perm_nil] at hperm'
          rw [newest, hperm', List.argmax_nil] at h
          cases h
      | some w =>
          obtain ⟨hv, hvk⟩ := key_of_newest h
          obtain ⟨hw, hwk⟩ := key_of_newest h'
          have hw := hperm.mem_iff.mpr hw
          have hle : seq v ≤ seq w :=
            List.le_of_mem_argmax (hperm'.mem_iff.mp (List.argmax_mem h)) h'
          have hge : seq w ≤ seq v :=
            List.le_of_mem_argmax (hperm'.mem_iff.mpr (List.argmax_mem h')) h
          by_contra hne
          have hvw : v ≠ w := fun hvw => hne (congrArg some hvw)
          have : Std.Symm fun a b => ¬ (key a = key b ∧ seq a = seq b) :=
            ⟨fun a b hab hba => hab ⟨hba.1.symm, hba.2.symm⟩⟩
          exact hranked.forall hv hw hvw ⟨hvk.trans hwk.symm, le_antisymm hle hge⟩

theorem shownAt_eq_none {versions : List V} {k : κ} (h : ∀ v ∈ versions, key v ≠ k) :
    shownAt key seq shown versions k = none := by
  cases hnewest : newest key seq versions k with
  | none => rw [shownAt, hnewest, Option.bind_none]
  | some v =>
      obtain ⟨hmem, hkey⟩ := key_of_newest hnewest
      exact absurd hkey (h v hmem)

/-! ## One key after the other -/

/-- What a key shows, as a bag. -/
def bagAt (key : V → κ) (seq : V → σ) (shown : V → Option ρ) (versions : List V) (k : κ) : Multiset ρ :=
  ↑(shownAt key seq shown versions k).toList

theorem card_bagAt (versions : List V) (k : κ) :
    (bagAt key seq shown versions k).card = if (shownAt key seq shown versions k).isSome then 1 else 0 := by
  rw [bagAt]
  cases shownAt key seq shown versions k <;> rfl

/-- The merge is the sum over any keys among which are those of the versions. -/
theorem merge_eq_sum (versions : List V) {keys : Finset κ} (h : ∀ v ∈ versions, key v ∈ keys) :
    (↑(merge key seq shown versions) : Multiset ρ) = ∑ k ∈ keys, bagAt key seq shown versions k := by
  have hkeys : (versions.map key).toFinset ⊆ keys := by
    intro k hk
    rw [List.mem_toFinset, List.mem_map] at hk
    obtain ⟨v, hv, rfl⟩ := hk
    exact h v hv
  have hother : ∀ k ∈ keys, k ∉ (versions.map key).toFinset → bagAt key seq shown versions k = 0 := by
    intro k _ hk
    rw [List.mem_toFinset, List.mem_map] at hk
    rw [bagAt, shownAt_eq_none fun v hv heq => hk ⟨v, hv, heq⟩]
    rfl
  rw [← Finset.sum_subset hkeys hother, Finset.sum, List.toFinset_val, merge]
  generalize (versions.map key).dedup = ks
  induction ks with
  | nil => rfl
  | cons k ks ih =>
      rw [Multiset.map_coe, Multiset.sum_coe] at ih ⊢
      rw [List.map_cons, List.sum_cons, ← ih, bagAt]
      cases hshown : shownAt key seq shown versions k with
      | none => rw [List.filterMap_cons_none hshown]; simp
      | some row => rw [List.filterMap_cons_some hshown]; rfl

/-- The merges of the parts, key by key. -/
theorem sum_merge_eq_sum (parts : List (List V)) :
    (parts.map fun part => (↑(merge key seq shown part) : Multiset ρ)).sum =
      ∑ k ∈ (parts.flatten.map key).toFinset, (parts.map fun part => bagAt key seq shown part k).sum := by
  have hparts : ∀ part ∈ parts, (↑(merge key seq shown part) : Multiset ρ) =
      ∑ k ∈ (parts.flatten.map key).toFinset, bagAt key seq shown part k := by
    intro part hpart
    refine merge_eq_sum part fun v hv => List.mem_toFinset.mpr (List.mem_map_of_mem ?_)
    exact List.mem_flatten.mpr ⟨part, hpart, hv⟩
  rw [List.map_congr_left hparts]
  generalize (parts.flatten.map key).toFinset = keys
  clear hparts
  induction parts with
  | nil => simp
  | cons part parts ih =>
      simp only [List.map_cons, List.sum_cons, Finset.sum_add_distrib]
      rw [ih]

/-- A key shows at most what it shows in some part. -/
theorem bagAt_flatten_le (parts : List (List V)) (k : κ) :
    bagAt key seq shown parts.flatten k ≤ (parts.map fun part => bagAt key seq shown part k).sum := by
  induction parts with
  | nil => exact le_rfl
  | cons part parts ih =>
      rw [List.flatten_cons, List.map_cons, List.sum_cons]
      have hnewest : newest key seq (part ++ parts.flatten) k = newest key seq part k ∨
          newest key seq (part ++ parts.flatten) k = newest key seq parts.flatten k := newest_append _ _ _
      rcases hnewest with h | h
      · have hbag : bagAt key seq shown (part ++ parts.flatten) k = bagAt key seq shown part k := by
          rw [bagAt, bagAt, shownAt, shownAt, h]
        rw [hbag]
        exact le_self_add
      · have hbag : bagAt key seq shown (part ++ parts.flatten) k = bagAt key seq shown parts.flatten k := by
          rw [bagAt, bagAt, shownAt, shownAt, h]
        rw [hbag]
        exact ih.trans le_add_self

/-- Merging the whole shows at most what merging the parts shows. -/
theorem merge_flatten_le (parts : List (List V)) :
    (↑(merge key seq shown parts.flatten) : Multiset ρ) ≤
      (parts.map fun part => (↑(merge key seq shown part) : Multiset ρ)).sum := by
  classical
  rw [merge_eq_sum parts.flatten fun v hv => List.mem_toFinset.mpr (List.mem_map_of_mem hv),
    sum_merge_eq_sum parts]
  exact Finset.sum_le_sum fun k _ => bagAt_flatten_le parts k

/-- At most one member has a property just when no two have it. -/
theorem countP_le_one_iff {α : Type*} (p : α → Bool) (l : List α) :
    l.countP p ≤ 1 ↔ l.Pairwise fun a b => ¬ (p a = true ∧ p b = true) := by
  induction l with
  | nil => simp
  | cons a l ih =>
      rw [List.pairwise_cons, ← ih]
      by_cases ha : p a = true
      · rw [List.countP_cons_of_pos ha]
        have hzero : l.countP p + 1 ≤ 1 ↔ l.countP p = 0 := by omega
        rw [hzero, List.countP_eq_zero]
        constructor
        · intro h
          refine ⟨fun b hb hab => h b hb hab.2, ?_⟩
          rw [List.countP_eq_zero.mpr h]
          exact Nat.zero_le 1
        · intro h b hb hpb
          exact h.1 b hb ⟨ha, hpb⟩
      · rw [List.countP_cons_of_neg ha]
        exact ⟨fun h => ⟨fun b _ hab => ha hab.1, h⟩, fun h => h.2⟩

theorem card_sum_bagAt (parts : List (List V)) (k : κ) :
    (parts.map fun part => bagAt key seq shown part k).sum.card =
      parts.countP fun part => (shownAt key seq shown part k).isSome := by
  induction parts with
  | nil => rfl
  | cons part parts ih =>
      rw [List.map_cons, List.sum_cons, Multiset.card_add, ih, card_bagAt, List.countP_cons, Nat.add_comm]

/-- A key shows what it shows in the parts just when at most one of them shows it and it is not gone in the
whole. -/
theorem bagAt_flatten_eq_iff (parts : List (List V)) (k : κ) :
    bagAt key seq shown parts.flatten k = (parts.map fun part => bagAt key seq shown part k).sum ↔
      (parts.Pairwise fun a b =>
        ¬ ((shownAt key seq shown a k).isSome ∧ (shownAt key seq shown b k).isSome)) ∧
      ∀ part ∈ parts, (shownAt key seq shown part k).isSome → (shownAt key seq shown parts.flatten k).isSome := by
  have hle : bagAt key seq shown parts.flatten k ≤ (parts.map fun part => bagAt key seq shown part k).sum :=
    bagAt_flatten_le parts k
  have hcard : bagAt key seq shown parts.flatten k = (parts.map fun part => bagAt key seq shown part k).sum ↔
      (parts.countP fun part => (shownAt key seq shown part k).isSome) ≤
        if (shownAt key seq shown parts.flatten k).isSome then 1 else 0 := by
    rw [← card_sum_bagAt, ← card_bagAt]
    exact ⟨fun heq => (congrArg Multiset.card heq).ge, Multiset.eq_of_le_of_card_le hle⟩
  rw [hcard, ← countP_le_one_iff]
  by_cases hshown : (shownAt key seq shown parts.flatten k).isSome = true
  · rw [if_pos hshown]
    exact ⟨fun h => ⟨h, fun _ _ _ => hshown⟩, fun h => h.1⟩
  · rw [if_neg hshown, Nat.le_zero, List.countP_eq_zero]
    constructor
    · intro h
      refine ⟨?_, fun part hpart hpartShown => absurd hpartShown (h part hpart)⟩
      rw [List.countP_eq_zero.mpr h]
      exact Nat.zero_le 1
    · rintro ⟨-, h⟩ part hpart hpartShown
      exact hshown (h part hpart hpartShown)

/-- The parts show together what the whole shows just when they are settled. -/
theorem merge_flatten_eq_iff (parts : List (List V)) :
    (↑(merge key seq shown parts.flatten) : Multiset ρ) =
        (parts.map fun part => (↑(merge key seq shown part) : Multiset ρ)).sum ↔
      Settled key seq shown parts := by
  rw [merge_eq_sum parts.flatten fun v hv => List.mem_toFinset.mpr (List.mem_map_of_mem hv),
    sum_merge_eq_sum parts, Finset.sum_eq_sum_iff_of_le fun k _ => bagAt_flatten_le parts k]
  constructor
  · intro h
    have hall : ∀ k, bagAt key seq shown parts.flatten k =
        (parts.map fun part => bagAt key seq shown part k).sum := by
      intro k
      by_cases hk : k ∈ (parts.flatten.map key).toFinset
      · exact h k hk
      · -- no part has a version of the key
        have hnone : ∀ part ∈ parts, bagAt key seq shown part k = 0 := by
          intro part hpart
          rw [bagAt, shownAt_eq_none fun v hv heq => hk (List.mem_toFinset.mpr (List.mem_map.mpr
            ⟨v, List.mem_flatten.mpr ⟨part, hpart, hv⟩, heq⟩))]
          rfl
        have hzero : (parts.map fun part => bagAt key seq shown part k).sum = 0 :=
          List.sum_eq_zero fun bag hbag => by
            obtain ⟨part, hpart, rfl⟩ := List.mem_map.mp hbag
            exact hnone part hpart
        have hle : bagAt key seq shown parts.flatten k ≤ (parts.map fun part => bagAt key seq shown part k).sum :=
          bagAt_flatten_le parts k
        rw [hzero] at hle ⊢
        exact Multiset.le_zero.mp hle
    exact ⟨fun k => ((bagAt_flatten_eq_iff parts k).mp (hall k)).1,
      fun k => ((bagAt_flatten_eq_iff parts k).mp (hall k)).2⟩
  · intro h k _
    exact (bagAt_flatten_eq_iff parts k).mpr ⟨h.apart k, h.live k⟩

/-- Sums of bags, each below the other, are equal just when the bags are. -/
theorem sum_eq_sum_iff {α : Type*} {f g : α → Multiset ρ} {l : List α} (h : ∀ a ∈ l, f a ≤ g a) :
    (l.map f).sum = (l.map g).sum ↔ ∀ a ∈ l, f a = g a := by
  induction l with
  | nil => simp
  | cons a l ih =>
      have hhead := h a List.mem_cons_self
      have htail : ∀ b ∈ l, f b ≤ g b := fun b hb => h b (List.mem_cons_of_mem a hb)
      have hsum : (l.map f).sum ≤ (l.map g).sum := List.sum_le_sum htail
      rw [List.map_cons, List.map_cons, List.sum_cons, List.sum_cons, add_eq_add_iff_eq_and_eq hhead hsum,
        ih htail, List.forall_mem_cons]

end

end BrewDB.Versions

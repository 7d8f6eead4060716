import Mathlib

/-!
# Ordered maps

A key-ordered association list behind the interface of the standard library's B-tree map: lookup,
the `entry` update, the number of keys, the values in key order and the removal of the first key.
The order of the keys is carried by the structure, so two maps with the same bindings are equal.
-/

namespace BrewDB

universe u v

/-- An ordered map: its bindings in strictly increasing key order. -/
structure BTreeMap (K : Type u) (V : Type v) [LinearOrder K] where
  entries : List (K × V)
  sorted : entries.Pairwise fun a b => a.1 < b.1

namespace BTreeMap

variable {K : Type u} {V : Type v} [LinearOrder K]

/-! ## Sorted association lists -/

/-- The value bound to `k`. -/
def find (k : K) : List (K × V) → Option V
  | [] => none
  | e :: rest => if e.1 = k then some e.2 else find k rest

/-- Rebind `k` to `f` of its current value, keeping the key order. -/
def upsert (k : K) (f : Option V → V) : List (K × V) → List (K × V)
  | [] => [(k, f none)]
  | e :: rest =>
      if k < e.1 then (k, f none) :: e :: rest
      else if k = e.1 then (k, f (some e.2)) :: rest
      else e :: upsert k f rest

/-- A binding of the updated list is the updated one or an old one. -/
theorem mem_upsert {k : K} {f : Option V → V} {e : K × V} :
    {l : List (K × V)} → e ∈ upsert k f l → e.1 = k ∨ e ∈ l
  | [], h => by
      simp only [upsert, List.mem_singleton] at h
      exact Or.inl (congrArg Prod.fst h)
  | e' :: rest, h => by
      simp only [upsert] at h
      split at h
      · rcases List.mem_cons.mp h with rfl | h
        · exact Or.inl rfl
        · exact Or.inr h
      · split at h
        · rcases List.mem_cons.mp h with rfl | h
          · exact Or.inl rfl
          · exact Or.inr (List.mem_cons_of_mem _ h)
        · rcases List.mem_cons.mp h with rfl | h
          · exact Or.inr List.mem_cons_self
          · exact (mem_upsert h).imp id (List.mem_cons_of_mem _)

/-- An update keeps the keys strictly increasing. -/
theorem sorted_upsert (k : K) (f : Option V → V) :
    {l : List (K × V)} → l.Pairwise (fun a b => a.1 < b.1) →
    (upsert k f l).Pairwise fun a b => a.1 < b.1
  | [], _ => List.pairwise_singleton _ _
  | e :: rest, h => by
      obtain ⟨hhead, htail⟩ := List.pairwise_cons.mp h
      simp only [upsert]
      split
      next hlt =>
        refine List.pairwise_cons.mpr ⟨fun b hb => ?_, h⟩
        rcases List.mem_cons.mp hb with rfl | hb
        · exact hlt
        · exact hlt.trans (hhead b hb)
      next hnlt =>
        split
        next heq => exact List.pairwise_cons.mpr ⟨fun b hb => heq ▸ hhead b hb, htail⟩
        next hne =>
          refine List.pairwise_cons.mpr ⟨fun b hb => ?_, sorted_upsert k f htail⟩
          rcases mem_upsert hb with hbk | hb
          · exact hbk ▸ lt_of_le_of_ne (not_lt.mp hnlt) (Ne.symm hne)
          · exact hhead b hb

/-- Keys above `k` are not `k`. -/
theorem find_eq_none_of_lt {k : K} {l : List (K × V)} (h : ∀ e ∈ l, k < e.1) : find k l = none := by
  induction l with
  | nil => rfl
  | cons e rest ih =>
      rw [find, if_neg (h e List.mem_cons_self).ne']
      exact ih fun e' he' => h e' (List.mem_cons_of_mem _ he')

/-- Reading the updated key. -/
theorem find_upsert_self (k : K) (f : Option V → V) :
    {l : List (K × V)} → l.Pairwise (fun a b => a.1 < b.1) →
    find k (upsert k f l) = some (f (find k l))
  | [], _ => by simp [upsert, find]
  | e :: rest, h => by
      obtain ⟨hhead, htail⟩ := List.pairwise_cons.mp h
      simp only [upsert]
      split
      next hlt =>
        have hnone : find k (e :: rest) = none := find_eq_none_of_lt fun e' he' => by
          rcases List.mem_cons.mp he' with rfl | he'
          · exact hlt
          · exact hlt.trans (hhead e' he')
        rw [hnone, find, if_pos rfl]
      next hnlt =>
        split
        next heq => rw [find, if_pos rfl, find, if_pos heq.symm]
        next hne =>
          rw [find, if_neg (Ne.symm hne), find_upsert_self k f htail, find, if_neg (Ne.symm hne)]

/-- Reading any other key. -/
theorem find_upsert_ne {j k : K} (hjk : j ≠ k) (f : Option V → V) (l : List (K × V)) :
    find j (upsert k f l) = find j l := by
  induction l with
  | nil => simp [upsert, find, hjk.symm]
  | cons e rest ih =>
      simp only [upsert]
      split
      · rw [find, if_neg hjk.symm]
      · split
        next heq => rw [find, find, if_neg hjk.symm, if_neg (heq ▸ hjk.symm)]
        next => rw [find, find, ih]

/-- Updating a key above all others appends its binding. -/
theorem upsert_of_lt {k : K} {f : Option V → V} {l : List (K × V)} (h : ∀ e ∈ l, e.1 < k) :
    upsert k f l = l ++ [(k, f none)] := by
  induction l with
  | nil => rfl
  | cons e rest ih =>
      have he := h e List.mem_cons_self
      rw [upsert, if_neg he.not_gt, if_neg he.ne', ih fun e' he' => h e' (List.mem_cons_of_mem _ he'),
        List.cons_append]

/-! ## The map interface -/

/-- The map without bindings. -/
def empty : BTreeMap K V := ⟨[], List.Pairwise.nil⟩

/-- The value bound to `k`. -/
def get? (m : BTreeMap K V) (k : K) : Option V := find k m.entries

/-- Rebind `k` to `f` of its current value: the `entry` interface. -/
def alter (m : BTreeMap K V) (k : K) (f : Option V → V) : BTreeMap K V :=
  ⟨upsert k f m.entries, sorted_upsert k f m.sorted⟩

/-- The number of keys. -/
def len (m : BTreeMap K V) : ℕ := m.entries.length

/-- The values, in key order. -/
def values (m : BTreeMap K V) : List V := m.entries.map Prod.snd

/-- The binding of the smallest key. -/
def popFirst (m : BTreeMap K V) : Option (K × V) := m.entries.head?

@[simp] theorem get?_empty (k : K) : (empty : BTreeMap K V).get? k = none := rfl

@[simp] theorem get?_alter_self (m : BTreeMap K V) (k : K) (f : Option V → V) :
    (m.alter k f).get? k = some (f (m.get? k)) :=
  find_upsert_self k f m.sorted

theorem get?_alter_ne (m : BTreeMap K V) {j k : K} (h : j ≠ k) (f : Option V → V) :
    (m.alter k f).get? j = m.get? j :=
  find_upsert_ne h f m.entries

/-- A binding is found under its key. -/
theorem find_eq_some_iff {k : K} {v : V} {l : List (K × V)} (h : l.Pairwise fun a b => a.1 < b.1) :
    find k l = some v ↔ (k, v) ∈ l := by
  induction l with
  | nil => simp [find]
  | cons e rest ih =>
      obtain ⟨hhead, htail⟩ := List.pairwise_cons.mp h
      rw [find, List.mem_cons]
      split_ifs with hk
      · constructor
        · intro hv
          cases hv
          exact .inl (by rw [← hk])
        · rintro (he | hmem)
          · rw [← he]
          · exact absurd (hhead _ hmem) (by rw [hk]; exact lt_irrefl k)
      · rw [ih htail]
        constructor
        · exact .inr
        · rintro (he | hmem)
          · exact absurd (by rw [← he]) hk
          · exact hmem

theorem get?_eq_some_iff (m : BTreeMap K V) {k : K} {v : V} : m.get? k = some v ↔ (k, v) ∈ m.entries :=
  find_eq_some_iff m.sorted

/-- The values are those that are bound. -/
theorem mem_values (m : BTreeMap K V) {v : V} : v ∈ m.values ↔ ∃ k, m.get? k = some v := by
  simp only [values, List.mem_map, get?_eq_some_iff, Prod.exists, exists_eq_right]

/-- Bind `k` to `v`. -/
def insert (m : BTreeMap K V) (k : K) (v : V) : BTreeMap K V := m.alter k fun _ => v

/-- Without `k`. -/
def remove (m : BTreeMap K V) (k : K) : BTreeMap K V :=
  ⟨m.entries.filter fun e => e.1 ≠ k, m.sorted.filter _⟩

theorem get?_insert (m : BTreeMap K V) (j k : K) (v : V) :
    (m.insert k v).get? j = if j = k then some v else m.get? j := by
  split_ifs with h
  · rw [h]
    exact get?_alter_self m k _
  · exact get?_alter_ne m h _

theorem get?_remove (m : BTreeMap K V) (j k : K) :
    (m.remove k).get? j = if j = k then none else m.get? j := by
  have hmem : ∀ v, (m.remove k).get? j = some v ↔ j ≠ k ∧ m.get? j = some v := fun v => by
    rw [get?_eq_some_iff, get?_eq_some_iff]
    simp [remove, and_comm]
  split_ifs with h
  · refine Option.eq_none_iff_forall_ne_some.mpr fun v hv => ?_
    exact ((hmem v).mp hv).1 h
  · refine Option.ext fun v => ?_
    rw [hmem v]
    exact and_iff_right h

/-- Updating a key above all others appends its binding. -/
theorem entries_alter_of_lt {m : BTreeMap K V} {k : K} {f : Option V → V}
    (h : ∀ e ∈ m.entries, e.1 < k) : (m.alter k f).entries = m.entries ++ [(k, f none)] :=
  upsert_of_lt h

end BTreeMap

end BrewDB

import BrewDB.Common.BTreeMap

/-!
# Entries under two indexes

Entries are kept under a key and under an id, in two maps that are written one after the other. The maps
are consistent when they hold the same entries, each under its own key and its own id. A write keeps them
consistent if it replaces the same entry in both.
-/

namespace BrewDB

universe u v w

/-- Entries by key and by id. -/
structure TwoIndex (K : Type u) (I : Type v) (E : Type w) [LinearOrder K] [LinearOrder I] where
  byKey : BTreeMap K E
  byId : BTreeMap I E

namespace TwoIndex

variable {K : Type u} {I : Type v} {E : Type w} [LinearOrder K] [LinearOrder I]

/-- No entries. -/
def empty : TwoIndex K I E := ⟨.empty, .empty⟩

variable (key : E → K) (id : E → I)

/-- Write an entry under its id, then under its key. -/
def put (t : TwoIndex K I E) (e : E) : TwoIndex K I E :=
  ⟨t.byKey.insert (key e) e, t.byId.insert (id e) e⟩

/-- Remove the entry of a key, and then what is under its id. -/
def delete (t : TwoIndex K I E) (k : K) : TwoIndex K I E :=
  match t.byKey.get? k with
  | some e => ⟨t.byKey.remove k, t.byId.remove (id e)⟩
  | none => ⟨t.byKey.remove k, t.byId⟩

/-- Both maps hold the same entries, each under its own key and id. -/
structure Consistent (t : TwoIndex K I E) : Prop where
  of_key : ∀ k e, t.byKey.get? k = some e → key e = k ∧ t.byId.get? (id e) = some e
  of_id : ∀ i e, t.byId.get? i = some e → id e = i ∧ t.byKey.get? (key e) = some e

variable {key id}

theorem consistent_empty : Consistent key id (empty : TwoIndex K I E) where
  of_key _ _ h := by cases h
  of_id _ _ h := by cases h

/-- A new entry, or one in the place of another with the same key and id. -/
theorem Consistent.put {t : TwoIndex K I E} (h : Consistent key id t) {e : E}
    (hkey : ∀ e', t.byKey.get? (key e) = some e' → id e' = id e)
    (hid : ∀ e', t.byId.get? (id e) = some e' → key e' = key e) : Consistent key id (t.put key id e) where
  of_key k e' he' := by
    simp only [TwoIndex.put, BTreeMap.get?_insert] at he' ⊢
    split_ifs at he' with hk
    · cases he'
      exact ⟨hk.symm, if_pos rfl⟩
    · obtain ⟨hkey', hid'⟩ := h.of_key k e' he'
      refine ⟨hkey', ?_⟩
      rw [if_neg, hid']
      intro heq
      rw [heq] at hid'
      exact hk (hkey'.symm.trans (hid e' hid'))
  of_id i e' he' := by
    simp only [TwoIndex.put, BTreeMap.get?_insert] at he' ⊢
    split_ifs at he' with hi
    · cases he'
      exact ⟨hi.symm, if_pos rfl⟩
    · obtain ⟨hid', hkey'⟩ := h.of_id i e' he'
      refine ⟨hid', ?_⟩
      rw [if_neg, hkey']
      intro heq
      rw [heq] at hkey'
      exact hi (hid'.symm.trans (hkey e' hkey'))

theorem Consistent.delete {t : TwoIndex K I E} (h : Consistent key id t) (k : K) :
    Consistent key id (t.delete id k) := by
  cases hk : t.byKey.get? k with
  | none =>
      simp only [TwoIndex.delete, hk]
      refine ⟨fun k' e' he' => ?_, fun i e' he' => ?_⟩
      · rw [BTreeMap.get?_remove] at he'
        split_ifs at he' with hk'
        exact h.of_key k' e' he'
      · obtain ⟨hid', hkey'⟩ := h.of_id i e' he'
        refine ⟨hid', ?_⟩
        rw [BTreeMap.get?_remove, if_neg, hkey']
        intro heq
        rw [heq, hk] at hkey'
        cases hkey'
  | some e =>
      simp only [TwoIndex.delete, hk]
      obtain ⟨hkey, hid⟩ := h.of_key k e hk
      refine ⟨fun k' e' he' => ?_, fun i e' he' => ?_⟩
      · rw [BTreeMap.get?_remove] at he'
        split_ifs at he' with hk'
        obtain ⟨hkey', hid'⟩ := h.of_key k' e' he'
        refine ⟨hkey', ?_⟩
        rw [BTreeMap.get?_remove, if_neg, hid']
        intro heq
        rw [heq, hid] at hid'
        cases hid'
        exact hk' (hkey'.symm.trans hkey)
      · rw [BTreeMap.get?_remove] at he'
        split_ifs at he' with hi
        obtain ⟨hid', hkey'⟩ := h.of_id i e' he'
        refine ⟨hid', ?_⟩
        rw [BTreeMap.get?_remove, if_neg, hkey']
        intro heq
        rw [heq, hk] at hkey'
        cases hkey'
        exact hi hid'.symm

theorem get?_put (t : TwoIndex K I E) (e : E) (k : K) :
    (t.put key id e).byKey.get? k = if k = key e then some e else t.byKey.get? k :=
  BTreeMap.get?_insert _ _ _ _

theorem get?_delete (t : TwoIndex K I E) (j k : K) :
    (t.delete id k).byKey.get? j = if j = k then none else t.byKey.get? j := by
  rw [delete]
  split
  · exact BTreeMap.get?_remove _ _ _
  · exact BTreeMap.get?_remove _ _ _

/-- Nothing is left under the id of an entry that was removed. -/
theorem get?_byId_delete {t : TwoIndex K I E} {k : K} {e : E} (h : t.byKey.get? k = some e) (i : I) :
    (t.delete id k).byId.get? i = if i = id e then none else t.byId.get? i := by
  simp only [delete, h]
  exact BTreeMap.get?_remove _ _ _

/-- The keys of a consistent pair of maps are in order, so that no entry is listed twice. -/
theorem Consistent.nodup_values {t : TwoIndex K I E} (h : Consistent key id t) : t.byKey.values.Nodup := by
  have hsorted : t.byKey.values.Pairwise fun a b => key a < key b := by
    rw [BTreeMap.values, List.pairwise_map]
    refine t.byKey.sorted.imp_of_mem fun {a b} ha hb hlt => ?_
    rw [(h.of_key a.1 a.2 ((t.byKey.get?_eq_some_iff).mpr ha)).1,
      (h.of_key b.1 b.2 ((t.byKey.get?_eq_some_iff).mpr hb)).1]
    exact hlt
  exact hsorted.imp fun hlt heq => absurd (heq ▸ hlt) (lt_irrefl _)

/-- An entry of a consistent pair of maps is found under its key. -/
theorem Consistent.mem_values {t : TwoIndex K I E} (h : Consistent key id t) {e : E} :
    e ∈ t.byKey.values ↔ t.byKey.get? (key e) = some e := by
  rw [BTreeMap.mem_values]
  constructor
  · rintro ⟨k, hk⟩
    rw [(h.of_key k e hk).1]
    exact hk
  · exact fun he => ⟨_, he⟩

end TwoIndex

end BrewDB

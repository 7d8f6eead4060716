import Mathlib

/-!
# Sparse lists

A list with holes, listed by the positions that are filled, and rebuilt from such a listing by
writing the entries one after the other into a list of holes.
-/

namespace SparseList

variable {α : Type}

/-- The filled positions of a list, in order. -/
def entries (l : List (Option α)) : List (ℕ × α) :=
  l.zipIdx.filterMap fun e => e.1.map fun a => (e.2, a)

theorem mem_entries {l : List (Option α)} {i : ℕ} {a : α} :
    (i, a) ∈ entries l ↔ l[i]? = some (some a) := by
  simp only [entries, List.mem_filterMap, Option.map_eq_some_iff, Prod.mk.injEq]
  constructor
  · rintro ⟨⟨slot, position⟩, hzip, b, rfl, rfl, rfl⟩
    exact List.mem_zipIdx_iff_getElem?.mp hzip
  · intro h
    exact ⟨(some a, i), List.mem_zipIdx_iff_getElem?.mpr h, a, rfl, rfl, rfl⟩

/-- Write the entries into a list; an entry beyond its end is dropped. -/
def write (l : List (Option α)) (es : List (ℕ × α)) : List (Option α) :=
  es.foldl (fun l e => if e.1 < l.length then l.set e.1 (some e.2) else l) l

@[simp] theorem length_write (l : List (Option α)) (es : List (ℕ × α)) :
    (write l es).length = l.length := by
  induction es generalizing l with
  | nil => rfl
  | cons e es ih =>
      show (write (if e.1 < l.length then l.set e.1 (some e.2) else l) es).length = _
      rw [ih]
      split
      · exact List.length_set
      · rfl

theorem getElem?_write_cons (l : List (Option α)) (e : ℕ × α) (es : List (ℕ × α)) :
    write l (e :: es) = write (l.set e.1 (some e.2)) es := by
  show write (if e.1 < l.length then l.set e.1 (some e.2) else l) es = _
  by_cases h : e.1 < l.length
  · rw [if_pos h]
  · rw [if_neg h, List.set_eq_of_length_le (Nat.le_of_not_lt h)]

/-- Positions that no entry names keep their value. -/
theorem getElem?_write_of_forall_ne {l : List (Option α)} {es : List (ℕ × α)} {i : ℕ}
    (h : ∀ e ∈ es, e.1 ≠ i) : (write l es)[i]? = l[i]? := by
  induction es generalizing l with
  | nil => rfl
  | cons e es ih =>
      rw [List.forall_mem_cons] at h
      rw [getElem?_write_cons, ih h.2, List.getElem?_set_ne h.1]

/-- What is found after writing was there before, or is an entry. -/
theorem mem_of_getElem?_write {l : List (Option α)} {es : List (ℕ × α)} {i : ℕ} {a : α}
    (h : (write l es)[i]? = some (some a)) : l[i]? = some (some a) ∨ (i, a) ∈ es := by
  induction es generalizing l with
  | nil => exact Or.inl h
  | cons e es ih =>
      rw [getElem?_write_cons] at h
      rcases ih h with h | h
      · by_cases hi : e.1 = i
        · rw [hi, List.getElem?_set_self'] at h
          obtain ⟨_, -, heq⟩ := Option.map_eq_some_iff.mp h
          have heq : e.2 = a := Option.some.inj heq
          exact Or.inr (by rw [← hi, ← heq]; exact List.mem_cons_self)
        · rw [List.getElem?_set_ne hi] at h
          exact Or.inl h
      · exact Or.inr (List.mem_cons_of_mem _ h)

/-- With one entry for each position, an entry is found where it was written. -/
theorem getElem?_write_of_mem {l : List (Option α)} {es : List (ℕ × α)} {i : ℕ} {a : α}
    (hnodup : (es.map Prod.fst).Nodup) (hmem : (i, a) ∈ es) (hi : i < l.length) :
    (write l es)[i]? = some (some a) := by
  induction es generalizing l with
  | nil => cases hmem
  | cons e es ih =>
      obtain ⟨hfirst, hrest⟩ := List.nodup_cons.mp hnodup
      rw [getElem?_write_cons]
      rcases List.mem_cons.mp hmem with rfl | hmem
      · have hne : ∀ e ∈ es, e.1 ≠ i := by
          intro e he heq
          exact hfirst (List.mem_map.mpr ⟨e, he, heq⟩)
        rw [getElem?_write_of_forall_ne hne]
        exact List.getElem?_set_self hi
      · exact ih hrest hmem (by rwa [List.length_set])

/-- The positions of the entries of a list are distinct. -/
theorem nodup_entries (l : List (Option α)) : ((entries l).map Prod.fst).Nodup := by
  have hpositions : (l.zipIdx.map Prod.snd).Nodup := by
    rw [List.zipIdx_map_snd]
    exact List.nodup_range'
  refine List.pairwise_map.mpr (List.pairwise_filterMap.mpr ?_)
  refine (List.pairwise_map.mp hpositions).imp fun hne b hb b' hb' => ?_
  obtain ⟨a, -, rfl⟩ := Option.map_eq_some_iff.mp hb
  obtain ⟨a', -, rfl⟩ := Option.map_eq_some_iff.mp hb'
  exact hne

end SparseList

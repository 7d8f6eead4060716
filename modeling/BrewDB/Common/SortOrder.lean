import Mathlib

/-!
# Orders by several keys

Total preorders on the members of a list, put together from several keys, and lists sorted by them. A
selection keeps one member of each class of a key; whether it keeps the first ones is a question of ties.
-/

namespace BrewDB.SortOrder

universe u v

variable {α : Type u} {κ : Type v}

/-- A total preorder. -/
structure TotalPreorder (le : α → α → Prop) : Prop where
  total : ∀ a b, le a b ∨ le b a
  trans : ∀ a b c, le a b → le b c → le a c

namespace TotalPreorder

variable {le : α → α → Prop}

theorem refl (h : TotalPreorder le) (a : α) : le a a := (h.total a a).elim id id

end TotalPreorder

/-- Compare by the first key, then by the others. -/
def lex : List (α → α → Prop) → α → α → Prop
  | [], _, _ => True
  | le :: rest, a, b => le a b ∧ (le b a → lex rest a b)

/-- `out` is `l` in sorted order; ties stand in any order. -/
def IsSorting (le : α → α → Prop) (l out : List α) : Prop := out.Perm l ∧ out.Pairwise le

/-! ## One member for each key -/

/-- One member of `l` for each of its keys. -/
structure Represents (key : α → κ) (l s : List α) : Prop where
  nodup : (s.map key).Nodup
  mem : ∀ x ∈ s, x ∈ l
  exists_key : ∀ x ∈ l, ∃ y ∈ s, key y = key x

theorem Represents.perm {key : α → κ} {l s s' : List α} (h : Represents key l s) (hperm : s'.Perm s) :
    Represents key l s' where
  nodup := (hperm.map key).nodup_iff.mpr h.nodup
  mem x hx := h.mem x (hperm.mem_iff.mp hx)
  exists_key x hx := by
    obtain ⟨y, hy, hkey⟩ := h.exists_key x hx
    exact ⟨y, hperm.mem_iff.mpr hy, hkey⟩

/-- Members under another form, from which the key is still read off. -/
theorem Represents.map {β : Type*} {key : α → κ} {l s : List α} (f : α → β) (g : β → α)
    (hgf : ∀ a, g (f a) = a) (h : Represents key l s) :
    Represents (fun b => key (g b)) (l.map f) (s.map f) where
  nodup := by
    rw [List.map_map]
    simpa [Function.comp_def, hgf] using h.nodup
  mem := List.forall_mem_map.mpr fun x hx => List.mem_map_of_mem (h.mem x hx)
  exists_key := List.forall_mem_map.mpr fun x hx => by
    obtain ⟨y, hy, hkey⟩ := h.exists_key x hx
    exact ⟨f y, List.mem_map_of_mem hy, by rw [hgf, hgf, hkey]⟩

/-- And back again. -/
theorem Represents.of_map {β : Type*} {key : α → κ} {l : List α} {s : List β} {f : α → β} (g : β → α)
    (hgf : ∀ a, g (f a) = a) (h : Represents (fun b => key (g b)) (l.map f) s) :
    Represents key l (s.map g) where
  nodup := by
    rw [List.map_map]
    exact h.nodup
  mem := List.forall_mem_map.mpr fun b hb => by
    obtain ⟨a, ha, rfl⟩ := List.mem_map.mp (h.mem b hb)
    rwa [hgf]
  exists_key x hx := by
    obtain ⟨b, hb, hkey⟩ := h.exists_key (f x) (List.mem_map_of_mem hx)
    exact ⟨g b, List.mem_map_of_mem hb, by rw [hkey, hgf]⟩

end BrewDB.SortOrder

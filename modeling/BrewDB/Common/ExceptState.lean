import Mathlib

/-!
# Inverting successful runs

What a successful run of a computation with errors, or with errors and a state, says about its parts. A
traversal relates two lists member by member.
-/

namespace BrewDB

universe u

variable {ε α β σ : Type u}

namespace ForallTwo

/-- Every member on the left has a partner. -/
theorem exists_right {R : α → β → Prop} {l : List α} {r : List β} (h : List.Forall₂ R l r) {a : α}
    (ha : a ∈ l) : ∃ b ∈ r, R a b := by
  induction h with
  | nil => cases ha
  | cons hhead _ ih =>
      rcases List.mem_cons.mp ha with rfl | ha
      · exact ⟨_, List.mem_cons_self, hhead⟩
      · obtain ⟨b, hb, hab⟩ := ih ha
        exact ⟨b, List.mem_cons_of_mem _ hb, hab⟩

/-- Every member on the right has a partner. -/
theorem exists_left {R : α → β → Prop} {l : List α} {r : List β} (h : List.Forall₂ R l r) {b : β}
    (hb : b ∈ r) : ∃ a ∈ l, R a b :=
  exists_right h.flip hb

/-- Partners stand at the same place. -/
theorem getElem?_right {R : α → β → Prop} {l : List α} {r : List β} (h : List.Forall₂ R l r) {i : ℕ} {a : α}
    (ha : l[i]? = some a) : ∃ b, r[i]? = some b ∧ R a b := by
  induction h generalizing i with
  | nil => cases ha
  | cons hhead _ ih =>
      cases i with
      | zero =>
          obtain rfl := Option.some.inj ha
          exact ⟨_, rfl, hhead⟩
      | succ i => exact ih ha

end ForallTwo

namespace ExceptRun

/-- A successful sequence is two successful steps. -/
theorem bind_eq_ok {x : Except ε α} {f : α → Except ε β} {b : β} :
    (x >>= f) = .ok b ↔ ∃ a, x = .ok a ∧ f a = .ok b := by
  cases x with
  | error e => simp [bind, Except.bind]
  | ok a => simp [bind, Except.bind]

/-- A successful image has a successful preimage. -/
theorem map_eq_ok {x : Except ε α} {f : α → β} {b : β} :
    x.map f = .ok b ↔ ∃ a, x = .ok a ∧ f a = b := by
  cases x with
  | error e => simp [Except.map]
  | ok a => simp [Except.map]

theorem mapError_eq_ok {ε' : Type*} {x : Except ε α} {f : ε → ε'} {a : α} : x.mapError f = .ok a ↔ x = .ok a := by
  cases x <;> simp [Except.mapError]

theorem exists_of_isOk {x : Except ε α} (h : x.isOk = true) : ∃ a, x = .ok a := by
  cases x with
  | ok a => exact ⟨a, rfl⟩
  | error e => cases h

theorem pure_eq_ok {a b : α} : (pure a : Except ε α) = .ok b ↔ a = b := by
  simp [pure, Except.pure]

/-- A successful traversal is one successful step for each member. -/
theorem mapM_eq_ok {f : α → Except ε β} {l : List α} {r : List β} :
    l.mapM f = .ok r ↔ List.Forall₂ (fun a b => f a = .ok b) l r := by
  induction l generalizing r with
  | nil => rw [List.mapM_nil, pure_eq_ok, List.forall₂_nil_left_iff, eq_comm]
  | cons a l ih =>
      rw [List.mapM_cons, bind_eq_ok, List.forall₂_cons_left_iff]
      refine exists_congr fun b => ?_
      rw [bind_eq_ok]
      constructor
      · rintro ⟨hb, bs, hbs, h⟩
        exact ⟨bs, hb, ih.mp hbs, (pure_eq_ok.mp h).symm⟩
      · rintro ⟨bs, hb, hbs, rfl⟩
        exact ⟨hb, bs, ih.mpr hbs, rfl⟩

/-- A traversal succeeds if every step does. -/
theorem exists_mapM_eq_ok {f : α → Except ε β} {l : List α} (h : ∀ a ∈ l, ∃ b, f a = .ok b) :
    ∃ r, l.mapM f = .ok r := by
  induction l with
  | nil => exact ⟨[], rfl⟩
  | cons a l ih =>
      obtain ⟨b, hb⟩ := h a List.mem_cons_self
      obtain ⟨r, hr⟩ := ih fun a' ha' => h a' (List.mem_cons_of_mem _ ha')
      exact ⟨b :: r, mapM_eq_ok.mpr (.cons hb (mapM_eq_ok.mp hr))⟩

/-- Two computations succeed alike; they may fail in different ways. -/
def SameOk (x y : Except ε α) : Prop := ∀ a, x = .ok a ↔ y = .ok a

theorem SameOk.refl (x : Except ε α) : SameOk x x := fun _ => Iff.rfl

/-- Alike in each step, as far as the steps before succeed. -/
theorem SameOk.bind {x y : Except ε α} {f g : α → Except ε β} (h : SameOk x y)
    (hfg : ∀ a, x = .ok a → SameOk (f a) (g a)) : SameOk (x >>= f) (y >>= g) := by
  intro b
  rw [bind_eq_ok, bind_eq_ok]
  constructor
  · rintro ⟨a, ha, hb⟩
    exact ⟨a, (h a).mp ha, (hfg a ha b).mp hb⟩
  · rintro ⟨a, ha, hb⟩
    have hx := (h a).mpr ha
    exact ⟨a, hx, (hfg a hx b).mpr hb⟩

end ExceptRun

namespace StateRun

/-- A successful sequence is two successful steps with the state threaded. -/
theorem bind_eq_ok {x : StateT σ (Except ε) α} {f : α → StateT σ (Except ε) β} {s s'' : σ} {b : β} :
    (x >>= f) s = .ok (b, s'') ↔ ∃ a s', x s = .ok (a, s') ∧ f a s' = .ok (b, s'') := by
  show (x s >>= fun p => f p.1 p.2) = .ok (b, s'') ↔ _
  rw [ExceptRun.bind_eq_ok, Prod.exists]

theorem pure_eq_ok {a b : α} {s s' : σ} :
    (pure a : StateT σ (Except ε) α) s = .ok (b, s') ↔ a = b ∧ s = s' := by
  simp [pure, StateT.pure, Except.pure]

/-- A lifted computation leaves the state alone. -/
theorem lift_eq_ok {x : Except ε α} {a : α} {s s' : σ} :
    (liftM x : StateT σ (Except ε) α) s = .ok (a, s') ↔ x = .ok a ∧ s = s' := by
  show (x >>= fun a => pure (a, s)) = .ok (a, s') ↔ _
  rw [ExceptRun.bind_eq_ok]
  constructor
  · rintro ⟨b, hb, h⟩
    obtain ⟨rfl, rfl⟩ := Prod.mk.inj (ExceptRun.pure_eq_ok.mp h)
    exact ⟨hb, rfl⟩
  · rintro ⟨hb, rfl⟩
    exact ⟨a, hb, rfl⟩

theorem modify_eq_ok {f : σ → σ} {s s' : σ} {u : PUnit} :
    (modify f : StateT σ (Except ε) PUnit) s = .ok (u, s') ↔ f s = s' := by
  simp [modify, modifyGet, MonadStateOf.modifyGet, StateT.modifyGet, pure, Except.pure]

end StateRun

end BrewDB

import Mathlib

/-!
# Reading from a stream

A pipe carries items in order; some have arrived, the others are in flight, and the writer may close it. A blocking
read ends once what has arrived settles it, that is, once it would end in the same way whatever follows, or once a
closed pipe has delivered everything. A read that leaves behind what follows is settled by nothing short of the whole
that it reads.
-/

namespace BrewDB.Stream

variable {β α γ : Type}

/-! ## Settled reads -/

/-- What has arrived settles a read: this is how it ends, as a function of what follows. -/
def Settled (read : List β → γ) (arrived : List β) (outcome : List β → γ) : Prop :=
  ∀ more, read (arrived ++ more) = outcome more

variable {read : List β → γ} {arrived later : List β} {outcome outcome' : List β → γ}

/-- A read that is settled early is settled in the same way later. -/
theorem Settled.eq_of_append (hwhole : Settled read (arrived ++ later) outcome)
    (h : Settled read arrived outcome') (more : List β) : outcome' (later ++ more) = outcome more := by
  rw [← h, ← hwhole, List.append_assoc]

/-! ## Pipes -/

/-- Items on their way from a writer to a reader. -/
structure Pipe (β : Type) where
  arrived : List β
  inFlight : List β
  closed : Bool

namespace Pipe

/-- Nothing on the way. -/
def empty : Pipe β := ⟨[], [], false⟩

/-- All that is written and not yet read. -/
def items (pipe : Pipe β) : List β := pipe.arrived ++ pipe.inFlight

/-- The writer writes. -/
def send (pipe : Pipe β) (items : List β) : Pipe β := { pipe with inFlight := pipe.inFlight ++ items }

/-- The writer closes. -/
def close (pipe : Pipe β) : Pipe β := { pipe with closed := true }

/-- The reader has read, and this is left of what has arrived. -/
def leave (pipe : Pipe β) (rest : List β) : Pipe β := { pipe with arrived := rest }

/-- One item arrives. -/
inductive Delivers : Pipe β → Pipe β → Prop
  | one (arrived : List β) (item : β) (inFlight : List β) (closed : Bool) :
      Delivers ⟨arrived, item :: inFlight, closed⟩ ⟨arrived ++ [item], inFlight, closed⟩

/-- A blocking read ends: with this outcome, as a function of what is left of the arrived. -/
def Reads (pipe : Pipe β) (read : List β → γ) (outcome : List β → γ) : Prop :=
  Settled read pipe.arrived outcome ∨ pipe.closed = true ∧ pipe.inFlight = [] ∧ read pipe.arrived = outcome []

section

variable {pipe pipe' : Pipe β}

@[simp]
theorem items_empty : (empty : Pipe β).items = [] := rfl

@[simp]
theorem items_close : pipe.close.items = pipe.items := rfl

@[simp]
theorem items_send (items : List β) : (pipe.send items).items = pipe.items ++ items := by
  rw [Pipe.items, Pipe.items, send, List.append_assoc]

/-- Delivery keeps what is on the way. -/
theorem items_of_delivers (h : Delivers pipe pipe') : pipe'.items = pipe.items := by
  cases h with
  | one arrived item inFlight closed => simp [items]

theorem eq_empty (hitems : pipe.items = []) (hopen : pipe.closed = false) : pipe = empty := by
  obtain ⟨arrived, inFlight, closed⟩ := pipe
  obtain ⟨rfl, rfl⟩ := List.append_eq_nil_iff.mp hitems
  obtain rfl : closed = false := hopen
  rfl

theorem length_of_delivers (h : Delivers pipe pipe') : pipe'.inFlight.length < pipe.inFlight.length := by
  cases h with
  | one arrived item inFlight closed => exact Nat.lt_succ_self _

theorem closed_of_delivers (h : Delivers pipe pipe') : pipe'.closed = pipe.closed := by
  cases h with
  | one arrived item inFlight closed => rfl

/-- As long as something is in flight, something can arrive. -/
theorem exists_delivers (h : pipe.inFlight ≠ []) : ∃ pipe', Delivers pipe pipe' := by
  obtain ⟨arrived, inFlight, closed⟩ := pipe
  cases inFlight with
  | nil => exact absurd rfl h
  | cons item inFlight => exact ⟨_, .one arrived item inFlight closed⟩

/-- Nothing arrives when nothing is on the way. -/
theorem not_delivers (h : pipe.items = []) : ¬ Delivers pipe pipe' := by
  intro hdelivers
  cases hdelivers with
  | one arrived item inFlight closed => simp [items] at h

end

section

variable {pipe : Pipe β} {whole rest : List β} {value value' : α}

/-- However a read ends, it ends as it does on the whole. -/
theorem Reads.eq_of_items (result : α → List β → γ) (hitems : pipe.items = whole)
    (hwhole : Settled read whole (result value)) (h : pipe.Reads read outcome) :
    outcome pipe.inFlight = result value [] := by
  subst hitems
  rcases h with h | ⟨-, hflight, h⟩
  · have heq := Settled.eq_of_append hwhole h []
    rwa [List.append_nil] at heq
  · have heq := hwhole []
    rw [List.append_nil, items, hflight, List.append_nil, h] at heq
    rw [hflight, heq]

/-- A read that ends with a value, and leaves what follows, takes all that is on the way. -/
theorem Reads.takes_whole (result : α → List β → γ) (hinj : ∀ a b r s, result a r = result b s → a = b ∧ r = s)
    (hitems : pipe.items = whole) (hwhole : Settled read whole (result value))
    (h : pipe.Reads read fun more => result value' (rest ++ more)) :
    value' = value ∧ (pipe.leave rest).items = [] := by
  have heq : result value' (rest ++ pipe.inFlight) = result value [] := h.eq_of_items result hitems hwhole
  obtain ⟨hvalue, hnil⟩ := hinj _ _ _ _ heq
  exact ⟨hvalue, hnil⟩

/-- Before anything is written, no read ends. -/
theorem not_reads_empty (result : α → List β → γ) (hinj : ∀ a b r s, result a r = result b s → a = b ∧ r = s)
    (hne : whole ≠ []) (hwhole : Settled read whole (result value)) :
    ¬ empty.Reads read fun more => result value' (rest ++ more) := by
  rintro (h | ⟨hclosed, -⟩)
  · have heq := Settled.eq_of_append hwhole h []
    obtain ⟨-, hnil⟩ := hinj _ _ _ _ heq
    rw [List.append_nil] at hnil
    exact hne (List.append_eq_nil_iff.mp hnil).2
  · cases hclosed

/-- Nor in a way that depends on nothing. -/
theorem not_reads_empty_const (result : α → List β → γ) {other : γ} (hother : ∀ r, result value r ≠ other)
    (hwhole : Settled read whole (result value)) : ¬ empty.Reads read fun _ => other := by
  rintro (h | ⟨hclosed, -⟩)
  · exact hother [] (Settled.eq_of_append hwhole h []).symm
  · cases hclosed

/-- Either something is still to arrive, or the read ends. -/
theorem delivers_or_reads (hitems : pipe.items = whole) (hwhole : Settled read whole outcome) :
    (∃ pipe', Delivers pipe pipe') ∨ pipe.Reads read fun more => outcome ([] ++ more) := by
  by_cases hflight : pipe.inFlight = []
  · rw [items, hflight, List.append_nil] at hitems
    rw [Reads, hitems]
    exact .inr (.inl hwhole)
  · exact .inl (exists_delivers hflight)

end

end Pipe

/-! ## Taking turns -/

/-- If there is a last turn, and within a turn every step uses something up, no run goes on forever. -/
theorem not_forever {S : Type} {step : S → S → Prop} {inTurn : ℕ → S → Prop} {size : S → ℕ} {last : ℕ}
    (hlast : ∀ turn s, inTurn turn s → turn ≤ last)
    (hstep : ∀ turn s s', inTurn turn s → step s s' → inTurn turn s' ∧ size s' < size s ∨ inTurn (turn + 1) s')
    {run : ℕ → S} (hrun : ∀ i, step (run i) (run (i + 1))) {i turn : ℕ} : ¬ inTurn turn (run i) := by
  suffices hleft : ∀ left n i turn, last < turn + left → size (run i) = n → ¬ inTurn turn (run i) from
    hleft (last + 1) _ i turn (by omega) rfl
  intro left
  induction left with
  | zero =>
      intro n i turn hturn _ hin
      have := hlast turn _ hin
      omega
  | succ left ih =>
      intro n
      induction n using Nat.strong_induction_on with
      | _ n ihsize =>
          intro i turn hturn hsize hin
          rcases hstep turn _ _ hin (hrun i) with ⟨hsame, hless⟩ | hnext
          · exact ihsize _ (hsize ▸ hless) (i + 1) turn hturn rfl hsame
          · exact ih _ (i + 1) (turn + 1) (by omega) rfl hnext

end BrewDB.Stream

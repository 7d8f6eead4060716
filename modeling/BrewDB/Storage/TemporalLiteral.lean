import BrewDB.Storage.PaimonPredicate

/-!
# Temporal literals for Paimon

`scalar_to_datum` splits timestamps into milliseconds and nanoseconds with Rust's `/` and `%`, and narrows
dates and times with `as i32`. A timestamp of Paimon is well formed if its nanoseconds are less than a
millisecond and not negative.
-/

namespace BrewDB

section Temporal

variable {F : Type}

/-- The nanoseconds of a timestamp are those within its millisecond. -/
def Datum.WellFormed : Datum F → Prop
  | .timestamp _ nanos => 0 ≤ nanos ∧ nanos < 1000000
  | _ => True

/-- Every datum of a literal is well formed and has its exact value. -/
def ScalarValue.Exact (value : ScalarValue F) : Prop :=
  ∀ datum, scalarToDatum value = some datum → value.denote = some datum.denote ∧ datum.WellFormed

/-- What a datum holds is not cut off, and a timestamp in microseconds is not rounded up to a later
millisecond. -/
def ScalarValue.Splits : ScalarValue F → Prop
  | .timestampMicrosecond (some v) _ => 0 ≤ v.toInt ∨ (1000 ∣ v.toInt)
  | value => value.Representable

/-- The microseconds behind a truncated millisecond have the sign of the whole. -/
theorem timestampMicrosecond_nanos_iff (value : ℤ) :
    (0 ≤ asI32 (value.tmod 1000 * 1000) ∧ asI32 (value.tmod 1000 * 1000) < 1000000) ↔
      0 ≤ value ∨ (1000 ∣ value) := by
  have hlow := Int.lt_tmod_of_pos value (b := 1000) (by decide)
  have hhigh := Int.tmod_lt_of_pos value (b := 1000) (by decide)
  rw [asI32_eq (by omega) (by omega), Int.dvd_iff_tmod_eq_zero]
  constructor
  · rintro ⟨hnanos, -⟩
    by_contra hneg
    rw [not_or, not_le] at hneg
    have hmod := Int.tmod_nonneg 1000 (a := -value) (by omega)
    rw [Int.neg_tmod] at hmod
    omega
  · rintro (hpos | hzero)
    · have hmod := Int.tmod_nonneg 1000 hpos
      omega
    · omega

/-- Whole milliseconds leave no nanoseconds. -/
theorem timestampNanosecond_nanos {value : ℤ} (h : 1000000 ∣ value) :
    asI32 (value.tmod 1000000 * 1000) = 0 := by
  rw [Int.dvd_iff_tmod_eq_zero.mp h]
  rfl

theorem decimalDatum_wellFormed {unscaled : ℤ} {precision : UInt8} {scale : Int8} {datum : Datum F}
    (h : decimalDatum unscaled precision scale = some datum) : datum.WellFormed := by
  obtain ⟨-, hdatum⟩ := Option.ite_none_right_eq_some.mp h
  obtain rfl := Option.some.inj hdatum
  trivial

/-- A literal that keeps its value is well formed exactly if it splits. -/
theorem wellFormed_iff_splits {value : ScalarValue F} {datum : Datum F} (h : scalarToDatum value = some datum)
    (hvalue : value.Representable) : datum.WellFormed ↔ value.Splits := by
  cases value with
  | null => cases h
  | other v => cases h
  | timestampSecond v tz => cases h
  | decimal256 v precision scale => cases h
  -- timestamps
  | timestampMillisecond v tz =>
      obtain - | v := v
      · cases h
      · obtain rfl := Option.some.inj h
        exact iff_of_true ⟨le_rfl, by decide⟩ hvalue
  | timestampMicrosecond v tz =>
      obtain - | v := v
      · cases h
      · obtain rfl := Option.some.inj h
        exact timestampMicrosecond_nanos_iff v.toInt
  | timestampNanosecond v tz =>
      obtain - | v := v
      · cases h
      · obtain rfl := Option.some.inj h
        refine iff_of_true ?_ hvalue
        rw [Datum.WellFormed, timestampNanosecond_nanos hvalue]
        exact ⟨le_rfl, by decide⟩
  -- the others
  | uint64 v =>
      obtain - | v := v
      · cases h
      · obtain ⟨-, hdatum⟩ := Option.ite_none_right_eq_some.mp h
        obtain rfl := Option.some.inj hdatum
        exact iff_of_true trivial hvalue
  | decimal32 v precision scale =>
      obtain - | v := v
      · cases h
      · exact iff_of_true (decimalDatum_wellFormed h) hvalue
  | decimal64 v precision scale =>
      obtain - | v := v
      · cases h
      · exact iff_of_true (decimalDatum_wellFormed h) hvalue
  | decimal128 v precision scale =>
      obtain - | v := v
      · cases h
      · exact iff_of_true (decimalDatum_wellFormed h) hvalue
  | _ =>
      rename_i v
      obtain - | v := v
      · cases h
      · obtain rfl := Option.some.inj h
        exact iff_of_true trivial hvalue

theorem representable_of_splits {value : ScalarValue F} (h : value.Splits) : value.Representable := by
  unfold ScalarValue.Splits at h
  split at h
  next => trivial
  next => exact h

/-- What has no datum loses nothing. -/
theorem splits_of_none {value : ScalarValue F} (h : scalarToDatum value = none) : value.Splits := by
  unfold ScalarValue.Splits
  split
  next => cases h
  next =>
    unfold ScalarValue.Representable
    split
    all_goals first
      | cases h
      | trivial

end Temporal

/-- A literal has no datum or one with its exact value exactly when nothing below the unit of the datum is cut
off, the 32 bits of a date or time suffice, and a timestamp in microseconds before the epoch is a whole
number of milliseconds. -/
theorem exact_iff_splits {F : Type} (value : ScalarValue F) : value.Exact ↔ value.Splits := by
  cases h : scalarToDatum value with
  | none =>
      refine iff_of_true (fun datum hdatum => ?_) (splits_of_none h)
      rw [h] at hdatum
      cases hdatum
  | some datum =>
      simp only [ScalarValue.Exact, h, Option.some.injEq, forall_eq']
      constructor
      · rintro ⟨hdenote, hformed⟩
        exact (wellFormed_iff_splits h ((denote_eq_iff_representable h).mp hdenote)).mp hformed
      · intro hsplits
        have hvalue := representable_of_splits hsplits
        exact ⟨(denote_eq_iff_representable h).mpr hvalue, (wellFormed_iff_splits h hvalue).mpr hsplits⟩

/-- A microsecond before the epoch. -/
theorem not_exact_beforeEpoch : ¬ (ScalarValue.timestampMicrosecond (some (-1)) none : ScalarValue ℤ).Exact := by
  intro h
  obtain ⟨-, hnanos, -⟩ := h _ rfl
  exact absurd hnanos (by decide)

end BrewDB

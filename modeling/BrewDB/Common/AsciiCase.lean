import Mathlib

/-!
# Text up to ASCII case

`String.toLower` changes the letters `A` to `Z` only, so it decides `eq_ignore_ascii_case`.
-/

namespace BrewDB.AsciiCase

/-- Equal up to the case of ASCII letters. -/
def Same (s t : String) : Prop := s.toLower = t.toLower

instance (s t : String) : Decidable (Same s t) := inferInstanceAs (Decidable (s.toLower = t.toLower))

theorem Same.refl (s : String) : Same s s := rfl

theorem Same.symm {s t : String} (h : Same s t) : Same t s := Eq.symm h

theorem Same.trans {s t u : String} (h : Same s t) (h' : Same t u) : Same s u := Eq.trans h h'

theorem toLower_append (s t : String) : (s ++ t).toLower = s.toLower ++ t.toLower := by
  apply String.toList_inj.mp
  simp [String.toLower]

/-- Lower-casing does not matter. -/
theorem same_toLower (s : String) : Same s.toLower s := by
  show s.toLower.toLower = s.toLower
  apply String.toList_inj.mp
  simp [String.toLower]

theorem Same.append {s s' t t' : String} (h : Same s s') (h' : Same t t') : Same (s ++ t) (s' ++ t') := by
  show (s ++ t).toLower = (s' ++ t').toLower
  rw [toLower_append, toLower_append, show s.toLower = s'.toLower from h,
    show t.toLower = t'.toLower from h']

theorem length_toLower (s : String) : s.toLower.length = s.length := by
  rw [← String.length_toList, ← String.length_toList]
  simp [String.toLower]

/-- Equal texts are equally long. -/
theorem Same.length_eq {s t : String} (h : Same s t) : s.length = t.length := by
  rw [← length_toLower s, show s.toLower = t.toLower from h, length_toLower]

end BrewDB.AsciiCase

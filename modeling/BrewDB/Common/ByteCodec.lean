import Mathlib

/-!
# Bytes on a wire

Integers in big-endian order, strings in UTF-8, and strings ended by a zero byte, each with the reader that
takes them off the front of what is left.
-/

namespace BrewDB.Bytes

/-! ## Integers -/

/-- The last bytes of a number, the most significant one first. -/
def ofNat : ℕ → ℕ → List UInt8
  | 0, _ => []
  | width + 1, n => ofNat width (n / 256) ++ [UInt8.ofNat n]

/-- The number that bytes stand for. -/
def toNat (bytes : List UInt8) : ℕ := bytes.foldl (fun n byte => n * 256 + byte.toNat) 0

@[simp]
theorem length_ofNat (width n : ℕ) : (ofNat width n).length = width := by
  induction width generalizing n with
  | zero => rfl
  | succ width ih => rw [ofNat, List.length_append, ih, List.length_singleton]

/-- The bytes of a number that fits stand for it. -/
theorem toNat_ofNat {width n : ℕ} (h : n < 256 ^ width) : toNat (ofNat width n) = n := by
  induction width generalizing n with
  | zero =>
      rw [pow_zero, Nat.lt_one_iff] at h
      rw [h]
      rfl
  | succ width ih =>
      have hdiv : n / 256 < 256 ^ width := by
        rw [pow_succ] at h
        omega
      have hih := ih hdiv
      rw [toNat] at hih ⊢
      rw [ofNat, List.foldl_append, hih, List.foldl_cons, List.foldl_nil, UInt8.toNat_ofNat']
      omega

/-- `i16::to_be_bytes`. -/
def ofInt16 (n : Int16) : List UInt8 := ofNat 2 n.toBitVec.toNat

/-- `i16::from_be_bytes`. -/
def toInt16 (bytes : List UInt8) : Int16 := .ofBitVec (.ofNat 16 (toNat bytes))

/-- `i32::to_be_bytes`. -/
def ofInt32 (n : Int32) : List UInt8 := ofNat 4 n.toBitVec.toNat

/-- `i32::from_be_bytes`. -/
def toInt32 (bytes : List UInt8) : Int32 := .ofBitVec (.ofNat 32 (toNat bytes))

@[simp]
theorem length_ofInt16 (n : Int16) : (ofInt16 n).length = 2 := length_ofNat 2 _

@[simp]
theorem length_ofInt32 (n : Int32) : (ofInt32 n).length = 4 := length_ofNat 4 _

theorem toInt16_ofInt16 (n : Int16) : toInt16 (ofInt16 n) = n := by
  rw [toInt16, ofInt16, toNat_ofNat n.toBitVec.isLt, BitVec.ofNat_toNat, BitVec.setWidth_eq]
  rfl

theorem toInt32_ofInt32 (n : Int32) : toInt32 (ofInt32 n) = n := by
  rw [toInt32, ofInt32, toNat_ofNat n.toBitVec.isLt, BitVec.ofNat_toNat, BitVec.setWidth_eq]
  rfl

/-! ## Taking bytes off the front -/

/-- Take this many bytes. -/
def split (n : ℕ) (bytes : List UInt8) : Option (List UInt8 × List UInt8) :=
  if bytes.length < n then none else some (bytes.take n, bytes.drop n)

theorem split_append {bytes : List UInt8} {n : ℕ} (h : bytes.length = n) (rest : List UInt8) :
    split n (bytes ++ rest) = some (bytes, rest) := by
  have hlong : ¬ (bytes ++ rest).length < n := by
    rw [List.length_append]
    omega
  rw [split, if_neg hlong, List.take_left' h, List.drop_left' h]

/-- What is taken and what is left. -/
theorem split_eq_some {n : ℕ} {bytes front rest : List UInt8} (h : split n bytes = some (front, rest)) :
    bytes = front ++ rest ∧ front.length = n := by
  rw [split] at h
  by_cases hshort : bytes.length < n
  · rw [if_pos hshort] at h
    cases h
  · rw [if_neg hshort, Option.some.injEq, Prod.mk.injEq] at h
    obtain ⟨rfl, rfl⟩ := h
    refine ⟨(List.take_append_drop n bytes).symm, List.length_take_of_le (not_lt.mp hshort)⟩

/-- The bytes in front of the first zero, and those behind it. -/
def splitZero : List UInt8 → Option (List UInt8 × List UInt8)
  | [] => none
  | byte :: bytes =>
      if byte = 0 then some ([], bytes)
      else (splitZero bytes).map fun split => (byte :: split.1, split.2)

theorem splitZero_append {bytes : List UInt8} (h : 0 ∉ bytes) (rest : List UInt8) :
    splitZero (bytes ++ 0 :: rest) = some (bytes, rest) := by
  induction bytes with
  | nil => rfl
  | cons byte bytes ih =>
      rw [List.mem_cons, not_or] at h
      rw [List.cons_append, splitZero, if_neg (Ne.symm h.1), ih h.2]
      rfl

/-! ## Text -/

/-- `str::as_bytes`. -/
def ofString (text : String) : List UInt8 := text.toByteArray.data.toList

/-- `str::from_utf8`. -/
def toString? (bytes : List UInt8) : Option String := String.fromUTF8? ⟨bytes.toArray⟩

theorem toString?_ofString (text : String) : toString? (ofString text) = some text := by
  rw [toString?, ofString, Array.toArray_toList, String.fromUTF8?, dif_pos text.isValidUTF8]
  rfl

theorem ofString_eq (text : String) : ofString text = text.toList.flatMap String.utf8EncodeChar := by
  rw [ofString, ← String.utf8Encode_toList, List.utf8Encode, List.data_toByteArray]

theorem ofString_append (s t : String) : ofString (s ++ t) = ofString s ++ ofString t := by
  rw [ofString_eq, ofString_eq, ofString_eq, String.toList_append, List.flatMap_append]

/-- A letter is one byte. -/
theorem length_ofString_replicate (n : ℕ) :
    (ofString (String.ofList (List.replicate n 'a'))).length = n := by
  rw [ofString_eq, String.toList_ofList]
  induction n with
  | zero => rfl
  | succ n ih =>
      rw [List.replicate_succ, List.flatMap_cons, List.length_append, ih]
      have hone : (String.utf8EncodeChar 'a').length = 1 := by decide
      omega

/-- Text without a zero character. -/
def ZeroFree (text : String) : Prop := '\x00' ∉ text.toList

instance (text : String) : Decidable (ZeroFree text) := inferInstanceAs (Decidable (_ ∉ _))

/-- Only the zero character has a zero byte. -/
theorem eq_zero_of_mem_utf8EncodeChar {c : Char} (h : 0 ∈ String.utf8EncodeChar c) : c = '\x00' := by
  have hbyte : ∀ n : ℕ, n % 256 ≠ 0 → (0 : UInt8) ≠ UInt8.ofNat n := by
    intro n hn heq
    have := congrArg UInt8.toNat heq
    rw [UInt8.toNat_ofNat'] at this
    exact hn this.symm
  rw [String.utf8EncodeChar] at h
  have hval : c.val.toNat = 0 := by
    by_contra hne
    split at h
    · rw [List.mem_singleton] at h
      exact hbyte _ (by omega) h
    · split at h
      · simp only [List.mem_cons, List.not_mem_nil, or_false] at h
        rcases h with h | h
        · exact hbyte _ (by omega) h
        · exact hbyte _ (by omega) h
      · split at h
        · simp only [List.mem_cons, List.not_mem_nil, or_false] at h
          rcases h with h | h | h
          · exact hbyte _ (by omega) h
          · exact hbyte _ (by omega) h
          · exact hbyte _ (by omega) h
        · simp only [List.mem_cons, List.not_mem_nil, or_false] at h
          rcases h with h | h | h | h
          · exact hbyte _ (by omega) h
          · exact hbyte _ (by omega) h
          · exact hbyte _ (by omega) h
          · exact hbyte _ (by omega) h
  exact Char.ext (UInt32.toNat_inj.mp hval)

theorem zero_notMem_ofString {text : String} (h : ZeroFree text) : 0 ∉ ofString text := by
  rw [ofString_eq, List.mem_flatMap]
  rintro ⟨c, hc, hzero⟩
  exact h (eq_zero_of_mem_utf8EncodeChar hzero ▸ hc)

/-- Text and its ending zero are taken off the front together. -/
theorem splitZero_ofString {text : String} (h : ZeroFree text) (rest : List UInt8) :
    splitZero (ofString text ++ 0 :: rest) = some (ofString text, rest) :=
  splitZero_append (zero_notMem_ofString h) rest

end BrewDB.Bytes

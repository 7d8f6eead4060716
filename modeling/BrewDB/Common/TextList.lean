import Mathlib

/-!
# Lists in a string

Lists of names are kept in one string, joined by commas; reading them back splits at the commas, trims
the parts and drops the empty ones. Exactly the lists of trimmed, nonempty names without commas survive.
-/

namespace BrewDB.Text

/-- Characters with the Unicode property `White_Space`. -/
def isWhitespace (c : Char) : Bool :=
  let n := c.toNat
  (0x9 ≤ n && n ≤ 0xD) || n = 0x20 || n = 0x85 || n = 0xA0 || n = 0x1680 ||
    (0x2000 ≤ n && n ≤ 0x200A) || n = 0x2028 || n = 0x2029 || n = 0x202F || n = 0x205F || n = 0x3000

/-- Without white space at the end. -/
def trimEnd (s : List Char) : List Char := s.rdropWhile isWhitespace

/-- Without white space at both ends. -/
def trim (s : List Char) : List Char := trimEnd (s.dropWhile isWhitespace)

/-- The names, joined by commas. -/
def joinComma (names : List String) : String := ",".intercalate names

/-- The trimmed parts between commas that are not empty. -/
def splitComma (s : String) : List String :=
  (((s.toList.splitOn ',').map trim).filter (· ≠ [])).map String.ofList

/-- A name that survives. -/
def IsPart (name : String) : Prop := name ≠ "" ∧ ',' ∉ name.toList ∧ trim name.toList = name.toList

instance (name : String) : Decidable (IsPart name) :=
  inferInstanceAs (Decidable (name ≠ "" ∧ ',' ∉ name.toList ∧ trim name.toList = name.toList))

theorem dropWhile_trimEnd {s : List Char} (h : s.dropWhile isWhitespace = s) :
    (trimEnd s).dropWhile isWhitespace = trimEnd s := by
  cases s with
  | nil => rfl
  | cons c s =>
      -- the first character is no white space, so it is kept at the front
      have hc : isWhitespace c = false := by
        by_contra hc
        rw [Bool.not_eq_false] at hc
        rw [List.dropWhile_cons_of_pos hc] at h
        have := congrArg List.length h
        have := List.IsSuffix.length_le (@List.dropWhile_suffix _ s isWhitespace)
        simp only [List.length_cons] at *
        omega
      have hprefix : trimEnd (c :: s) <+: c :: s := List.rdropWhile_prefix _ _
      cases htrim : trimEnd (c :: s) with
      | nil => rfl
      | cons d t =>
          rw [htrim] at hprefix
          obtain ⟨rest, hrest⟩ := hprefix
          cases hrest
          exact List.dropWhile_cons_of_neg (by simp [hc])

/-- Trimming twice is trimming once. -/
theorem trim_trim (s : List Char) : trim (trim s) = trim s := by
  have hdrop : (s.dropWhile isWhitespace).dropWhile isWhitespace = s.dropWhile isWhitespace :=
    List.dropWhile_idempotent _ _
  rw [trim, trim, dropWhile_trimEnd hdrop, trimEnd, trimEnd]
  exact List.rdropWhile_idempotent _ _

theorem mem_of_mem_trim {c : Char} {s : List Char} (h : c ∈ trim s) : c ∈ s :=
  (List.dropWhile_suffix isWhitespace).subset ((List.rdropWhile_prefix _ _).subset h)

theorem not_mem_of_mem_splitOn {s part : List Char} (h : part ∈ s.splitOn ',') : ',' ∉ part := by
  induction s generalizing part with
  | nil =>
      rw [List.splitOn_nil, List.mem_singleton] at h
      rw [h]
      exact List.not_mem_nil
  | cons c s ih =>
      rw [List.splitOn_cons_eq_if_modifyHead] at h
      split_ifs at h with hc
      · rcases List.mem_cons.mp h with rfl | h
        · exact List.not_mem_nil
        · exact ih h
      · cases hsplit : s.splitOn ',' with
        | nil => exact absurd hsplit (List.splitOn_ne_nil _ _)
        | cons first rest =>
            rw [hsplit, List.modifyHead_cons] at h
            rcases List.mem_cons.mp h with rfl | h
            · have hfirst := ih (by rw [hsplit]; exact List.mem_cons_self)
              rw [List.mem_cons, not_or]
              exact ⟨fun heq => hc (by rw [← heq]; exact beq_self_eq_true ','), hfirst⟩
            · exact ih (by rw [hsplit]; exact List.mem_cons_of_mem _ h)

/-- Whatever is read back is a part. -/
theorem isPart_of_mem_splitComma {s name : String} (h : name ∈ splitComma s) : IsPart name := by
  simp only [splitComma, List.mem_map, List.mem_filter, decide_eq_true_eq] at h
  obtain ⟨_, ⟨⟨part, hpart, rfl⟩, hne⟩, rfl⟩ := h
  refine ⟨fun heq => hne ?_, ?_, ?_⟩
  · simpa using congrArg String.toList heq
  · rw [String.toList_ofList]
    exact fun hmem => not_mem_of_mem_splitOn hpart (mem_of_mem_trim hmem)
  · rw [String.toList_ofList]
    exact trim_trim part

theorem toList_joinComma (names : List String) :
    (joinComma names).toList = [','].intercalate (names.map String.toList) := by
  induction names with
  | nil => rfl
  | cons name names ih =>
      cases names with
      | nil => simp [joinComma]
      | cons next names =>
          rw [joinComma, String.intercalate_cons_cons, String.toList_append, String.toList_append, ← joinComma,
            ih]
          simp only [List.map_cons, List.intercalate_cons_cons]
          rfl

/-- A list survives just when all its names do. -/
theorem splitComma_joinComma_iff (names : List String) :
    splitComma (joinComma names) = names ↔ ∀ name ∈ names, IsPart name := by
  constructor
  · intro h name hname
    rw [← h] at hname
    exact isPart_of_mem_splitComma hname
  · intro h
    cases names with
    | nil => rfl
    | cons name names =>
        have hsplit : (joinComma (name :: names)).toList.splitOn ',' = (name :: names).map String.toList := by
          rw [toList_joinComma]
          refine List.splitOn_intercalate ',' (fun part hpart => ?_) (by simp)
          obtain ⟨other, hother, rfl⟩ := List.mem_map.mp hpart
          exact (h other hother).2.1
        have htrim : ((name :: names).map String.toList).map trim = (name :: names).map String.toList := by
          rw [List.map_map]
          exact List.map_congr_left fun other hother => (h other hother).2.2
        have hfilter : ((name :: names).map String.toList).filter (· ≠ []) = (name :: names).map String.toList := by
          refine List.filter_eq_self.mpr fun part hpart => ?_
          obtain ⟨other, hother, rfl⟩ := List.mem_map.mp hpart
          have hne := (h other hother).1
          simpa using hne
        rw [splitComma, hsplit, htrim, hfilter, List.map_map]
        exact List.map_id'' (fun other => String.ofList_toList) _

theorem trim_eq_nil_iff (s : List Char) : trim s = [] ↔ ∀ c ∈ s, isWhitespace c = true := by
  constructor
  · intro h
    have hdrop : ∀ c ∈ s.dropWhile isWhitespace, isWhitespace c = true := List.rdropWhile_eq_nil_iff.mp h
    intro c hc
    rw [← List.takeWhile_append_dropWhile (p := isWhitespace) (l := s)] at hc
    rcases List.mem_append.mp hc with hc | hc
    · exact List.mem_takeWhile_imp hc
    · exact hdrop c hc
  · intro h
    have hdrop : s.dropWhile isWhitespace = [] := List.dropWhile_eq_nil_iff.mpr h
    rw [trim, hdrop]
    rfl

theorem mem_intercalate {c : Char} {parts : List (List Char)} (h : c ∈ [','].intercalate parts) :
    c = ',' ∨ ∃ part ∈ parts, c ∈ part := by
  induction parts with
  | nil => exact absurd h List.not_mem_nil
  | cons part parts ih =>
      cases parts with
      | nil => exact .inr ⟨part, by simp, by simpa using h⟩
      | cons next parts =>
          rw [List.intercalate_cons_cons, List.append_assoc, List.mem_append, List.mem_append,
            List.mem_singleton] at h
          rcases h with h | h | h
          · exact .inr ⟨part, by simp, h⟩
          · exact .inl h
          · rcases ih h with h | ⟨other, hother, h⟩
            · exact .inl h
            · exact .inr ⟨other, List.mem_cons_of_mem _ hother, h⟩

theorem mem_intercalate_of_mem {c : Char} {part : List Char} {parts : List (List Char)} (hpart : part ∈ parts)
    (hc : c ∈ part) : c ∈ [','].intercalate parts := by
  induction parts with
  | nil => exact absurd hpart List.not_mem_nil
  | cons first parts ih =>
      cases parts with
      | nil =>
          rw [List.mem_singleton] at hpart
          simpa [← hpart] using hc
      | cons next parts =>
          rw [List.intercalate_cons_cons, List.append_assoc, List.mem_append, List.mem_append]
          rcases List.mem_cons.mp hpart with rfl | hpart
          · exact .inl hc
          · exact .inr (.inr (ih hpart))

/-- A name with nothing but white space and commas. -/
def IsBlank (name : String) : Prop := ∀ c ∈ name.toList, c = ',' ∨ isWhitespace c = true

instance (name : String) : Decidable (IsBlank name) :=
  inferInstanceAs (Decidable (∀ c ∈ name.toList, c = ',' ∨ isWhitespace c = true))

/-- Nothing is read back just when nothing but white space stands between the commas. -/
theorem splitComma_eq_nil_iff (s : String) : splitComma s = [] ↔ IsBlank s := by
  have hs : [','].intercalate (s.toList.splitOn ',') = s.toList := List.intercalate_splitOn _
  simp only [splitComma, List.map_eq_nil_iff, List.filter_eq_nil_iff, List.mem_map, decide_eq_true_eq,
    not_not, forall_exists_index, and_imp, forall_apply_eq_imp_iff₂, trim_eq_nil_iff]
  constructor
  · intro h c hc
    rw [← hs] at hc
    rcases mem_intercalate hc with hc | ⟨part, hpart, hc⟩
    · exact .inl hc
    · exact .inr (h part hpart c hc)
  · intro h part hpart c hc
    have hmem : c ∈ s.toList := by
      rw [← hs]
      exact mem_intercalate_of_mem hpart hc
    rcases h c hmem with rfl | hspace
    · exact absurd hc (not_mem_of_mem_splitOn hpart)
    · exact hspace

/-- A list is lost altogether just when all its names are blank. -/
theorem splitComma_joinComma_eq_nil_iff (names : List String) :
    splitComma (joinComma names) = [] ↔ ∀ name ∈ names, IsBlank name := by
  rw [splitComma_eq_nil_iff, IsBlank, toList_joinComma]
  constructor
  · intro h name hname c hc
    exact h c (mem_intercalate_of_mem (List.mem_map_of_mem hname) hc)
  · intro h c hc
    rcases mem_intercalate hc with hc | ⟨part, hpart, hc⟩
    · exact .inl hc
    · obtain ⟨name, hname, rfl⟩ := List.mem_map.mp hpart
      exact h name hname c hc

/-! ## Numbers -/

/-- Decimal digits, most significant first. -/
def parseDigits : List Char → ℕ → Option ℕ
  | [], n => some n
  | c :: rest, n => if c.isDigit then parseDigits rest (10 * n + (c.toNat - '0'.toNat)) else none

/-- `str::parse::<u32>`: digits after an optional plus sign, below `2 ^ 32`. -/
def parseU32 (s : String) : Option ℕ :=
  let digits := match s.toList with
    | '+' :: rest => rest
    | other => other
  match digits with
  | [] => none
  | _ => (parseDigits digits 0).filter (· < 2 ^ 32)

example : parseU32 "+42" = some 42 := by decide

example : parseU32 "4294967296" = none := by decide

theorem parseDigits_of_isDigit {l : List Char} (h : ∀ c ∈ l, c.isDigit = true) (n : ℕ) :
    parseDigits l n = some (Nat.ofDigitChars 10 l n) := by
  induction l generalizing n with
  | nil => simp [parseDigits]
  | cons c l ih =>
      rw [parseDigits, if_pos (h c List.mem_cons_self), Nat.ofDigitChars_cons]
      exact ih (fun d hd => h d (List.mem_cons_of_mem _ hd)) _

/-- A printed number is read back. -/
theorem parseU32_toString {n : ℕ} (h : n < 2 ^ 32) : parseU32 (toString n) = some n := by
  have hlist : (toString n).toList = Nat.toDigits 10 n := Nat.toList_repr
  have hdigits : ∀ c ∈ Nat.toDigits 10 n, c.isDigit = true := fun c hc =>
    Nat.isDigit_of_mem_toDigits (by decide) (by decide) hc
  have hparse : parseDigits (Nat.toDigits 10 n) 0 = some n := by
    rw [parseDigits_of_isDigit hdigits, Nat.ofDigitChars_toDigits (by decide) (by decide)]
  have hsign : ∀ rest, Nat.toDigits 10 n ≠ '+' :: rest := fun rest heq => by
    have := hdigits '+' (by rw [heq]; exact List.mem_cons_self)
    cases this
  simp only [parseU32, hlist]
  split
  next heq => exact absurd heq Nat.toDigits_ne_nil
  next => rw [hparse, Option.filter_some, if_pos (decide_eq_true h)]

end BrewDB.Text

import BrewDB.Common.Quoting
import BrewDB.Planner.Ast

/-!
# String literals and quoted identifiers

Reference: `tokenize_quoted_string`, `parse_quoted_ident`, `Unescape` and `unescape_unicode_single_quoted_string` of
`brewdb-parser/src/tokenizer.rs`, and the escaping of `brewdb-parser/src/ast/value.rs`.

The tokens that begin with a quote, as PostgreSQL's dialect reads them with unescaping on, and how they are displayed
again. Locations are left out, as are the dialects with backslashes in plain strings or with triple quotes.
-/

namespace BrewDB.Parser

open Quoting

/-! ## Digits -/

/-- `char::to_digit`. -/
def toDigit (radix : ℕ) (c : Char) : Option ℕ :=
  (if '0' ≤ c ∧ c ≤ '9' then some (c.toNat - '0'.toNat)
    else if 'a' ≤ c ∧ c ≤ 'z' then some (c.toNat - 'a'.toNat + 10)
    else if 'A' ≤ c ∧ c ≤ 'Z' then some (c.toNat - 'A'.toNat + 10)
    else none).filter (· < radix)

/-- `char::from_u32`. -/
def charFromU32 (n : ℕ) : Option Char := if n.isValidChar then some (Char.ofNat n) else none

/-- An upper-case hexadecimal digit. -/
def hexDigit (digit : ℕ) : Char := "0123456789ABCDEF".toList.getD digit '0'

/-- `{:0widthX}`, of a number that fits into the width. -/
def hexUpper (width n : ℕ) : List Char := (lastDigits 16 width n).map hexDigit

/-- `u32::from_str_radix`. -/
def fromStrRadix (radix : ℕ) (s : List Char) : Option ℕ :=
  let digits := if s.head? = some '+' then s.tail else s
  if digits = [] then none
  else ((digits.mapM (toDigit radix)).map (ofDigits radix)).filter (· < 2 ^ 32)

/-! ## Display -/

/-- `EscapeEscapedStringLiteral`. -/
def escapeEscapedString (s : List Char) : List Char :=
  s.flatMap fun
    | '\'' => ['\\', '\'']
    | '\\' => ['\\', '\\']
    | '\n' => ['\\', 'n']
    | '\t' => ['\\', 't']
    | '\r' => ['\\', 'r']
    | c => [c]

/-- `EscapeUnicodeStringLiteral`. -/
def escapeUnicodeString (s : List Char) : List Char :=
  s.flatMap fun c =>
    if c = '\'' then ['\'', '\'']
    else if c = '\\' then ['\\', '\\']
    else if c.toNat < 128 then [c]
    else if c.toNat ≤ 0xFFFF then '\\' :: hexUpper 4 c.toNat
    else '\\' :: '+' :: hexUpper 6 c.toNat

/-! ## Plain strings and identifiers -/

/-- Read on with a character in front. -/
def push {ε : Type} (c : Char) (read : Except ε (List Char × List Char)) : Except ε (List Char × List Char) :=
  read.map fun result => (c :: result.1, result.2)

/-- `tokenize_quoted_string`, behind its one opening quote. -/
def tokenizeQuotedString (quote : Char) : List Char → Except String (List Char × List Char)
  | [] => .error "Unterminated string literal"
  | [ch] => if ch = quote then .ok ([], []) else .error "Unterminated string literal"
  | ch :: next :: rest =>
      if ch = quote then
        if next = quote then push ch (tokenizeQuotedString quote rest) else .ok ([], next :: rest)
      else push ch (tokenizeQuotedString quote (next :: rest))

/-- `parse_quoted_ident`: with the quote that ended it, if one did. -/
def parseQuotedIdent (quoteEnd : Char) : List Char → (List Char × Option Char) × List Char
  | [] => (([], none), [])
  | [ch] => if ch = quoteEnd then (([], some quoteEnd), []) else (([ch], none), [])
  | ch :: next :: rest =>
      if ch = quoteEnd then
        if next = quoteEnd then
          let later := parseQuotedIdent quoteEnd rest
          ((ch :: later.1.1, later.1.2), later.2)
        else (([], some quoteEnd), next :: rest)
      else
        let later := parseQuotedIdent quoteEnd (next :: rest)
        ((ch :: later.1.1, later.1.2), later.2)

/-- `tokenize_quoted_identifier`, behind its opening quote. -/
def tokenizeQuotedIdentifier (quoteEnd : Char) (input : List Char) : Except String (List Char × List Char) :=
  let ((s, lastChar), rest) := parseQuotedIdent quoteEnd input
  if lastChar = some quoteEnd then .ok (s, rest)
  else .error ("Expected close delimiter '" ++ quoteEnd.toString ++ "' before EOF.")

/-! ## Escaped strings -/

namespace Unescape

/-- Up to this many digits. -/
def nextDigits (radix : ℕ) : ℕ → List Char → List Char × List Char
  | 0, rest => ([], rest)
  | _ + 1, [] => ([], [])
  | count + 1, c :: rest =>
      if (toDigit radix c).isSome then
        let later := nextDigits radix count rest
        (c :: later.1, later.2)
      else ([], c :: rest)

/-- `byte_to_char`. -/
def byteToChar (radix : ℕ) (s : List Char) : Option Char :=
  (fromStrRadix radix s).bind fun n => if n % 256 ≤ 127 then charFromU32 (n % 256) else none

/-- `unescape_hex`. -/
def unescapeHex (rest : List Char) : Option (Char × List Char) :=
  let digits := nextDigits 16 2 rest
  if digits.1 = [] then some ('x', digits.2) else (byteToChar 16 digits.1).map fun c => (c, digits.2)

/-- `unescape_octal`. -/
def unescapeOctal (c : Char) (rest : List Char) : Option (Char × List Char) :=
  let digits := nextDigits 8 2 rest
  (byteToChar 8 (c :: digits.1)).map fun c => (c, digits.2)

/-- `unescape_unicode`. -/
def unescapeUnicode (num : ℕ) (rest : List Char) : Option (Char × List Char) :=
  if rest.length < num then none
  else ((fromStrRadix 16 (rest.take num)).bind charFromU32).map fun c => (c, rest.drop num)

/-- What follows a backslash. -/
def escape : List Char → Option (Char × List Char)
  | [] => none
  | 'b' :: rest => some ('\x08', rest)
  | 'f' :: rest => some ('\x0C', rest)
  | 'n' :: rest => some ('\n', rest)
  | 'r' :: rest => some ('\r', rest)
  | 't' :: rest => some ('\t', rest)
  | 'u' :: rest => unescapeUnicode 4 rest
  | 'U' :: rest => unescapeUnicode 8 rest
  | 'x' :: rest => unescapeHex rest
  | c :: rest => if (toDigit 8 c).isSome then unescapeOctal c rest else some (c, rest)

/-- `check_null`. -/
def checkNull (c : Char) : Option Char := if c = '\x00' then none else some c

variable {input rest : List Char}

theorem length_nextDigits (radix count : ℕ) (rest : List Char) :
    (nextDigits radix count rest).2.length ≤ rest.length := by
  induction count generalizing rest with
  | zero => exact le_rfl
  | succ count ih =>
      cases rest with
      | nil => exact le_rfl
      | cons c rest =>
          rw [nextDigits]
          split_ifs
          · exact (ih rest).trans (Nat.le_succ _)
          · exact le_rfl

theorem length_unescapeUnicode {num : ℕ} {input rest : List Char} {c : Char}
    (h : unescapeUnicode num input = some (c, rest)) : rest.length ≤ input.length := by
  rw [unescapeUnicode] at h
  split_ifs at h
  obtain ⟨c', -, heq⟩ := Option.map_eq_some_iff.mp h
  obtain ⟨rfl, rfl⟩ := Prod.mk.inj heq
  exact (List.length_drop (i := num) (l := input)).trans_le (Nat.sub_le _ _)

theorem length_unescapeHex {input rest : List Char} {c : Char} (h : unescapeHex input = some (c, rest)) :
    rest.length ≤ input.length := by
  rw [unescapeHex] at h
  split_ifs at h
  · obtain ⟨-, rfl⟩ := Prod.mk.inj (Option.some.inj h)
    exact length_nextDigits 16 2 input
  · obtain ⟨c', -, heq⟩ := Option.map_eq_some_iff.mp h
    obtain ⟨rfl, rfl⟩ := Prod.mk.inj heq
    exact length_nextDigits 16 2 input

theorem length_unescapeOctal {input rest : List Char} {first c : Char}
    (h : unescapeOctal first input = some (c, rest)) : rest.length ≤ input.length := by
  rw [unescapeOctal] at h
  obtain ⟨c', -, heq⟩ := Option.map_eq_some_iff.mp h
  obtain ⟨rfl, rfl⟩ := Prod.mk.inj heq
  exact length_nextDigits 8 2 input

/-- An escape takes at least a character. -/
theorem length_escape {input rest : List Char} {c : Char} (h : escape input = some (c, rest)) :
    rest.length < input.length := by
  unfold escape at h
  split at h
  case h_1 => cases h
  case h_7 input => exact Nat.lt_succ_of_le (length_unescapeUnicode h)
  case h_8 input => exact Nat.lt_succ_of_le (length_unescapeUnicode h)
  case h_9 input => exact Nat.lt_succ_of_le (length_unescapeHex h)
  case h_10 c' input _ _ _ _ _ _ _ _ =>
    split_ifs at h
    · exact Nat.lt_succ_of_le (length_unescapeOctal h)
    · obtain ⟨-, rfl⟩ := Prod.mk.inj (Option.some.inj h)
      exact Nat.lt_succ_self _
  all_goals
    obtain ⟨-, rfl⟩ := Prod.mk.inj (Option.some.inj h)
    exact Nat.lt_succ_self _

/-- `unescape`, behind the opening quote. -/
def unescape : List Char → Option (List Char × List Char)
  | [] => none
  | c :: input =>
      if c = '\'' then
        match input with
        | [] => some ([], [])
        | next :: rest =>
            if next = '\'' then (unescape rest).map fun result => (c :: result.1, result.2)
            else some ([], next :: rest)
      else if c ≠ '\\' then (unescape input).map fun result => (c :: result.1, result.2)
      else
        match _h : escape input with
        | none => none
        | some (c, rest) =>
            match checkNull c with
            | none => none
            | some c => (unescape rest).map fun result => (c :: result.1, result.2)
termination_by input => input.length
decreasing_by
  · simp only [List.length_cons]
    omega
  · exact Nat.lt_succ_self _
  · exact (length_escape _h).trans (Nat.lt_succ_self _)

theorem unescape_cons_of_ne {c : Char} (hquote : c ≠ '\'') (hbackslash : c ≠ '\\') (input : List Char) :
    unescape (c :: input) = (unescape input).map fun result => (c :: result.1, result.2) := by
  rw [unescape.eq_def]
  simp only [if_neg hquote, if_pos hbackslash]

theorem unescape_quote (h : rest.head? ≠ some '\'') : unescape ('\'' :: rest) = some ([], rest) := by
  cases rest with
  | nil => rw [unescape, if_pos rfl]
  | cons next rest =>
      have hnext : next ≠ '\'' := fun heq => h (congrArg some heq)
      rw [unescape, if_pos rfl]
      exact if_neg hnext

theorem unescape_escape {c : Char} (h : escape input = some (c, rest)) (hc : c ≠ '\x00') :
    unescape ('\\' :: input) = (unescape rest).map fun result => (c :: result.1, result.2) := by
  rw [unescape.eq_def]
  simp only [if_neg (show '\\' ≠ '\'' by decide), if_neg (not_not_intro rfl)]
  split
  case h_1 hnone =>
    rw [h] at hnone
    cases hnone
  case h_2 c' rest' hsome =>
    obtain ⟨rfl, rfl⟩ := Prod.mk.inj (Option.some.inj (h.symm.trans hsome))
    rw [checkNull, if_neg hc]

theorem unescape_special {code c : Char} {s tail : List Char} (h : escape (code :: tail) = some (c, tail))
    (hc : c ≠ '\x00') (ih : unescape tail = some (s, rest)) :
    unescape ('\\' :: code :: tail) = some (c :: s, rest) := by
  rw [unescape_escape h hc, ih, Option.map_some]

/-- What is displayed is read back. -/
theorem unescape_escapeEscapedString (h : rest.head? ≠ some '\'') (s : List Char) :
    unescape (escapeEscapedString s ++ '\'' :: rest) = some (s, rest) := by
  induction s with
  | nil => exact unescape_quote h
  | cons c s ih =>
      rw [escapeEscapedString] at ih ⊢
      rw [List.flatMap_cons, List.append_assoc]
      split
      case h_1 => exact unescape_special rfl (by decide) ih
      case h_2 => exact unescape_special rfl (by decide) ih
      case h_3 => exact unescape_special rfl (by decide) ih
      case h_4 => exact unescape_special rfl (by decide) ih
      case h_5 => exact unescape_special rfl (by decide) ih
      case h_6 hquote hbackslash _ _ _ =>
        rw [List.singleton_append, unescape_cons_of_ne hquote hbackslash, ih, Option.map_some]

end Unescape

/-! ## Unicode strings -/

/-- The digits of `take_char_from_hex_digits`, behind those already read. -/
def takeHexDigits : ℕ → ℕ → List Char → Except String (ℕ × List Char)
  | 0, result, rest => .ok (result, rest)
  | _ + 1, _, [] => .error "Unexpected EOF while parsing hex digit in escaped unicode string."
  | count + 1, result, nextChar :: rest =>
      match toDigit 16 nextChar with
      | none => .error ("Invalid hex digit in escaped unicode string: " ++ nextChar.toString)
      | some digit => takeHexDigits count (result * 16 + digit) rest

/-- `take_char_from_hex_digits`. -/
def takeCharFromHexDigits (maxDigits : ℕ) (input : List Char) : Except String (Char × List Char) :=
  match takeHexDigits maxDigits 0 input with
  | .error e => .error e
  | .ok (result, rest) =>
      match charFromU32 result with
      | none => .error ("Invalid unicode character: " ++ String.ofList (Nat.toDigits 16 result))
      | some c => .ok (c, rest)

/-- What follows a backslash in a unicode string. -/
def unicodeEscape : List Char → Except String (Char × List Char)
  | '\\' :: rest => .ok ('\\', rest)
  | '+' :: rest => takeCharFromHexDigits 6 rest
  | input => takeCharFromHexDigits 4 input

variable {input rest : List Char} {c : Char}

theorem length_takeHexDigits {count start result : ℕ}
    (h : takeHexDigits count start input = .ok (result, rest)) : rest.length ≤ input.length := by
  induction count generalizing start input with
  | zero =>
      obtain ⟨-, rfl⟩ := Prod.mk.inj (Except.ok.inj h)
      exact le_rfl
  | succ count ih =>
      cases input with
      | nil => cases h
      | cons nextChar input =>
          rw [takeHexDigits] at h
          split at h
          · cases h
          · exact (ih h).trans (Nat.le_succ _)

theorem length_takeCharFromHexDigits {maxDigits : ℕ} (h : takeCharFromHexDigits maxDigits input = .ok (c, rest)) :
    rest.length ≤ input.length := by
  rw [takeCharFromHexDigits] at h
  split at h
  · cases h
  · next hread =>
      split at h
      · cases h
      · obtain ⟨-, rfl⟩ := Prod.mk.inj (Except.ok.inj h)
        exact length_takeHexDigits hread

theorem length_unicodeEscape (h : unicodeEscape input = .ok (c, rest)) : rest.length ≤ input.length := by
  unfold unicodeEscape at h
  split at h
  · obtain ⟨-, rfl⟩ := Prod.mk.inj (Except.ok.inj h)
    exact Nat.le_succ _
  · exact (length_takeCharFromHexDigits h).trans (Nat.le_succ _)
  · exact length_takeCharFromHexDigits h

/-- `unescape_unicode_single_quoted_string`, behind the opening quote. -/
def unescapeUnicodeSingleQuotedString : List Char → Except String (List Char × List Char)
  | [] => .error "Unterminated unicode encoded string literal"
  | c :: input =>
      if c = '\'' then
        match input with
        | [] => .ok ([], [])
        | next :: rest =>
            if next = '\'' then push c (unescapeUnicodeSingleQuotedString rest) else .ok ([], next :: rest)
      else if c ≠ '\\' then push c (unescapeUnicodeSingleQuotedString input)
      else
        match _h : unicodeEscape input with
        | .error e => .error e
        | .ok (c, rest) => push c (unescapeUnicodeSingleQuotedString rest)
termination_by input => input.length
decreasing_by
  · simp only [List.length_cons]
    omega
  · exact Nat.lt_succ_self _
  · exact Nat.lt_succ_of_le (length_unicodeEscape _h)

theorem unescapeUnicode_cons_of_ne (hquote : c ≠ '\'') (hbackslash : c ≠ '\\') (input : List Char) :
    unescapeUnicodeSingleQuotedString (c :: input) = push c (unescapeUnicodeSingleQuotedString input) := by
  rw [unescapeUnicodeSingleQuotedString.eq_def]
  simp only [if_neg hquote, if_pos hbackslash]

theorem unescapeUnicode_quote (h : rest.head? ≠ some '\'') :
    unescapeUnicodeSingleQuotedString ('\'' :: rest) = .ok ([], rest) := by
  cases rest with
  | nil => rw [unescapeUnicodeSingleQuotedString, if_pos rfl]
  | cons next rest =>
      have hnext : next ≠ '\'' := fun heq => h (congrArg some heq)
      rw [unescapeUnicodeSingleQuotedString, if_pos rfl]
      exact if_neg hnext

theorem unescapeUnicode_escape (h : unicodeEscape input = .ok (c, rest)) :
    unescapeUnicodeSingleQuotedString ('\\' :: input) = push c (unescapeUnicodeSingleQuotedString rest) := by
  rw [unescapeUnicodeSingleQuotedString.eq_def]
  simp only [if_neg (show '\\' ≠ '\'' by decide), if_neg (not_not_intro rfl)]
  split
  case h_1 herror =>
    rw [h] at herror
    cases herror
  case h_2 c' rest' hok =>
    obtain ⟨rfl, rfl⟩ := Prod.mk.inj (Except.ok.inj (h.symm.trans hok))
    rfl

/-! ### Hexadecimal escapes -/

theorem toDigit_hexDigit {digit : ℕ} (h : digit < 16) : toDigit 16 (hexDigit digit) = some digit := by
  revert digit
  decide

theorem charFromU32_toNat (c : Char) : charFromU32 c.toNat = some c := by
  have hvalid : c.toNat.isValidChar := c.valid
  rw [charFromU32, if_pos hvalid, Char.ofNat_toNat]

theorem toNat_lt_size (c : Char) : c.toNat < 0x110000 := by
  have hvalid : c.toNat.isValidChar := c.valid
  rcases hvalid with h | ⟨-, h⟩
  · exact h.trans (by decide)
  · exact h

theorem takeHexDigits_map (digits : List ℕ) (h : ∀ digit ∈ digits, digit < 16) (start : ℕ) (rest : List Char) :
    takeHexDigits digits.length start (digits.map hexDigit ++ rest)
      = .ok (digits.foldl (fun n digit => n * 16 + digit) start, rest) := by
  induction digits generalizing start with
  | nil => rfl
  | cons digit digits ih =>
      rw [List.map_cons, List.cons_append, List.length_cons, takeHexDigits,
        toDigit_hexDigit (h digit (List.mem_cons_self ..))]
      exact ih (fun later hmem => h later (List.mem_cons_of_mem _ hmem)) _

/-- A character's code is read back from enough digits. -/
theorem takeCharFromHexDigits_hexUpper {width : ℕ} (h : c.toNat < 16 ^ width) (rest : List Char) :
    takeCharFromHexDigits width (hexUpper width c.toNat ++ rest) = .ok (c, rest) := by
  have hread := takeHexDigits_map (lastDigits 16 width c.toNat) (fun _ => lt_of_mem_lastDigits (by decide)) 0 rest
  have hcode : (lastDigits 16 width c.toNat).foldl (fun n digit => n * 16 + digit) 0 = c.toNat := ofDigits_lastDigits h
  rw [length_lastDigits, hcode] at hread
  rw [takeCharFromHexDigits, hexUpper, hread]
  simp only [charFromU32_toNat]

theorem unicodeEscape_of_digit {digit : ℕ} (h : toDigit 16 c = some digit) (input : List Char) :
    unicodeEscape (c :: input) = takeCharFromHexDigits 4 (c :: input) := by
  unfold unicodeEscape
  split
  case h_1 heq =>
    obtain ⟨rfl, -⟩ := List.cons.inj heq
    cases h
  case h_2 heq =>
    obtain ⟨rfl, -⟩ := List.cons.inj heq
    cases h
  case h_3 => rfl

theorem unicodeEscape_hexUpper (h : c.toNat ≤ 0xFFFF) (rest : List Char) :
    unicodeEscape (hexUpper 4 c.toNat ++ rest) = .ok (c, rest) := by
  have hlength := length_lastDigits 16 4 c.toNat
  have hcode : c.toNat < 16 ^ 4 := Nat.lt_succ_of_le h
  have hread := takeCharFromHexDigits_hexUpper hcode rest
  rw [hexUpper] at hread ⊢
  rcases hdigits : lastDigits 16 4 c.toNat with - | ⟨digit, digits⟩
  · rw [hdigits] at hlength
    cases hlength
  · have hdigit : digit < 16 := lt_of_mem_lastDigits (by decide) (hdigits ▸ List.mem_cons_self ..)
    rw [hdigits] at hread
    exact (unicodeEscape_of_digit (toDigit_hexDigit hdigit) _).trans hread

theorem unicodeEscape_plus (c : Char) (rest : List Char) :
    unicodeEscape ('+' :: (hexUpper 6 c.toNat ++ rest)) = .ok (c, rest) :=
  takeCharFromHexDigits_hexUpper ((toNat_lt_size c).trans (by decide)) rest

/-- What is displayed is read back. -/
theorem unescapeUnicode_escapeUnicodeString (h : rest.head? ≠ some '\'') (s : List Char) :
    unescapeUnicodeSingleQuotedString (escapeUnicodeString s ++ '\'' :: rest) = .ok (s, rest) := by
  induction s with
  | nil => exact unescapeUnicode_quote h
  | cons c s ih =>
      rw [escapeUnicodeString] at ih ⊢
      rw [List.flatMap_cons, List.append_assoc]
      split_ifs with hquote hbackslash hascii hshort
      · rw [List.cons_append, List.singleton_append, unescapeUnicodeSingleQuotedString, if_pos rfl, if_pos rfl, ih, hquote]
        rfl
      · rw [List.cons_append, List.singleton_append, unescapeUnicode_escape rfl, ih, hbackslash]
        rfl
      · rw [List.singleton_append, unescapeUnicode_cons_of_ne hquote hbackslash, ih]
        rfl
      · rw [List.cons_append, unescapeUnicode_escape (unicodeEscape_hexUpper hshort _), ih]
        rfl
      · rw [List.cons_append, List.cons_append, unescapeUnicode_escape (unicodeEscape_plus c _), ih]
        rfl

/-! ## Plain strings -/

theorem tokenizeQuotedString_eq (quote : Char) (input : List Char) :
    tokenizeQuotedString quote input
      = (undouble quote input).elim (.error "Unterminated string literal") Except.ok := by
  induction input using undouble.induct quote with
  | case1 => rfl
  | case2 => rw [tokenizeQuotedString, undouble, if_pos rfl, if_pos rfl, Option.elim_some]
  | case3 c hc => rw [tokenizeQuotedString, undouble, if_neg hc, if_neg hc, Option.elim_none]
  | case4 input ih =>
      rw [tokenizeQuotedString, undouble, if_pos rfl, if_pos rfl, if_pos rfl, if_pos rfl, ih]
      cases undouble quote input <;> rfl
  | case5 next input hnext =>
      rw [tokenizeQuotedString, undouble, if_pos rfl, if_neg hnext, if_pos rfl, if_neg hnext, Option.elim_some]
  | case6 c next input hc ih =>
      rw [tokenizeQuotedString, undouble, if_neg hc, if_neg hc, ih]
      cases undouble quote (next :: input) <;> rfl

/-- `parse_quoted_ident` ends with the quote, or takes all there is. -/
theorem parseQuotedIdent_eq (quoteEnd : Char) (input : List Char) :
    ∃ unread, parseQuotedIdent quoteEnd input
      = (undouble quoteEnd input).elim ((unread, none), []) fun result => ((result.1, some quoteEnd), result.2) := by
  induction input using undouble.induct quoteEnd with
  | case1 => exact ⟨[], rfl⟩
  | case2 => exact ⟨[], by rw [parseQuotedIdent, undouble, if_pos rfl, if_pos rfl, Option.elim_some]⟩
  | case3 c hc => exact ⟨[c], by rw [parseQuotedIdent, undouble, if_neg hc, if_neg hc, Option.elim_none]⟩
  | case4 input ih =>
      obtain ⟨unread, ih⟩ := ih
      refine ⟨quoteEnd :: unread, ?_⟩
      rw [parseQuotedIdent, undouble, if_pos rfl, if_pos rfl, if_pos rfl, if_pos rfl, ih]
      cases undouble quoteEnd input <;> rfl
  | case5 next input hnext =>
      refine ⟨[], ?_⟩
      rw [parseQuotedIdent, undouble, if_pos rfl, if_neg hnext, if_pos rfl, if_neg hnext, Option.elim_some]
  | case6 c next input hc ih =>
      obtain ⟨unread, ih⟩ := ih
      refine ⟨c :: unread, ?_⟩
      rw [parseQuotedIdent, undouble, if_neg hc, if_neg hc, ih]
      cases undouble quoteEnd (next :: input) <;> rfl

theorem tokenizeQuotedIdentifier_eq (quoteEnd : Char) (input : List Char) :
    tokenizeQuotedIdentifier quoteEnd input
      = (undouble quoteEnd input).elim
          (.error ("Expected close delimiter '" ++ quoteEnd.toString ++ "' before EOF.")) Except.ok := by
  obtain ⟨unread, hread⟩ := parseQuotedIdent_eq quoteEnd input
  rw [tokenizeQuotedIdentifier, hread]
  cases undouble quoteEnd input with
  | none => rfl
  | some result => exact if_pos rfl

theorem elim_eq_ok_iff {ε α : Type} {e : ε} {read : Option α} {a : α} :
    read.elim (.error e) Except.ok = .ok a ↔ read = some a := by
  cases read with
  | none => exact ⟨nofun, nofun⟩
  | some a' =>
      rw [Option.elim_some, Option.some_inj]
      exact ⟨Except.ok.inj, congrArg Except.ok⟩

/-! ### Display -/

theorem escapeQuoted_behind_backslash (quote : Char) (rest : List Char) :
    Ident.escapeQuoted quote '\\' (quote :: rest) = quote :: Ident.escapeQuoted quote '\\' rest := by
  rw [Ident.escapeQuoted.eq_def]
  simp only [if_true]

theorem escapeQuoted_cons_of_ne {quote c : Char} (h : c ≠ quote) (previous : Char) (rest : List Char) :
    Ident.escapeQuoted quote previous (c :: rest) = c :: Ident.escapeQuoted quote c rest := by
  rw [Ident.escapeQuoted.eq_def]
  simp only [if_neg h]

theorem length_escapeQuoted_le (quote previous : Char) (s : List Char) :
    (Ident.escapeQuoted quote previous s).length ≤ (double quote s).length := by
  induction previous, s using Ident.escapeQuoted.induct quote with
  | case1 previous => exact le_rfl
  | case2 rest ih =>
      rw [escapeQuoted_behind_backslash, double, if_pos rfl]
      simp only [List.length_cons]
      omega
  | case3 previous hprevious => simp [Ident.escapeQuoted, double, hprevious]
  | case4 previous hprevious rest ih =>
      rw [Ident.escapeQuoted, if_pos rfl, if_neg hprevious, if_pos rfl, double, double, if_pos rfl, if_pos rfl]
      simp only [List.length_cons]
      omega
  | case5 previous hprevious next rest hnext ih =>
      rw [Ident.escapeQuoted, if_pos rfl, if_neg hprevious, if_neg hnext, double, if_pos rfl]
      simp only [List.length_cons]
      omega
  | case6 previous c rest hc ih =>
      rw [escapeQuoted_cons_of_ne hc, double, if_neg hc]
      simp only [List.length_cons]
      omega

/-- No quote comes behind a backslash or another quote. -/
def Escapable (quote : Char) (s : List Char) : Prop := s.IsChain fun a b => b = quote → a ≠ quote ∧ a ≠ '\\'

instance (quote : Char) (s : List Char) : Decidable (Escapable quote s) := by
  unfold Escapable
  infer_instance

/-- Every quote of the text is doubled on display, or the text has one that does not count as unescaped. -/
theorem escapeQuoted_eq_double_iff (quote previous : Char) (s : List Char) :
    Ident.escapeQuoted quote previous s = double quote s
      ↔ Escapable quote s ∧ (s.head? = some quote → previous ≠ '\\') := by
  induction previous, s using Ident.escapeQuoted.induct quote with
  | case1 previous => simp [Ident.escapeQuoted, double, Escapable]
  | case2 rest ih =>
      refine iff_of_false (fun heq => ?_) (fun h => h.2 rfl rfl)
      have hle := length_escapeQuoted_le quote '\\' rest
      rw [escapeQuoted_behind_backslash, double, if_pos rfl] at heq
      have hlength := congrArg List.length heq
      simp only [List.length_cons] at hlength
      omega
  | case3 previous hprevious => simp [Ident.escapeQuoted, double, Escapable, hprevious]
  | case4 previous hprevious rest ih =>
      refine iff_of_false (fun heq => ?_) (fun h => ((List.isChain_cons_cons.mp h.1).1 rfl).1 rfl)
      have hle := length_escapeQuoted_le quote quote rest
      rw [Ident.escapeQuoted, if_pos rfl, if_neg hprevious, if_pos rfl, double, double, if_pos rfl, if_pos rfl] at heq
      have hlength := congrArg List.length heq
      simp only [List.length_cons] at hlength
      omega
  | case5 previous hprevious next rest hnext ih =>
      rw [Ident.escapeQuoted, if_pos rfl, if_neg hprevious, if_neg hnext, double, if_pos rfl, List.cons_inj_right,
        List.cons_inj_right, ih, Escapable, Escapable, List.isChain_cons_cons]
      refine ⟨fun h => ⟨⟨fun heq => absurd heq hnext, h.1⟩, fun _ => hprevious⟩, fun h => ⟨h.1.2, fun heq => ?_⟩⟩
      exact absurd (Option.some.inj heq) hnext
  | case6 previous c rest hc ih =>
      rw [escapeQuoted_cons_of_ne hc, double, if_neg hc, List.cons_inj_right, ih, Escapable, Escapable,
        List.isChain_cons]
      constructor
      · rintro ⟨hchain, hhead⟩
        exact ⟨⟨fun next hnext heq => ⟨hc, hhead (heq ▸ hnext)⟩, hchain⟩, fun heq => absurd (Option.some.inj heq) hc⟩
      · rintro ⟨⟨hnext, hchain⟩, -⟩
        exact ⟨hchain, fun heq => (hnext quote heq rfl).2⟩

/-- What is displayed is read back where every quote was doubled, and nowhere else. -/
theorem undouble_escapeQuoted_iff {quote : Char} (h : rest.head? ≠ some quote) (s : List Char) :
    undouble quote (Ident.escapeQuoted quote '\x00' s ++ quote :: rest) = some (s, rest) ↔ Escapable quote s := by
  have hinitial : s.head? = some quote → '\x00' ≠ '\\' := fun _ => by decide
  rw [undouble_eq_some_iff, List.append_left_inj, escapeQuoted_eq_double_iff]
  exact ⟨fun hread => hread.1.1, fun hescapable => ⟨⟨hescapable, hinitial⟩, h⟩⟩

/-! ## Literals -/

/-- The tokens that begin with a quote. -/
inductive Literal
  | singleQuotedString (v : List Char)
  | nationalStringLiteral (v : List Char)
  | escapedStringLiteral (v : List Char)
  | unicodeStringLiteral (v : List Char)
  /-- A word whose `quote_style` is the double quote. -/
  | quotedWord (value : List Char)
  deriving DecidableEq, Repr

namespace Literal

/-- The quote that ends it. -/
def quote : Literal → Char
  | quotedWord _ => '"'
  | _ => '\''

/-- `Display`, of `Value` and of `Ident`. -/
def display : Literal → List Char
  | singleQuotedString v => '\'' :: (Ident.escapeQuoted '\'' '\x00' v ++ ['\''])
  | nationalStringLiteral v => 'N' :: '\'' :: (v ++ ['\''])
  | escapedStringLiteral v => 'E' :: '\'' :: (escapeEscapedString v ++ ['\''])
  | unicodeStringLiteral v => 'U' :: '&' :: '\'' :: (escapeUnicodeString v ++ ['\''])
  | quotedWord value => '"' :: (Ident.escapeQuoted '"' '\x00' value ++ ['"'])

/-- A quoted word is displayed as the identifier it becomes. -/
theorem toString_quotedIdent (value : String) :
    (Ident.mk value (some '"')).toString = String.ofList (quotedWord value.toList).display := by
  rw [display, String.ofList_cons, String.ofList_append]
  rfl

/-- The literals whose display is read as they are. -/
def Displayable : Literal → Prop
  | singleQuotedString v => Escapable '\'' v
  | nationalStringLiteral v => '\'' ∉ v
  | escapedStringLiteral _ => True
  | unicodeStringLiteral _ => True
  | quotedWord value => Escapable '"' value

instance (literal : Literal) : Decidable literal.Displayable := by
  cases literal <;> unfold Displayable <;> infer_instance

/-- The branches of `next_token` for them: none where the next token is another one. -/
def read : List Char → Option (Except String (Literal × List Char))
  | '\'' :: input => some ((tokenizeQuotedString '\'' input).map fun result => (singleQuotedString result.1, result.2))
  | 'N' :: '\'' :: input | 'n' :: '\'' :: input =>
      some ((tokenizeQuotedString '\'' input).map fun result => (nationalStringLiteral result.1, result.2))
  | 'E' :: '\'' :: input | 'e' :: '\'' :: input =>
      some (match Unescape.unescape input with
        | none => .error "Unterminated encoded string literal"
        | some (v, rest) => .ok (escapedStringLiteral v, rest))
  | 'U' :: '&' :: '\'' :: input | 'u' :: '&' :: '\'' :: input =>
      some ((unescapeUnicodeSingleQuotedString input).map fun result => (unicodeStringLiteral result.1, result.2))
  | '"' :: input => some ((tokenizeQuotedIdentifier '"' input).map fun result => (quotedWord result.1, result.2))
  | _ => none

/-- What one branch reads. -/
theorem map_eq_ok_iff {kind : List Char → Literal} (hkind : Function.Injective kind)
    {result : Except String (List Char × List Char)} {s rest : List Char} :
    some (result.map fun text => (kind text.1, text.2)) = some (Except.ok (kind s, rest)) ↔ result = .ok (s, rest) := by
  rw [Option.some_inj]
  cases result with
  | error => exact ⟨nofun, nofun⟩
  | ok text =>
      constructor
      · intro heq
        obtain ⟨hs, hrest⟩ := Prod.mk.inj (Except.ok.inj heq)
        exact congrArg Except.ok (Prod.ext (hkind hs) hrest)
      · intro heq
        rw [Except.ok.inj heq]
        rfl

theorem exists_of_map_eq_ok {kind : List Char → Literal} {result : Except String (List Char × List Char)}
    {literal : Literal} {rest : List Char}
    (h : some (result.map fun text => (kind text.1, text.2)) = some (Except.ok (literal, rest))) :
    ∃ s, literal = kind s := by
  cases result with
  | error => cases Option.some.inj h
  | ok text => exact ⟨text.1, (Prod.mk.inj (Except.ok.inj (Option.some.inj h))).1.symm⟩

theorem singleQuotedString_injective : Function.Injective singleQuotedString := fun _ _ => singleQuotedString.inj

theorem nationalStringLiteral_injective : Function.Injective nationalStringLiteral :=
  fun _ _ => nationalStringLiteral.inj

theorem unicodeStringLiteral_injective : Function.Injective unicodeStringLiteral :=
  fun _ _ => unicodeStringLiteral.inj

theorem quotedWord_injective : Function.Injective quotedWord := fun _ _ => quotedWord.inj

/-- A literal's display is read as the literal again exactly where it is displayable. -/
theorem read_display_iff (literal : Literal) {rest : List Char} (h : rest.head? ≠ some literal.quote) :
    read (literal.display ++ rest) = some (.ok (literal, rest)) ↔ literal.Displayable := by
  cases literal with
  | singleQuotedString v =>
      rw [display, List.cons_append, List.append_assoc, read, map_eq_ok_iff singleQuotedString_injective,
        tokenizeQuotedString_eq, elim_eq_ok_iff]
      exact undouble_escapeQuoted_iff h v
  | nationalStringLiteral v =>
      rw [display, List.cons_append, List.cons_append, List.append_assoc, read,
        map_eq_ok_iff nationalStringLiteral_injective, tokenizeQuotedString_eq, elim_eq_ok_iff, undouble_eq_some_iff]
      have hiff : v ++ '\'' :: rest = double '\'' v ++ '\'' :: rest ↔ '\'' ∉ v := by
        rw [List.append_left_inj, eq_comm]
        exact double_eq_self_iff
      exact ⟨fun hread => hiff.mp hread.1, fun hquote => ⟨hiff.mpr hquote, h⟩⟩
  | escapedStringLiteral v =>
      refine iff_of_true ?_ trivial
      rw [display, List.cons_append, List.cons_append, List.append_assoc, read]
      have hread : Unescape.unescape (escapeEscapedString v ++ ['\''] ++ rest) = some (v, rest) := by
        rw [List.append_assoc]
        exact Unescape.unescape_escapeEscapedString h v
      rw [List.append_assoc] at hread
      rw [hread]
  | unicodeStringLiteral v =>
      refine iff_of_true ?_ trivial
      rw [display, List.cons_append, List.cons_append, List.cons_append, List.append_assoc, read,
        map_eq_ok_iff unicodeStringLiteral_injective]
      exact unescapeUnicode_escapeUnicodeString h v
  | quotedWord value =>
      rw [display, List.cons_append, List.append_assoc, read, map_eq_ok_iff quotedWord_injective,
        tokenizeQuotedIdentifier_eq, elim_eq_ok_iff]
      exact undouble_escapeQuoted_iff h value

/-- A lone quote is doubled; behind a backslash it ends the string on the way back. -/
theorem read_display_quoted :
    read ((singleQuotedString "it's".toList).display ++ [';']) = some (.ok (singleQuotedString "it's".toList, [';']))
      ∧ read ((singleQuotedString ['\\', '\'']).display ++ [';'])
        ≠ some (.ok (singleQuotedString ['\\', '\''], [';'])) :=
  ⟨(read_display_iff _ (by decide)).mpr (by decide), fun h => absurd ((read_display_iff _ (by decide)).mp h) (by decide)⟩

/-- The two kinds that have no letter in front open with their quote. -/
theorem exists_of_read_eq_ok {input rest : List Char} {literal : Literal} (h : read input = some (.ok (literal, rest)))
    (hkind : ∃ s, literal = singleQuotedString s ∨ literal = quotedWord s) : ∃ text, input = literal.quote :: text := by
  unfold read at h
  split at h
  case h_1 text =>
    obtain ⟨s, rfl⟩ := exists_of_map_eq_ok h
    exact ⟨text, rfl⟩
  case h_8 text =>
    obtain ⟨s, rfl⟩ := exists_of_map_eq_ok h
    exact ⟨text, rfl⟩
  case h_4 =>
    split at h
    · cases Option.some.inj h
    · obtain ⟨s, rfl | rfl⟩ := hkind <;> cases Except.ok.inj (Option.some.inj h)
  case h_5 =>
    split at h
    · cases Option.some.inj h
    · obtain ⟨s, rfl | rfl⟩ := hkind <;> cases Except.ok.inj (Option.some.inj h)
  case h_9 => cases h
  all_goals
    obtain ⟨s', rfl⟩ := exists_of_map_eq_ok h
    obtain ⟨s, heq | heq⟩ := hkind <;> cases heq

/-- What is read as a plain string or a quoted word is the text between quotes with every quote doubled. -/
theorem read_plain_iff {input rest s : List Char} :
    (read input = some (.ok (singleQuotedString s, rest))
        ↔ input = '\'' :: (double '\'' s ++ '\'' :: rest) ∧ rest.head? ≠ some '\'') ∧
      (read input = some (.ok (quotedWord s, rest))
        ↔ input = '"' :: (double '"' s ++ '"' :: rest) ∧ rest.head? ≠ some '"') := by
  have hplain : ∀ text, read ('\'' :: text) = some (.ok (singleQuotedString s, rest))
      ↔ text = double '\'' s ++ '\'' :: rest ∧ rest.head? ≠ some '\'' := by
    intro text
    rw [read, map_eq_ok_iff singleQuotedString_injective, tokenizeQuotedString_eq, elim_eq_ok_iff, undouble_eq_some_iff]
  have hword : ∀ text, read ('"' :: text) = some (.ok (quotedWord s, rest))
      ↔ text = double '"' s ++ '"' :: rest ∧ rest.head? ≠ some '"' := by
    intro text
    rw [read, map_eq_ok_iff quotedWord_injective, tokenizeQuotedIdentifier_eq, elim_eq_ok_iff, undouble_eq_some_iff]
  constructor
  · constructor
    · intro h
      obtain ⟨text, rfl⟩ := exists_of_read_eq_ok h ⟨s, .inl rfl⟩
      exact ⟨congrArg _ ((hplain text).mp h).1, ((hplain text).mp h).2⟩
    · rintro ⟨rfl, hrest⟩
      exact (hplain _).mpr ⟨rfl, hrest⟩
  · constructor
    · intro h
      obtain ⟨text, rfl⟩ := exists_of_read_eq_ok h ⟨s, .inr rfl⟩
      exact ⟨congrArg _ ((hword text).mp h).1, ((hword text).mp h).2⟩
    · rintro ⟨rfl, hrest⟩
      exact (hword _).mpr ⟨rfl, hrest⟩

end Literal

end BrewDB.Parser

import Mathlib.Algebra.Group.Nat.Defs
import Swatchbook.Color.Rgb
import Swatchbook.Text.Quoted

/-! Reading what is written as a literal: texts in quotes by the rules of the emitted
language, numbers, and packed colors. Each reader undoes the way its literal is
written. -/
namespace Swatchbook.Text

inductive LiteralState where
  | plain
  | escape
  | byte
  | byteRest (high : Nat)
  | brace
  | code (number digits : Nat)

def simpleEscape? (c : Char) : Option Char :=
  if c = 'n' then some '\n'
  else if c = 'r' then some '\r'
  else if c = 't' then some '\t'
  else if c = '0' then some '\x00'
  else if c = '\\' ∨ c = '\'' ∨ c = '"' then some c
  else none

def put (c : Char) (r : List Char × List Char) : List Char × List Char :=
  (c :: r.1, r.2)

/-- The rest of a string literal: the text it stands for, and what follows its closing
quote. Literals that run on over a line end are not read. -/
def readLiteral : LiteralState → List Char → Option (List Char × List Char)
  | _, [] => none
  | .plain, c :: rest =>
    if c = '"' then some ([], rest)
    else if c = '\\' then readLiteral .escape rest
    else (readLiteral .plain rest).map (put c)
  | .escape, c :: rest =>
    if c = 'x' then readLiteral .byte rest
    else if c = 'u' then readLiteral .brace rest
    else (simpleEscape? c).bind fun d => (readLiteral .plain rest).map (put d)
  | .byte, c :: rest => (hexValue? c).bind fun high => readLiteral (.byteRest high) rest
  | .byteRest high, c :: rest =>
    (hexValue? c).bind fun low =>
      if high < 8 then (readLiteral .plain rest).map (put (Char.ofNat (16 * high + low)))
      else none
  | .brace, c :: rest => if c = '\x7b' then readLiteral (.code 0 0) rest else none
  | .code number digits, c :: rest =>
    if c = '\x7d' then
      if 0 < digits ∧ number.isValidChar then
        (readLiteral .plain rest).map (put (Char.ofNat number))
      else none
    else if c = '_' then if 0 < digits then readLiteral (.code number digits) rest else none
    else (hexValue? c).bind fun d =>
      if digits < 6 then readLiteral (.code (16 * number + d) (digits + 1)) rest else none

def readQuoted (s : List Char) : Option (String × List Char) :=
  match s with
  | '"' :: rest => (readLiteral .plain rest).map fun r => (String.ofList r.1, r.2)
  | _ => none

theorem hexValue?_digitChar : ∀ d, d < 16 → hexValue? (Nat.digitChar d) = some d := by
  decide

theorem hexValue?_hexDigit : ∀ d, d < 16 → hexValue? (hexDigit d) = some d := by
  decide

theorem mem_toDigits {n : Nat} {c : Char} (h : c ∈ Nat.toDigits 16 n) :
    ∃ d, d < 16 ∧ c = Nat.digitChar d := by
  induction n using Nat.strongRecOn with
  | ind n ih =>
      by_cases hn : n < 16
      · rw [Nat.toDigits_of_lt_base hn, List.mem_singleton] at h
        exact ⟨n, hn, h⟩
      · rw [Nat.toDigits_of_base_le (by decide) (by omega), List.mem_append,
          List.mem_singleton] at h
        rcases h with h | h
        · exact ih (n / 16) (by omega) h
        · exact ⟨n % 16, by omega, h⟩

private theorem readLiteral_code_digit {c : Char} {d number digits : Nat} (h : hexValue? c = some d)
    (hdigits : digits < 6) (rest : List Char) :
    readLiteral (.code number digits) (c :: rest) =
      readLiteral (.code (16 * number + d) (digits + 1)) rest := by
  have hbrace : c ≠ '\x7d' := by
    rintro rfl
    rw [show hexValue? '\x7d' = none by decide] at h
    cases h
  have hunder : c ≠ '_' := by
    rintro rfl
    rw [show hexValue? '_' = none by decide] at h
    cases h
  rw [readLiteral, if_neg hbrace, if_neg hunder, h, Option.bind_some, if_pos hdigits]

theorem readLiteral_code_toDigits (n : Nat) (h : n < 16 ^ 6) (rest : List Char) :
    readLiteral (.code 0 0) (Nat.toDigits 16 n ++ rest) =
      readLiteral (.code n (Nat.toDigits 16 n).length) rest := by
  induction n using Nat.strongRecOn generalizing rest with
  | ind n ih =>
      by_cases hn : n < 16
      · rw [Nat.toDigits_of_lt_base hn]
        simp only [List.singleton_append, List.length_singleton]
        rw [readLiteral_code_digit (hexValue?_digitChar n hn) (by decide)]
        simp
      · have hlength := (Nat.length_toDigits_le_iff (by decide : 1 < 16) (by decide)).2 h
        rw [Nat.toDigits_of_base_le (by decide) (by omega)] at hlength ⊢
        rw [List.length_append, List.length_singleton] at hlength
        rw [List.append_assoc, List.singleton_append, ih (n / 16) (by omega) (by omega),
          readLiteral_code_digit (hexValue?_digitChar (n % 16) (by omega)) (by omega),
          List.length_append, List.length_singleton, Nat.div_add_mod]

/-- The characters with an escape of their own. -/
def named : List Char :=
  ['"', '\\', '\n', '\r', '\t', '\x00']

theorem escape_of_not_named {c : Char} (h : c ∉ named) :
    escape c =
      if isHidden c then ['\\', 'u', '\x7b'] ++ Nat.toDigits 16 c.toNat ++ ['\x7d'] else [c] := by
  simp only [named, List.mem_cons, List.not_mem_nil, or_false, not_or] at h
  obtain ⟨hquote, hslash, hfeed, hreturn, htab, hzero⟩ := h
  rw [escape, if_neg hquote, if_neg hslash, if_neg hfeed, if_neg hreturn, if_neg htab, if_neg hzero]

theorem readLiteral_escape (c : Char) (rest : List Char) :
    readLiteral .plain (escape c ++ rest) = (readLiteral .plain rest).map (put c) := by
  by_cases hnamed : c ∈ named
  · simp only [named, List.mem_cons, List.not_mem_nil, or_false] at hnamed
    rcases hnamed with rfl | rfl | rfl | rfl | rfl | rfl <;> rfl
  · rw [escape_of_not_named hnamed]
    split
    · have hvalid : c.toNat.isValidChar := c.valid
      have hsmall : c.toNat < 16 ^ 6 := by
        unfold Nat.isValidChar at hvalid
        omega
      have hdigits : 0 < (Nat.toDigits 16 c.toNat).length := Nat.length_toDigits_pos
      change readLiteral (.code 0 0) (Nat.toDigits 16 c.toNat ++ ['\x7d'] ++ rest) = _
      rw [List.append_assoc, readLiteral_code_toDigits c.toNat hsmall, List.singleton_append,
        readLiteral, if_pos rfl, if_pos ⟨hdigits, hvalid⟩, Char.ofNat_toNat]
    · simp only [named, List.mem_cons, not_or] at hnamed
      rw [List.singleton_append, readLiteral, if_neg hnamed.1, if_neg hnamed.2.1]

theorem readLiteral_escapes (s rest : List Char) :
    readLiteral .plain (s.flatMap escape ++ '"' :: rest) = some (s, rest) := by
  induction s with
  | nil => rfl
  | cons c s ih =>
      rw [List.flatMap_cons, List.append_assoc, readLiteral_escape, ih]
      rfl

theorem readQuoted_quote (s : String) (rest : List Char) :
    readQuoted ((quote s).toList ++ rest) = some (s, rest) := by
  have hquote : (quote s).toList ++ rest =
      '"' :: (s.toList.flatMap escape ++ '"' :: rest) := by
    unfold quote
    simp
  rw [hquote, readQuoted, readLiteral_escapes, Option.map_some, String.ofList_toList]

def readCount (s : String) : Option Nat :=
  if s.toList ≠ [] ∧ s.toList.all Char.isDigit then some (Nat.ofDigitChars 10 s.toList 0) else none

theorem readCount_toString (n : Nat) : readCount (toString n) = some n := by
  have hdigits : (Nat.toDigits 10 n).all Char.isDigit = true := by
    rw [List.all_eq_true]
    intro c hc
    exact Nat.isDigit_of_mem_toDigits (by decide) (by decide) hc
  unfold readCount
  rw [Nat.toString_eq_ofList_toDigits, String.toList_ofList, if_pos ⟨Nat.toDigits_ne_nil, hdigits⟩,
    Nat.ofDigitChars_ten_toDigits]

def readWord (s : List Char) : Option UInt32 :=
  if s.length = 8 ∧ s.all isHexDigit then some (.ofNat (hexNumber s)) else none

theorem hexNumber_hexWord (n : UInt32) : hexNumber (hexWord n) = n.toNat := by
  have hn := n.toNat_lt
  have hdigit : ∀ k, (hexValue? (hexDigit (k % 16))).getD 0 = k % 16 := by
    intro k
    rw [hexValue?_hexDigit _ (Nat.mod_lt k (by decide)), Option.getD_some]
  simp only [hexWord, hexNumber, List.map_cons, List.map_nil, List.foldl_cons, List.foldl_nil,
    hdigit]
  omega

theorem readWord_hexWord (n : UInt32) : readWord (hexWord n) = some n := by
  have hdigits : (hexWord n).all isHexDigit = true := by
    rw [List.all_eq_true]
    intro c hc
    unfold hexWord at hc
    obtain ⟨shift, -, rfl⟩ := List.mem_map.1 hc
    rw [isHexDigit, hexValue?_hexDigit _ (Nat.mod_lt _ (by decide))]
    rfl
  rw [readWord, if_pos ⟨rfl, hdigits⟩, hexNumber_hexWord, UInt32.ofNat_toNat]

end Swatchbook.Text

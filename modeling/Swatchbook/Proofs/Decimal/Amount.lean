import Swatchbook.Proofs.Decimal.Nearest
import Swatchbook.Proofs.Text.UpperCase

/-! The grammar of amounts, and which of them are numbers of the binary format. Words for an
infinity and for no number belong to the grammar, and so do decimals of any size. -/
namespace Swatchbook.Decimal

open Binary64 (limit)

/-! ### The grammar -/

inductive SignText : List Char → Bool → Prop where
  | none : SignText [] false
  | plus : SignText ['+'] false
  | minus : SignText ['-'] true

inductive ExponentText : List Char → Int → Prop where
  | none : ExponentText [] 0
  | some {mark : Char} {sign digits : List Char} {negative : Bool} (hmark : mark = 'e' ∨ mark = 'E')
      (hsign : SignText sign negative) (hne : digits ≠ []) (hdigits : ∀ c ∈ digits, c.isDigit = true) :
      ExponentText (mark :: (sign ++ digits))
        (if negative then -(accumulate 0 digits : Int) else accumulate 0 digits)

/-- Digits with at most one point among them and an exponent, and the number
`digits · 10 ^ exponent` that they spell. -/
inductive UnsignedText : List Char → Nat → Int → Prop where
  | whole {digits exponent : List Char} {e : Int} (hne : digits ≠ [])
      (hdigits : ∀ c ∈ digits, c.isDigit = true) (h : ExponentText exponent e) :
      UnsignedText (digits ++ exponent) (accumulate 0 digits) e
  | point {whole part exponent : List Char} {e : Int} (hne : whole ++ part ≠ [])
      (hwhole : ∀ c ∈ whole, c.isDigit = true) (hpart : ∀ c ∈ part, c.isDigit = true)
      (h : ExponentText exponent e) :
      UnsignedText (whole ++ '.' :: (part ++ exponent)) (accumulate 0 (whole ++ part))
        (e - part.length)

/-- What an amount can stand for. -/
inductive Meaning where
  | decimal (d : Decimal)
  | infinite (negative : Bool)
  | notANumber

/-- The words may be in any case. -/
inductive AmountText : List Char → Meaning → Prop where
  | decimal {sign body : List Char} {negative : Bool} {m : Nat} {e : Int}
      (hsign : SignText sign negative) (h : UnsignedText body m e) :
      AmountText (sign ++ body) (.decimal ⟨negative, m, e⟩)
  | infinite {sign body : List Char} {negative : Bool} (hsign : SignText sign negative)
      (h : body.map Char.toLower = "inf".toList ∨ body.map Char.toLower = "infinity".toList) :
      AmountText (sign ++ body) (.infinite negative)
  | notANumber {sign body : List Char} {negative : Bool} (hsign : SignText sign negative)
      (h : body.map Char.toLower = "nan".toList) : AmountText (sign ++ body) .notANumber

namespace Meaning

def value : Meaning → Float
  | .decimal d => d.toFloat
  | .infinite negative => if negative then -(1 / 0) else 1 / 0
  | .notANumber => 0 / 0

def IsFinite : Meaning → Prop
  | .decimal d => d.digits * 10 ^ d.exponent.toNat < limit * 10 ^ (-d.exponent).toNat
  | .infinite _ | .notANumber => False

end Meaning

/-! ### Reading exponents -/

def unsigned : List Char → Bool × List Char
  | '-' :: r => (true, r)
  | '+' :: r => (false, r)
  | r => (false, r)

theorem exists_signText (s : List Char) :
    ∃ sign, SignText sign (unsigned s).1 ∧ s = sign ++ (unsigned s).2 := by
  fun_cases unsigned s with
  | case1 r => exact ⟨_, .minus, rfl⟩
  | case2 r => exact ⟨_, .plus, rfl⟩
  | case3 => exact ⟨[], .none, rfl⟩

theorem unsigned_append {sign body : List Char} {negative : Bool} (hsign : SignText sign negative)
    (hminus : body.head? ≠ some '-') (hplus : body.head? ≠ some '+') :
    unsigned (sign ++ body) = (negative, body) := by
  cases hsign with
  | minus | plus => rfl
  | none =>
      rw [List.nil_append]
      fun_cases unsigned body with
      | case1 r => exact absurd rfl hminus
      | case2 r => exact absurd rfl hplus
      | case3 => rfl

theorem not_isDigit_sign {digits : List Char} (h : ∀ c ∈ digits, c.isDigit = true) {c : Char}
    (hc : c.isDigit = false) : digits.head? ≠ some c := by
  intro hhead
  have hdigit := h c (List.mem_of_head? hhead)
  rw [hc] at hdigit
  cases hdigit

theorem readExponent?_cons (c : Char) (r : List Char) : readExponent? (c :: r) =
    if c = 'e' ∨ c = 'E' then
      if (unsigned r).2.isEmpty || !(unsigned r).2.all Char.isDigit then none
      else some (if (unsigned r).1 then -(accumulate 0 (unsigned r).2 : Int)
        else accumulate 0 (unsigned r).2)
    else none :=
  rfl

theorem readExponent?_eq_some_iff {s : List Char} {e : Int} :
    readExponent? s = some e ↔ ExponentText s e := by
  constructor
  · intro h
    cases s with
    | nil =>
        cases h
        exact .none
    | cons c r =>
        obtain ⟨sign, hsign, hr⟩ := exists_signText r
        rw [readExponent?_cons] at h
        split at h
        · rename_i hmark
          split at h
          · cases h
          · rename_i hdigits
            cases h
            rw [Bool.not_eq_true, Bool.or_eq_false_iff, List.isEmpty_eq_false_iff, Bool.not_eq_false',
              List.all_eq_true] at hdigits
            have htext := ExponentText.some hmark hsign hdigits.1 hdigits.2
            rwa [← hr] at htext
        · cases h
  · intro h
    cases h with
    | none => rfl
    | some hmark hsign hne hdigits =>
        have hall := List.all_eq_true.2 hdigits
        rw [readExponent?_cons, if_pos hmark, unsigned_append hsign
          (not_isDigit_sign hdigits (by decide)) (not_isDigit_sign hdigits (by decide))]
        simp [hne, hall]

theorem head?_exponentText {s : List Char} {e : Int} (h : ExponentText s e) :
    (∀ c, s.head? = some c → c.isDigit = false) ∧ s.head? ≠ some '.' := by
  cases h with
  | none => exact ⟨nofun, nofun⟩
  | some hmark => rcases hmark with rfl | rfl <;> simp

/-! ### Reading decimals -/

theorem span_digits {digits rest : List Char} (hdigits : ∀ c ∈ digits, c.isDigit = true)
    (hrest : ∀ c, rest.head? = some c → c.isDigit = false) :
    (digits ++ rest).takeWhile Char.isDigit = digits ∧
      (digits ++ rest).dropWhile Char.isDigit = rest := by
  have hnone : rest.takeWhile Char.isDigit = [] ∧ rest.dropWhile Char.isDigit = rest := by
    cases rest with
    | nil => exact ⟨rfl, rfl⟩
    | cons c r =>
        have hc := hrest c rfl
        exact ⟨List.takeWhile_cons_of_neg (by simp [hc]), List.dropWhile_cons_of_neg (by simp [hc])⟩
  rw [List.takeWhile_append_of_pos hdigits, List.dropWhile_append_of_pos hdigits, hnone.1, hnone.2,
    List.append_nil]
  exact ⟨rfl, rfl⟩

theorem exists_span (s : List Char) : ∃ digits rest, s = digits ++ rest ∧
    (∀ c ∈ digits, c.isDigit = true) ∧ ∀ c, rest.head? = some c → c.isDigit = false := by
  refine ⟨s.takeWhile Char.isDigit, s.dropWhile Char.isDigit, List.takeWhile_append_dropWhile.symm,
    List.all_eq_true.1 List.all_takeWhile, fun c hc => ?_⟩
  have hhead := List.head?_dropWhile_not Char.isDigit s
  rwa [hc] at hhead

theorem readUnsigned?_whole {digits rest : List Char} (hdigits : ∀ c ∈ digits, c.isDigit = true)
    (hrest : ∀ c, rest.head? = some c → c.isDigit = false) (hpoint : rest.head? ≠ some '.') :
    readUnsigned? (digits ++ rest) = if digits = [] then none
      else (readExponent? rest).map fun e => (accumulate 0 digits, e) := by
  unfold readUnsigned?
  simp only [span_digits hdigits hrest]
  split
  · exact absurd rfl hpoint
  · simp

theorem readUnsigned?_point {whole part rest : List Char} (hwhole : ∀ c ∈ whole, c.isDigit = true)
    (hpart : ∀ c ∈ part, c.isDigit = true) (hrest : ∀ c, rest.head? = some c → c.isDigit = false) :
    readUnsigned? (whole ++ '.' :: (part ++ rest)) = if whole ++ part = [] then none
      else (readExponent? rest).map fun e : Int =>
        (accumulate 0 (whole ++ part), e - part.length) := by
  have hdot : ∀ c, ('.' :: (part ++ rest)).head? = some c → c.isDigit = false := by
    rintro c hc
    cases hc
    decide
  unfold readUnsigned?
  simp only [span_digits hwhole hdot, span_digits hpart hrest]
  simp

theorem readUnsigned?_eq_some_iff {s : List Char} {m : Nat} {e : Int} :
    readUnsigned? s = some (m, e) ↔ UnsignedText s m e := by
  constructor
  · intro h
    obtain ⟨digits, rest, rfl, hdigits, hrest⟩ := exists_span s
    by_cases hpoint : rest.head? = some '.'
    · obtain ⟨after, rfl⟩ := List.head?_eq_some_iff.1 hpoint
      obtain ⟨part, rest, rfl, hpart, hrest⟩ := exists_span after
      rw [readUnsigned?_point hdigits hpart hrest] at h
      split at h
      · cases h
      · rename_i hne
        obtain ⟨e, he, heq⟩ := Option.map_eq_some_iff.1 h
        cases heq
        exact .point hne hdigits hpart (readExponent?_eq_some_iff.1 he)
    · rw [readUnsigned?_whole hdigits hrest hpoint] at h
      split at h
      · cases h
      · rename_i hne
        obtain ⟨e, he, heq⟩ := Option.map_eq_some_iff.1 h
        cases heq
        exact .whole hne hdigits (readExponent?_eq_some_iff.1 he)
  · intro h
    cases h with
    | whole hne hdigits h =>
        obtain ⟨hrest, hpoint⟩ := head?_exponentText h
        rw [readUnsigned?_whole hdigits hrest hpoint, if_neg hne, readExponent?_eq_some_iff.2 h]
        rfl
    | point hne hwhole hpart h =>
        rw [readUnsigned?_point hwhole hpart (head?_exponentText h).1, if_neg hne,
          readExponent?_eq_some_iff.2 h]
        rfl

/-! ### Reading amounts -/

theorem UnsignedText.exists_head {s : List Char} {m : Nat} {e : Int} (h : UnsignedText s m e) :
    ∃ c, s.head? = some c ∧ (c.isDigit = true ∨ c = '.') := by
  cases h with
  | @whole digits exponent e hne hdigits =>
      obtain ⟨c, r, rfl⟩ := List.exists_cons_of_ne_nil hne
      exact ⟨c, rfl, .inl (hdigits c (List.mem_cons_self ..))⟩
  | @point whole part exponent e hne hwhole =>
      cases whole with
      | nil => exact ⟨'.', rfl, .inr rfl⟩
      | cons c r => exact ⟨c, rfl, .inl (hwhole c (List.mem_cons_self ..))⟩

theorem toLower_of_isDigit {c : Char} (h : c.isDigit = true) : c.toLower = c := by
  have hlast : c.val ≤ '9'.val := of_decide_eq_true (Bool.and_eq_true_iff.1 h).2
  exact dif_neg fun hupper => absurd (UInt32.le_trans hupper.1 hlast) (by decide)

/-- What follows the sign is a word or a decimal. -/
def readBody? (negative : Bool) (body : List Char) : Option Float :=
  if body.map Char.toLower = "inf".toList ∨ body.map Char.toLower = "infinity".toList then
    some (if negative then -(1 / 0) else 1 / 0)
  else if body.map Char.toLower = "nan".toList then some (0 / 0)
  else (readUnsigned? body).map fun (m, e) => toFloat ⟨negative, m, e⟩

theorem readAmount?_eq (s : String) :
    readAmount? s = readBody? (unsigned s.toList).1 (unsigned s.toList).2 := by
  have hword : ∀ (l : List Char) (w : String), l = w.toList ↔ String.ofList l = w := by
    intro l w
    rw [← String.toList_inj, String.toList_ofList]
  unfold readBody?
  simp only [hword]
  rfl

/-- Reading takes the words and the decimals, whatever their size, and nothing else. -/
theorem readAmount?_eq_some_iff {s : String} {x : Float} :
    readAmount? s = some x ↔ ∃ a, AmountText s.toList a ∧ a.value = x := by
  rw [readAmount?_eq]
  constructor
  · intro h
    obtain ⟨sign, hsign, hs⟩ := exists_signText s.toList
    rw [hs]
    unfold readBody? at h
    split at h
    · rename_i hinfinite
      cases h
      exact ⟨_, .infinite hsign hinfinite, rfl⟩
    · split at h
      · rename_i hnan
        cases h
        exact ⟨_, .notANumber hsign hnan, rfl⟩
      · obtain ⟨⟨m, e⟩, hunsigned, rfl⟩ := Option.map_eq_some_iff.1 h
        exact ⟨_, .decimal hsign (readUnsigned?_eq_some_iff.1 hunsigned), rfl⟩
  · rintro ⟨a, htext, rfl⟩
    generalize s.toList = text at htext
    -- Neither a word nor a decimal starts with a sign.
    have hsplit : ∀ {sign body : List Char} {negative : Bool}, SignText sign negative →
        (body.map Char.toLower).head? ≠ some '-' → (body.map Char.toLower).head? ≠ some '+' →
          unsigned (sign ++ body) = (negative, body) := by
      intro sign body negative hsign hminus hplus
      rw [List.head?_map] at hminus hplus
      exact unsigned_append hsign (fun h => hminus (by rw [h]; rfl)) fun h => hplus (by rw [h]; rfl)
    cases htext with
    | infinite hsign h =>
        rw [hsplit hsign ?_ ?_, readBody?, if_pos h]
        · rfl
        all_goals rcases h with h | h <;> rw [h] <;> decide
    | notANumber hsign h =>
        rw [hsplit hsign ?_ ?_, readBody?, if_neg ?_, if_pos h]
        · rfl
        all_goals rw [h]; decide
    | @decimal sign body negative m e hsign h =>
        obtain ⟨c, hc, hfirst⟩ := h.exists_head
        have hsame : (body.map Char.toLower).head? = some c := by
          rw [List.head?_map, hc, Option.map_some]
          rcases hfirst with hdigit | rfl
          · rw [toLower_of_isDigit hdigit]
          · rfl
        have hother : ∀ d, d.isDigit = false → d ≠ '.' →
            (body.map Char.toLower).head? ≠ some d := by
          rintro d hdigit hpoint hd
          obtain rfl := Option.some.inj (hsame.symm.trans hd)
          rcases hfirst with h | h
          · exact Bool.false_ne_true (hdigit.symm.trans h)
          · exact hpoint h
        have hword : ∀ word : List Char, (∃ d, word.head? = some d ∧ d.isDigit = false ∧ d ≠ '.') →
            body.map Char.toLower ≠ word := by
          rintro _ ⟨d, hd, hdigit, hpoint⟩ rfl
          exact hother d hdigit hpoint hd
        have hinf := hword "inf".toList ⟨'i', rfl, by decide, by decide⟩
        have hinfinity := hword "infinity".toList ⟨'i', rfl, by decide, by decide⟩
        have hnan := hword "nan".toList ⟨'n', rfl, by decide, by decide⟩
        rw [hsplit hsign (hother _ (by decide) (by decide)) (hother _ (by decide) (by decide)),
          readBody?, if_neg (not_or.2 ⟨hinf, hinfinity⟩), if_neg hnan, readUnsigned?_eq_some_iff.2 h]
        rfl

theorem readAmount?_isNone_iff {text : List Char} :
    (readAmount? (String.ofList text)).isNone = true ↔ ¬∃ a, AmountText text a := by
  rw [Option.isNone_iff_eq_none, Option.eq_none_iff_forall_ne_some]
  simp only [ne_eq, readAmount?_eq_some_iff, String.toList_ofList]
  exact ⟨fun h ⟨a, ha⟩ => h a.value ⟨a, ha, rfl⟩, fun h x ⟨a, ha, _⟩ => h ⟨a, ha⟩⟩

/-! ### Finite amounts -/

theorem isFinite_toFloat_iff (d : Decimal) : d.toFloat.isFinite = true ↔
    d.digits * 10 ^ d.exponent.toNat < limit * 10 ^ (-d.exponent).toNat := by
  rw [← isFinite_nearest_iff]
  unfold toFloat
  split
  · exact Binary64.isFinite_neg_iff
  · rfl

/-- A decimal below the limit is the only amount that is a number of the binary format. -/
theorem isFinite_value_iff (a : Meaning) : a.value.isFinite = true ↔ a.IsFinite := by
  have hwords : (1 / 0 : Float).isFinite = false ∧ (-(1 / 0) : Float).isFinite = false ∧
      (0 / 0 : Float).isFinite = false := by
    decide +kernel
  cases a with
  | decimal d => exact isFinite_toFloat_iff d
  | infinite negative =>
      cases negative with
      | true => simp [Meaning.value, Meaning.IsFinite, hwords]
      | false => simp [Meaning.value, Meaning.IsFinite, hwords]
  | notANumber => simp [Meaning.value, Meaning.IsFinite, hwords]

theorem AmountText.value_unique {text : List Char} {a a' : Meaning} (h : AmountText text a)
    (h' : AmountText text a') : a.value = a'.value := by
  have hread : ∀ {a}, AmountText text a → readAmount? (String.ofList text) = some a.value :=
    fun {a} ha => readAmount?_eq_some_iff.2 ⟨a, by rwa [String.toList_ofList], rfl⟩
  exact Option.some.inj ((hread h).symm.trans (hread h'))

end Swatchbook.Decimal

import Swatchbook.Color.Blend
import Swatchbook.Proofs.Text.UpperCase

/-! The normal form of a color: a number sign, then six or eight digits in upper case.
Normalizing a valid color gives it, and so does every operation on colors. -/
namespace Swatchbook

def IsWrittenDigit (c : Char) : Prop :=
  ∃ d, d < 16 ∧ c = hexDigit d

theorem isWrittenDigit_hexDigit {d : Nat} (h : d < 16) : IsWrittenDigit (hexDigit d) :=
  ⟨d, h, rfl⟩

theorem IsWrittenDigit.isHexDigit {c : Char} (h : IsWrittenDigit c) :
    Swatchbook.isHexDigit c = true := by
  have hall : ∀ d, d < 16 → Swatchbook.isHexDigit (hexDigit d) = true := by decide
  obtain ⟨d, hd, rfl⟩ := h
  exact hall d hd

theorem IsWrittenDigit.utf8Size_eq {c : Char} (h : IsWrittenDigit c) : c.utf8Size = 1 := by
  have hall : ∀ d, d < 16 → (hexDigit d).utf8Size = 1 := by decide
  obtain ⟨d, hd, rfl⟩ := h
  exact hall d hd

theorem IsWrittenDigit.toUpper_eq {c : Char} (h : IsWrittenDigit c) : c.toUpper = c := by
  have hall : ∀ d, d < 16 → (hexDigit d).toUpper = hexDigit d := by decide
  obtain ⟨d, hd, rfl⟩ := h
  exact hall d hd

theorem toNat_of_isHexDigit {c : Char} (h : isHexDigit c = true) : c.toNat < 0x80 := by
  have hends : '9'.toNat = 57 ∧ 'f'.toNat = 102 ∧ 'F'.toNat = 70 := by decide
  unfold isHexDigit hexValue? at h
  split at h
  · rename_i hdigit
    simp only [Char.isDigit, Bool.and_eq_true, decide_eq_true_eq] at hdigit
    have hle : c.toNat ≤ '9'.toNat := hdigit.2
    omega
  · split at h
    · omega
    · split at h
      · omega
      · cases h

theorem digit_of_isHexDigit {c : Char} (h : isHexDigit c = true) :
    ∃ d, d < 16 ∧ hexValue? c = some d ∧ c.toUpper = hexDigit d :=
  forall_ascii (P := fun c => isHexDigit c = true →
    ∃ d, d < 16 ∧ hexValue? c = some d ∧ c.toUpper = hexDigit d)
    (by decide) c (toNat_of_isHexDigit h) h

theorem isWrittenDigit_toUpper {c : Char} (h : isHexDigit c = true) :
    IsWrittenDigit c.toUpper := by
  obtain ⟨d, hd, -, hupper⟩ := digit_of_isHexDigit h
  exact ⟨d, hd, hupper⟩

theorem ne_numberSign_of_isHexDigit {c : Char} (h : isHexDigit c = true) : c ≠ '#' := by
  rintro rfl
  revert h
  decide

namespace Hex

/-- A number sign and six or eight digits in upper case. -/
def IsNormal (s : String) : Prop :=
  ∃ ds, s.toList = '#' :: ds ∧ (ds.length = 6 ∨ ds.length = 8) ∧ ∀ c ∈ ds, IsWrittenDigit c

theorem IsNormal.isValid {s : String} (h : IsNormal s) : isValid s = true := by
  obtain ⟨ds, hs, hlength, hdigits⟩ := h
  have hall : ds.all isHexDigit = true :=
    List.all_eq_true.2 fun c hc => (hdigits c hc).isHexDigit
  unfold Hex.isValid
  rw [hs]
  rcases hlength with h | h <;> simp [h, hall]

theorem isNormal_ofList {ds : List Char} (hlength : ds.length = 6 ∨ ds.length = 8)
    (hdigits : ∀ c ∈ ds, IsWrittenDigit c) : IsNormal (String.ofList ('#' :: ds)) :=
  ⟨ds, String.toList_ofList, hlength, hdigits⟩

theorem byteCount_eq_length {ds : List Char} (h : ∀ c ∈ ds, IsWrittenDigit c) :
    byteCount ds = ds.length := by
  induction ds with
  | nil => rfl
  | cons c r ih =>
      have hr := ih fun d hd => h d (List.mem_cons_of_mem _ hd)
      change c.utf8Size + byteCount r = r.length + 1
      rw [hr, (h c (List.mem_cons_self ..)).utf8Size_eq, Nat.add_comm]

theorem length_double (s : List Char) : (double s).length = 2 * s.length := by
  induction s with
  | nil => rfl
  | cons c r ih =>
      change (double r).length + 2 = 2 * (r.length + 1)
      rw [ih]
      omega

theorem mem_double {c : Char} {ds : List Char} (h : c ∈ double ds) : c ∈ ds := by
  obtain ⟨d, hd, hc⟩ := List.mem_flatMap.1 h
  simp only [List.mem_cons, List.not_mem_nil, or_false, or_self] at hc
  exact hc ▸ hd

theorem exists_digits_of_isValid {s : String} (h : isValid s = true) :
    ∃ ds, s.toList = '#' :: ds ∧ (ds.length = 3 ∨ ds.length = 6 ∨ ds.length = 8) ∧
      ∀ c ∈ ds, isHexDigit c = true := by
  unfold isValid at h
  split at h
  · rename_i ds hs
    simp only [Bool.and_eq_true, Bool.or_eq_true, beq_iff_eq, List.all_eq_true, or_assoc] at h
    exact ⟨ds, hs, h.1, h.2⟩
  · cases h

theorem isWrittenDigit_of_mem_map_toUpper {ds : List Char} (h : ∀ c ∈ ds, isHexDigit c = true) :
    ∀ c ∈ ds.map Char.toUpper, IsWrittenDigit c := by
  intro c hc
  obtain ⟨d, hd, rfl⟩ := List.mem_map.1 hc
  exact isWrittenDigit_toUpper (h d hd)

theorem dropWhile_of_isHexDigit {ds : List Char} (h : ∀ c ∈ ds, isHexDigit c = true) :
    ds.dropWhile (· == '#') = ds := by
  cases ds with
  | nil => rfl
  | cons c r =>
      have hc := ne_numberSign_of_isHexDigit (h c (List.mem_cons_self ..))
      exact List.dropWhile_cons_of_neg (by simpa using hc)

theorem dropWhile_bare (s : List Char) :
    (bare s).dropWhile (· == '#') = s.dropWhile (· == '#') := by
  unfold bare
  split
  · exact (List.dropWhile_cons_of_pos (by rfl)).symm
  · rfl

/-- What normalizing makes of digits, with or without a number sign in front. -/
theorem normalize_of_bare {s : String} {ds : List Char} (hs : bare s.toList = ds)
    (h : ∀ c ∈ ds, isHexDigit c = true) :
    normalize s = String.ofList ('#' ::
      if ds.length = 3 then double (ds.map Char.toUpper) else ds.map Char.toUpper) := by
  have hdrop : s.toList.dropWhile (· == '#') = ds := by
    rw [← dropWhile_bare, hs, dropWhile_of_isHexDigit h]
  unfold normalize
  simp only [hdrop, byteCount_eq_length (isWrittenDigit_of_mem_map_toUpper h),
    List.length_map]

theorem normalize_of_digits {s : String} {ds : List Char} (hs : s.toList = '#' :: ds)
    (h : ∀ c ∈ ds, isHexDigit c = true) :
    normalize s = String.ofList ('#' ::
      if ds.length = 3 then double (ds.map Char.toUpper) else ds.map Char.toUpper) :=
  normalize_of_bare (congrArg bare hs) h

theorem isNormal_normalize {s : String} (h : isValid s = true) : IsNormal (normalize s) := by
  obtain ⟨ds, hs, hlength, hdigits⟩ := exists_digits_of_isValid h
  have hwritten := isWrittenDigit_of_mem_map_toUpper hdigits
  rw [normalize_of_digits hs hdigits]
  split
  · rename_i hthree
    refine isNormal_ofList (.inl ?_) fun c hc => hwritten c (mem_double hc)
    rw [length_double, List.length_map, hthree]
  · rename_i hthree
    refine isNormal_ofList ?_ hwritten
    rw [List.length_map]
    exact hlength.resolve_left hthree

theorem IsNormal.normalize_eq {s : String} (h : IsNormal s) : normalize s = s := by
  obtain ⟨ds, hs, hlength, hdigits⟩ := h
  have hupper : ds.map Char.toUpper = ds :=
    (List.map_congr_left fun c hc => (hdigits c hc).toUpper_eq).trans (List.map_id' ds)
  rw [normalize_of_digits hs fun c hc => (hdigits c hc).isHexDigit, if_neg (by omega), hupper, ← hs,
    String.ofList_toList]

end Hex

namespace Rgb

theorem isWrittenDigit_hexByte (b : UInt8) : ∀ c ∈ hexByte b, IsWrittenDigit c := by
  have hb := b.toNat_lt
  intro c hc
  simp only [hexByte, List.mem_cons, List.not_mem_nil, or_false] at hc
  rcases hc with rfl | rfl
  · exact isWrittenDigit_hexDigit (by omega)
  · exact isWrittenDigit_hexDigit (by omega)

theorem isWrittenDigit_digits (c : Rgb) : ∀ d ∈ c.digits, IsWrittenDigit d := by
  intro d hd
  simp only [digits, List.mem_append] at hd
  rcases hd with (hd | hd) | hd
  · exact isWrittenDigit_hexByte _ d hd
  · exact isWrittenDigit_hexByte _ d hd
  · exact isWrittenDigit_hexByte _ d hd

theorem isNormal_toHex (c : Rgb) : Hex.IsNormal c.toHex :=
  Hex.isNormal_ofList (.inl rfl) c.isWrittenDigit_digits

theorem isNormal_withAlpha (c : Rgb) (alpha : Float) : Hex.IsNormal (c.withAlpha alpha) := by
  refine Hex.isNormal_ofList (.inr rfl) fun d hd => ?_
  rcases List.mem_append.1 hd with hd | hd
  · exact isWrittenDigit_hexByte _ d hd
  · exact c.isWrittenDigit_digits d hd

end Rgb

end Swatchbook

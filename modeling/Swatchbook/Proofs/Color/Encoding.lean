import Mathlib.Data.List.Induction
import Mathlib.Tactic.Ring
import Swatchbook.Proofs.Color.Normal
import Swatchbook.Proofs.Source.Literal

/-! One encoding of colors behind all readers and writers of digits. The digits of a color
spell its bytes in base 16, so what is read, normalized or packed is known by the number
that the digits stand for. -/
namespace Swatchbook

open Text (hexValue?_hexDigit hexNumber_hexWord)

/-! ### Digits and numbers -/

theorem hexNumber_append_singleton (s : List Char) (c : Char) :
    hexNumber (s ++ [c]) = 16 * hexNumber s + (hexValue? c).getD 0 := by
  simp [hexNumber, List.foldl_append]

theorem hexNumber_append (s t : List Char) :
    hexNumber (s ++ t) = hexNumber s * 16 ^ t.length + hexNumber t := by
  induction t using List.reverseRecOn with
  | nil => simp [hexNumber]
  | append_singleton t c ih =>
      rw [← List.append_assoc, hexNumber_append_singleton, hexNumber_append_singleton, ih,
        List.length_append, List.length_singleton, pow_succ]
      ring

theorem hexNumber_lt {s : List Char} (h : ∀ c ∈ s, isHexDigit c = true) :
    hexNumber s < 16 ^ s.length := by
  induction s using List.reverseRecOn with
  | nil => simp [hexNumber]
  | append_singleton s c ih =>
      obtain ⟨d, hd, hvalue, -⟩ := digit_of_isHexDigit (h c (by simp))
      have hs := ih fun x hx => h x (List.mem_append_left _ hx)
      rw [hexNumber_append_singleton, hvalue, List.length_append, List.length_singleton, pow_succ,
        Option.getD_some]
      omega

theorem hexNumber_map_toUpper {s : List Char} (h : ∀ c ∈ s, isHexDigit c = true) :
    hexNumber (s.map Char.toUpper) = hexNumber s := by
  induction s using List.reverseRecOn with
  | nil => rfl
  | append_singleton s c ih =>
      obtain ⟨d, hd, hvalue, hupper⟩ := digit_of_isHexDigit (h c (by simp))
      have hs := ih fun x hx => h x (List.mem_append_left _ hx)
      rw [List.map_append, List.map_singleton, hexNumber_append_singleton,
        hexNumber_append_singleton, hs, hupper, hexValue?_hexDigit d hd, hvalue]

theorem eq_of_hexNumber_eq {s t : List Char} (hs : ∀ c ∈ s, IsWrittenDigit c)
    (ht : ∀ c ∈ t, IsWrittenDigit c) (hlength : s.length = t.length)
    (h : hexNumber s = hexNumber t) : s = t := by
  induction s using List.reverseRecOn generalizing t with
  | nil => exact (List.length_eq_zero_iff.1 hlength.symm).symm
  | append_singleton s c ih =>
      rcases List.eq_nil_or_concat t with rfl | ⟨t, d, rfl⟩
      · simp at hlength
      · obtain ⟨x, hx, rfl⟩ := hs c (by simp)
        obtain ⟨y, hy, rfl⟩ := ht d (by simp)
        rw [List.concat_eq_append] at *
        rw [hexNumber_append_singleton, hexNumber_append_singleton, hexValue?_hexDigit x hx,
          hexValue?_hexDigit y hy, Option.getD_some, Option.getD_some] at h
        have hlast : x = y := by omega
        have hfront : hexNumber s = hexNumber t := by omega
        have hrest := ih (fun e he => hs e (List.mem_append_left _ he))
          (fun e he => ht e (List.mem_append_left _ he)) (by simpa using hlength) hfront
        rw [hrest, hlast]

theorem hexNumber_hexByte (b : UInt8) : hexNumber (hexByte b) = b.toNat := by
  have hb := b.toNat_lt
  have hhigh := hexValue?_hexDigit (b.toNat / 16) (by omega)
  have hlow := hexValue?_hexDigit (b.toNat % 16) (by omega)
  simp only [hexByte, hexNumber, List.foldl_cons, List.foldl_nil, hhigh, hlow, Option.getD_some]
  omega

theorem hexByte_ofNat {a b : Char} (ha : isHexDigit a = true) (hb : isHexDigit b = true) :
    hexByte (.ofNat (hexNumber [a, b])) = [a.toUpper, b.toUpper] := by
  have hdigits : ∀ c ∈ [a, b], isHexDigit c = true := by simp [ha, hb]
  have hsmall : hexNumber [a, b] < 256 := hexNumber_lt hdigits
  apply eq_of_hexNumber_eq (Rgb.isWrittenDigit_hexByte _) (Hex.isWrittenDigit_of_mem_map_toUpper hdigits)
  · rfl
  · rw [hexNumber_hexByte, hexNumber_map_toUpper hdigits, UInt8.toNat_ofNat_of_lt' hsmall]

theorem isWrittenDigit_hexWord (n : UInt32) : ∀ c ∈ hexWord n, IsWrittenDigit c := by
  intro c hc
  obtain ⟨shift, -, rfl⟩ := List.mem_map.1 hc
  exact isWrittenDigit_hexDigit (Nat.mod_lt _ (by decide))

namespace Rgb

theorem hexNumber_digits (c : Rgb) :
    hexNumber c.digits = c.red.toNat * 65536 + c.green.toNat * 256 + c.blue.toNat := by
  rw [digits, hexNumber_append, hexNumber_append, hexNumber_hexByte, hexNumber_hexByte,
    hexNumber_hexByte]
  change (c.red.toNat * 256 + c.green.toNat) * 256 + c.blue.toNat = _
  omega

theorem eq_of_digits_eq {c d : Rgb} (h : c.digits = d.digits) : c = d := by
  have hnumber := congrArg hexNumber h
  rw [hexNumber_digits, hexNumber_digits] at hnumber
  have hgreen := c.green.toNat_lt
  have hblue := c.blue.toNat_lt
  have hgreen' := d.green.toNat_lt
  have hblue' := d.blue.toNat_lt
  obtain ⟨r, g, b⟩ := c
  obtain ⟨r', g', b'⟩ := d
  dsimp only at *
  rw [mk.injEq, ← UInt8.toNat_inj, ← UInt8.toNat_inj, ← UInt8.toNat_inj]
  omega

end Rgb

namespace Hex

/-! ### Reading -/

def spellOut (ds : List Char) : List Char :=
  if ds.length = 3 then double ds else ds

theorem isValid_ofList_iff {ds : List Char} : isValid (String.ofList ('#' :: ds)) = true ↔
    (ds.length = 3 ∨ ds.length = 6 ∨ ds.length = 8) ∧ ∀ c ∈ ds, isHexDigit c = true := by
  simp [isValid, or_assoc]

theorem mem_spellOut {c : Char} {ds : List Char} (h : c ∈ spellOut ds) : c ∈ ds := by
  unfold spellOut at h
  split at h
  · exact mem_double h
  · exact h

theorem length_spellOut_iff {ds : List Char} :
    (spellOut ds).length = 6 ↔ ds.length = 3 ∨ ds.length = 6 := by
  unfold spellOut
  split
  · rw [length_double]
    omega
  · omega

theorem digits_of_read {s : String} {c : Rgb} (h : read s = .ok c) :
    (∀ x ∈ bare s.toList, isHexDigit x = true) ∧
      c.digits = (spellOut (bare s.toList)).map Char.toUpper := by
  unfold read at h
  dsimp only at h
  split at h
  · cases h
  · rename_i hall
    rw [Bool.not_eq_true', Bool.not_eq_false, List.all_eq_true] at hall
    refine ⟨hall, ?_⟩
    split at h
    · rename_i r₁ r₂ g₁ g₂ b₁ b₂ hsix
      change spellOut (bare s.toList) = _ at hsix
      have hdigit : ∀ x ∈ [r₁, r₂, g₁, g₂, b₁, b₂], isHexDigit x = true :=
        fun x hx => hall x (mem_spellOut (hsix ▸ hx))
      simp only [List.forall_mem_cons] at hdigit
      obtain ⟨hr₁, hr₂, hg₁, hg₂, hb₁, hb₂, -⟩ := hdigit
      cases h
      rw [Rgb.digits, hexByte_ofNat hr₁ hr₂, hexByte_ofNat hg₁ hg₂, hexByte_ofNat hb₁ hb₂, hsix]
      rfl
    · cases h

theorem exists_read_iff {s : String} : (∃ c, read s = .ok c) ↔
    ((bare s.toList).length = 3 ∨ (bare s.toList).length = 6) ∧
      ∀ x ∈ bare s.toList, isHexDigit x = true := by
  rw [← length_spellOut_iff]
  constructor
  · rintro ⟨c, h⟩
    obtain ⟨hall, hdigits⟩ := digits_of_read h
    refine ⟨?_, hall⟩
    rw [← List.length_map (f := Char.toUpper), ← hdigits]
    rfl
  · rintro ⟨hlength, hall⟩
    obtain ⟨_, _, _, _, _, _, hsix⟩ : ∃ r₁ r₂ g₁ g₂ b₁ b₂,
        spellOut (bare s.toList) = [r₁, r₂, g₁, g₂, b₁, b₂] :=
      match spellOut (bare s.toList), hlength with
      | [r₁, r₂, g₁, g₂, b₁, b₂], _ => ⟨r₁, r₂, g₁, g₂, b₁, b₂, rfl⟩
    unfold spellOut at hsix
    unfold read
    simp only [List.all_eq_true.2 hall, hsix, Bool.not_true, Bool.false_eq_true, if_false]
    exact ⟨_, rfl⟩

theorem isValid_of_read {s : String} {c : Rgb} (h : read s = .ok c)
    (hsign : s.toList.head? = some '#') : isValid s = true := by
  obtain ⟨hlength, hdigits⟩ := exists_read_iff.1 ⟨c, h⟩
  obtain ⟨r, hs⟩ := List.head?_eq_some_iff.1 hsign
  rw [hs] at hlength hdigits
  rw [← String.ofList_toList (s := s), hs, isValid_ofList_iff]
  exact ⟨hlength.imp_right .inl, hdigits⟩

/-! ### Normal forms and words -/

theorem map_spellOut (f : Char → Char) (ds : List Char) :
    (spellOut ds).map f = if ds.length = 3 then double (ds.map f) else ds.map f := by
  unfold spellOut
  split
  · simp [double, List.map_flatMap, List.flatMap_map]
  · rfl

theorem normalize_of_read {s : String} {c : Rgb} (h : read s = .ok c) : normalize s = c.toHex := by
  obtain ⟨hall, hdigits⟩ := digits_of_read h
  rw [normalize_of_bare rfl hall, ← map_spellOut, ← hdigits, Rgb.toHex]

theorem bare_toHex (c : Rgb) : bare c.toHex.toList = c.digits := by
  rw [Rgb.toHex, String.toList_ofList]
  rfl

theorem read_toHex (c : Rgb) : read c.toHex = .ok c := by
  have hwritten := c.isWrittenDigit_digits
  obtain ⟨d, hd⟩ : ∃ d, read c.toHex = .ok d := by
    rw [exists_read_iff, bare_toHex]
    exact ⟨.inr rfl, fun x hx => (hwritten x hx).isHexDigit⟩
  obtain ⟨-, hdigits⟩ := digits_of_read hd
  have hupper : c.digits.map Char.toUpper = c.digits :=
    (List.map_congr_left fun x hx => (hwritten x hx).toUpper_eq).trans (List.map_id' _)
  have hsix : ¬c.digits.length = 3 := (by decide : ¬(6 : Nat) = 3)
  rw [bare_toHex, spellOut, if_neg hsix, hupper] at hdigits
  rw [hd, Rgb.eq_of_digits_eq hdigits]

theorem pack_normalize {s : String} (h : isValid s = true) : pack (normalize s) = pack s := by
  have hnormal := isNormal_normalize h
  rw [pack, pack, if_pos h, if_pos hnormal.isValid, hnormal.normalize_eq]

theorem exists_pack_iff {s : String} : (∃ n, pack s = .ok n) ↔ isValid s = true := by
  unfold pack
  split
  · rename_i h
    exact iff_of_true ⟨_, rfl⟩ h
  · rename_i h
    exact iff_of_false nofun h

/-- The number in the word of a color is spelled by its normal form, behind two digits of full
opacity where it has none of its own. -/
theorem toNat_of_pack {s : String} {n : UInt32} {ds : List Char} (h : pack s = .ok n)
    (hs : (normalize s).toList = '#' :: ds) :
    n.toNat = (if ds.length = 6 then 0xFF000000 else 0) + hexNumber ds := by
  have hvalid := exists_pack_iff.1 ⟨n, h⟩
  obtain ⟨ds', hs', hlength, hwritten⟩ := isNormal_normalize hvalid
  obtain rfl : ds = ds' := (List.cons.inj (hs.symm.trans hs')).2
  have hsmall := hexNumber_lt fun c hc => (hwritten c hc).isHexDigit
  unfold pack at h
  simp only [hvalid, if_true, hs, List.tail_cons, Except.ok.injEq] at h
  subst h
  split
  · rename_i hsix
    have hopacity : hexNumber ('F' :: 'F' :: ds) = 0xFF000000 + hexNumber ds := by
      have := hexNumber_append ['F', 'F'] ds
      rw [hsix] at this
      exact this
    rw [hsix] at hsmall
    rw [hopacity, UInt32.toNat_ofNat_of_lt']
    exact Nat.add_lt_add_left hsmall 0xFF000000
  · rename_i hsix
    rw [hlength.resolve_left hsix] at hsmall
    rw [UInt32.toNat_ofNat_of_lt' hsmall, Nat.zero_add]

theorem pack_toHex (c : Rgb) : ∃ n, pack c.toHex = .ok n ∧
    n.toNat = 0xFF000000 + c.red.toNat * 65536 + c.green.toNat * 256 + c.blue.toNat := by
  obtain ⟨n, hn⟩ := exists_pack_iff.2 c.isNormal_toHex.isValid
  have hdigits : (normalize c.toHex).toList = '#' :: c.digits := by
    rw [c.isNormal_toHex.normalize_eq, Rgb.toHex, String.toList_ofList]
  have hnumber := toNat_of_pack hn hdigits
  have hsix : c.digits.length = 6 := rfl
  rw [if_pos hsix, c.hexNumber_digits] at hnumber
  refine ⟨n, hn, ?_⟩
  omega

theorem hexWord_of_pack {s : String} {n : UInt32} (h : pack s = .ok n)
    (hlength : s.toList.length = 9) : String.ofList ('#' :: hexWord n) = normalize s := by
  obtain ⟨ds, hs, -, hdigits⟩ := exists_digits_of_isValid (exists_pack_iff.1 ⟨n, h⟩)
  have height : ds.length = 8 := by
    rw [hs, List.length_cons] at hlength
    omega
  have hwritten := isWrittenDigit_of_mem_map_toUpper hdigits
  have hnormal : normalize s = String.ofList ('#' :: ds.map Char.toUpper) := by
    rw [normalize_of_digits hs hdigits, if_neg (by omega)]
  have hnumber := toNat_of_pack h (by rw [hnormal, String.toList_ofList])
  rw [List.length_map, if_neg (by omega), Nat.zero_add] at hnumber
  have hword : hexWord n = ds.map Char.toUpper := by
    apply eq_of_hexNumber_eq (isWrittenDigit_hexWord n) hwritten
    · rw [List.length_map, height]
      rfl
    · rw [hexNumber_hexWord, hnumber]
  rw [hnormal, hword]

/-- The readers and writers agree on one encoding. What can be packed is what is valid, and what
can be read is what is valid with a number sign and without opacity. A color that is read has
the normal form and the word of its bytes; eight digits are those of their word. -/
theorem one_encoding (s : String) :
    ((∃ n, pack s = .ok n) ↔ isValid s = true) ∧
      ((∃ c, read s = .ok c) ↔
        isValid (String.ofList ('#' :: bare s.toList)) = true ∧ (bare s.toList).length ≠ 8) ∧
      (∀ c, read s = .ok c → normalize s = c.toHex ∧ read c.toHex = .ok c ∧
        ∃ n, pack c.toHex = .ok n ∧
          n.toNat = 0xFF000000 + c.red.toNat * 65536 + c.green.toNat * 256 + c.blue.toNat ∧
          (s.toList.head? = some '#' → pack s = .ok n)) ∧
      (isValid s = true → s.toList.length = 9 →
        ∃ n, pack s = .ok n ∧ String.ofList ('#' :: hexWord n) = normalize s) := by
  refine ⟨exists_pack_iff, ?_, ?_, ?_⟩
  · rw [exists_read_iff, isValid_ofList_iff]
    constructor
    · rintro ⟨hlength, hdigits⟩
      exact ⟨⟨by omega, hdigits⟩, by omega⟩
    · rintro ⟨⟨hlength, hdigits⟩, height⟩
      exact ⟨by omega, hdigits⟩
  · intro c hc
    obtain ⟨n, hn, hnumber⟩ := pack_toHex c
    refine ⟨normalize_of_read hc, read_toHex c, n, hn, hnumber, fun hsign => ?_⟩
    rw [← pack_normalize (isValid_of_read hc hsign), normalize_of_read hc, hn]
  · intro hvalid hlength
    obtain ⟨n, hn⟩ := exists_pack_iff.2 hvalid
    exact ⟨n, hn, hexWord_of_pack hn hlength⟩

theorem shortAndVeiled_encoded :
    (read "#f0A" = .ok ⟨255, 0, 170⟩ ∧ "#f0A".toList.head? = some '#' ∧
      normalize "#f0A" = Rgb.toHex ⟨255, 0, 170⟩ ∧ ∃ n, pack "#f0A" = .ok n ∧ n.toNat = 0xFFFF00AA) ∧
    isValid "#80ff5722" = true ∧ "#80ff5722".toList.length = 9 ∧
      ∃ n, pack "#80ff5722" = .ok n ∧ String.ofList ('#' :: hexWord n) = normalize "#80ff5722" := by
  have hread : read "#f0A" = .ok ⟨255, 0, 170⟩ := by decide +kernel
  have hsign : "#f0A".toList.head? = some '#' := by decide
  have hvalid : isValid "#80ff5722" = true := by decide
  have hlength : "#80ff5722".toList.length = 9 := by decide
  obtain ⟨-, -, hshort, -⟩ := one_encoding "#f0A"
  obtain ⟨-, -, -, hveiled⟩ := one_encoding "#80ff5722"
  obtain ⟨hnormal, -, n, -, hnumber, hpack⟩ := hshort _ hread
  exact ⟨⟨hread, hsign, hnormal, n, hpack hsign, hnumber⟩, hvalid, hlength, hveiled hvalid hlength⟩

end Hex

end Swatchbook

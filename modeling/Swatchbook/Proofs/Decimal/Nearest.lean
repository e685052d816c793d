import Swatchbook.Decimal
import Swatchbook.Proofs.Decimal.Binary

/-! The nearest binary number to a decimal. It is a number and not an infinity exactly when
the decimal lies below the limit of the format. -/
namespace Swatchbook

namespace Binary64

open Float.Model Float.Model.UnpackedFloat

/-- The least number that is too large for the format: half a unit above the largest number
in it. -/
@[irreducible] def limit : Nat :=
  2 ^ 1024 - 2 ^ 970

theorem limit_eq : limit = (2 ^ 54 - 1) * 2 ^ 970 := by
  unfold limit
  decide +kernel

theorem within_iff_limit {e : Int} {k : Nat} (he : e = -k) (s : Sign) (m : Nat) (a : Accuracy) :
    Within 971 (roundWithAccuracy Format.binary64 s m e a) ↔ m < limit * 2 ^ k := by
  subst he
  have hexponent : (971 - 1 - (-(k : Int))).toNat = 970 + k := by omega
  have hscaled : ∀ c a b : Nat, c * 2 ^ (a + b) = c * 2 ^ a * 2 ^ b :=
    fun c a b => by rw [Nat.pow_add, Nat.mul_assoc]
  rw [within_iff (by decide) (by omega), hexponent, hscaled _ 970 k, ← limit_eq]

/-! ### Powers of ten -/

theorem powers_of_ten : ∀ k (h : k < Float.exactlyRepresentablePowersOfTen.size),
    AtLeastOne Float.exactlyRepresentablePowersOfTen[k].toModel.unpack ∧
      Within 22 Float.exactlyRepresentablePowersOfTen[k].toModel.unpack := by
  decide +kernel

theorem isFinite_scientific_small {m k : Nat} (hm : m < 2 ^ 53) (hk : k ≤ 22) (negative : Bool) :
    (Float.ofScientific m negative k).isFinite = true := by
  have hsize : k < Float.exactlyRepresentablePowersOfTen.size := Nat.lt_succ_iff.2 hk
  rw [Float.ofScientific, dif_pos ⟨hm, hk⟩]
  cases negative with
  | true => exact isFinite_div (isFinite_toFloat _) (powers_of_ten k hsize).1
  | false => exact isFinite_mul_of_within (within_toFloat _) (powers_of_ten k hsize).2

/-! ### Large and small decimals -/

theorem within_mul_ten_pow (m k : Nat) (hm : 0 < m <<< Format.binary64.mantissaBits)
    (hten : 0 < 10 ^ k) : Within 971 (mul Format.binary64
      (.finite .positive (m <<< Format.binary64.mantissaBits) (-Format.binary64.mantissaBits) hm)
      (.finite .positive (10 ^ k) 0 hten)) ↔ m * 10 ^ k < limit := by
  refine (within_iff_limit (Int.add_zero _) _ _ _).trans ?_
  rw [Nat.shiftLeft_eq, Nat.mul_right_comm]
  exact Nat.mul_lt_mul_right (Nat.two_pow_pos _)

theorem within_div_ten_pow (m k : Nat) (hm : 0 < m) (hten : 0 < 10 ^ k) :
    Within 971 (div Format.binary64 (.finite .positive m 0 hm) (.finite .positive (10 ^ k) 0 hten)) ↔
      m < limit * 10 ^ k := by
  have hcore : ∀ (target : Int) (a : Accuracy), target ≤ 0 →
      (Within 971 (roundWithAccuracy Format.binary64 (.positive / .positive)
        ((m <<< (0 - 0 - target).toNat) / 10 ^ k) target a) ↔ m < limit * 10 ^ k) := by
    intro target a htarget
    have hshift : (0 - 0 - target).toNat = (-target).toNat := by omega
    rw [within_iff_limit (k := (-target).toNat) (by omega), hshift, Nat.div_lt_iff_lt_mul hten,
      Nat.shiftLeft_eq, Nat.mul_right_comm]
    exact Nat.mul_lt_mul_right (Nat.two_pow_pos _)
  exact hcore _ _ (Int.min_le_left _ _)

theorem limit_le {k : Nat} (h : 1024 ≤ k) : limit ≤ 2 ^ k := by
  have hpow : ∀ j ≤ k, 2 ^ j ≤ 2 ^ k := fun j hj => Nat.pow_le_pow_right Nat.two_pos hj
  unfold limit
  exact Nat.le_trans (Nat.sub_le ..) (hpow 1024 h)

theorem le_limit : 2 ^ 53 * 10 ^ 22 ≤ limit := by
  unfold limit
  decide +kernel

theorem limit_pos : 0 < limit :=
  Nat.lt_of_lt_of_le (by decide) le_limit

section Scientific

variable {m : Nat} {e : Int} (hm : 0 < m)

include hm

theorem ofScientific_of_large (he : 2 ^ 11 < e) :
    UnpackedFloat.ofScientific Format.binary64 m e = .infinity .positive :=
  (dif_neg (Nat.ne_of_gt hm)).trans (if_pos he)

theorem ofScientific_of_small (he : e < -(2 ^ 11 + m.log2)) :
    UnpackedFloat.ofScientific Format.binary64 m e = .zero .positive := by
  have hlarge : ¬2 ^ 11 < e := by omega
  exact (dif_neg (Nat.ne_of_gt hm)).trans ((if_neg hlarge).trans (if_pos he))

theorem ofScientific_of_nonneg (he : e ≤ 2 ^ 11) (hnonneg : 0 ≤ e)
    (hshift : 0 < m <<< Format.binary64.mantissaBits) (hten : 0 < 10 ^ e.toNat) :
    UnpackedFloat.ofScientific Format.binary64 m e = mul Format.binary64
      (.finite .positive (m <<< Format.binary64.mantissaBits) (-Format.binary64.mantissaBits) hshift)
      (.finite .positive (10 ^ e.toNat) 0 hten) := by
  have hlarge : ¬2 ^ 11 < e := by omega
  have hsmall : ¬e < -(2 ^ 11 + m.log2) := by omega
  exact (dif_neg (Nat.ne_of_gt hm)).trans
    ((if_neg hlarge).trans ((if_neg hsmall).trans (if_pos hnonneg)))

theorem ofScientific_of_neg (he : -(2 ^ 11 + m.log2) ≤ e) (hneg : e < 0) (hten : 0 < 10 ^ (-e).toNat) :
    UnpackedFloat.ofScientific Format.binary64 m e = div Format.binary64
      (.finite .positive m 0 hm) (.finite .positive (10 ^ (-e).toNat) 0 hten) := by
  have hlarge : ¬2 ^ 11 < e := by omega
  have hsmall : ¬e < -(2 ^ 11 + m.log2) := by omega
  exact (dif_neg (Nat.ne_of_gt hm)).trans
    ((if_neg hlarge).trans ((if_neg hsmall).trans (if_neg (Int.not_le.2 hneg))))

end Scientific

theorem within_ofScientific_iff (m : Nat) (e : Int) :
    Within 971 (UnpackedFloat.ofScientific Format.binary64 m e) ↔
      m * 10 ^ e.toNat < limit * 10 ^ (-e).toNat := by
  have hlimit := limit_pos
  have hten : ∀ k, 0 < 10 ^ k := fun k => Nat.pow_pos (by decide)
  rcases Nat.eq_zero_or_pos m with rfl | hm
  · rw [Nat.zero_mul]
    exact iff_of_true trivial (Nat.mul_pos hlimit (hten _))
  · by_cases hlarge : 2 ^ 11 < e
    · rw [ofScientific_of_large hm hlarge]
      refine iff_of_false id (Nat.not_lt.2 ?_)
      have hzero : (-e).toNat = 0 := by omega
      rw [hzero, Nat.pow_zero, Nat.mul_one]
      calc limit ≤ 2 ^ e.toNat := limit_le (by omega)
        _ ≤ 10 ^ e.toNat := Nat.pow_le_pow_left (by decide) _
        _ ≤ m * 10 ^ e.toNat := Nat.le_mul_of_pos_left _ hm
    · by_cases hsmall : e < -(2 ^ 11 + m.log2)
      · rw [ofScientific_of_small hm hsmall]
        refine iff_of_true trivial ?_
        have hzero : e.toNat = 0 := by omega
        rw [hzero, Nat.pow_zero, Nat.mul_one]
        calc m < 2 ^ (m.log2 + 1) := Nat.lt_log2_self
          _ ≤ 2 ^ (-e).toNat := Nat.pow_le_pow_right (by decide) (by omega)
          _ ≤ 10 ^ (-e).toNat := Nat.pow_le_pow_left (by decide) _
          _ ≤ limit * 10 ^ (-e).toNat := Nat.le_mul_of_pos_left _ hlimit
      · by_cases hnonneg : 0 ≤ e
        · have hzero : (-e).toNat = 0 := by omega
          rw [hzero, Nat.pow_zero, Nat.mul_one, ofScientific_of_nonneg hm (by omega) hnonneg
            (Nat.shiftLeft_eq .. ▸ Nat.mul_pos hm (Nat.two_pow_pos _)) (hten _)]
          exact within_mul_ten_pow m e.toNat _ _
        · have hzero : e.toNat = 0 := by omega
          rw [hzero, Nat.pow_zero, Nat.mul_one, ofScientific_of_neg hm (by omega) (by omega) (hten _)]
          exact within_div_ten_pow m (-e).toNat hm _

theorem isFinite_scientific_iff (m k : Nat) (negative : Bool) :
    (Float.ofScientific m negative k).isFinite = true ↔
      if negative then m < limit * 10 ^ k else m * 10 ^ k < limit := by
  have hlimit : 2 ^ 53 * 10 ^ 22 ≤ limit := le_limit
  by_cases h : m < 2 ^ 53 ∧ k ≤ 22
  · refine iff_of_true (isFinite_scientific_small h.1 h.2 negative) ?_
    have hten : 0 < 10 ^ k := Nat.pow_pos (by decide)
    cases negative with
    | true =>
        calc m < 2 ^ 53 * 10 ^ 22 := by omega
          _ ≤ limit * 10 ^ k := Nat.le_trans hlimit (Nat.le_mul_of_pos_right _ hten)
    | false =>
        calc m * 10 ^ k < 2 ^ 53 * 10 ^ k := Nat.mul_lt_mul_of_pos_right h.1 hten
          _ ≤ 2 ^ 53 * 10 ^ 22 := Nat.mul_le_mul_left _ (Nat.pow_le_pow_right (by decide) h.2)
          _ ≤ limit := hlimit
  · rw [Float.ofScientific, dif_neg h]
    refine (isFinite_pack_iff _).trans ((within_ofScientific_iff m _).trans ?_)
    cases negative with
    | true =>
        have hneg : Int.negOfNat k = -k := Int.negOfNat_eq
        simp [hneg]
    | false => simp

theorem atLeastOne_ten_pow {k : Nat} (h : 10 ^ k < limit) :
    AtLeastOne (Float.ofScientific 1 false k).toModel.unpack := by
  have hexact : ∀ k ≤ 22, AtLeastOne (Float.ofScientific 1 false k).toModel.unpack := by
    decide +kernel
  by_cases hk : k ≤ 22
  · exact hexact k hk
  · have hten : 0 < 10 ^ k := Nat.pow_pos (by decide)
    have hone : 0 < 1 <<< Format.binary64.mantissaBits := by decide
    have hsmall : k ≤ 2 ^ 11 := by
      by_contra hlarge
      have hle : limit ≤ 10 ^ k :=
        Nat.le_trans (limit_le (by omega)) (Nat.pow_le_pow_left (by decide) k)
      omega
    have hlog : 53 ≤ (1 <<< Format.binary64.mantissaBits * 10 ^ k).log2 :=
      (Nat.le_log2 (Nat.ne_of_gt (Nat.mul_pos hone hten))).2 (Nat.le_mul_of_pos_right _ hten)
    rw [Float.ofScientific, dif_neg fun hsmall => hk hsmall.2]
    change AtLeastOne (Float.Model.pack (UnpackedFloat.ofScientific Format.binary64 1 k)).unpack
    have hwithin := (within_mul_ten_pow 1 k hone hten).2 (by omega)
    rw [ofScientific_of_nonneg Nat.one_pos (by omega : (k : Int) ≤ 2 ^ 11) (Int.natCast_nonneg k)
      hone hten]
    refine atLeastOne_round (Nat.le_trans (by decide) hlog) ?_ hwithin
    change 0 ≤ ((1 <<< Format.binary64.mantissaBits * 10 ^ k).log2 : Int) + (-53 + 0)
    omega

end Binary64

namespace Decimal

open Binary64

theorem pow_width_le {m : Nat} (hm : m ≠ 0) : 10 ^ (width m - 1) ≤ m := by
  by_contra h
  rw [Nat.not_le] at h
  rcases Nat.eq_zero_or_pos (width m - 1) with hone | hmore
  · rw [hone, Nat.pow_zero, Nat.lt_one_iff] at h
    exact hm h
  · have hle : width m ≤ width m - 1 := (Nat.length_toDigits_le_iff (by decide) hmore).2 h
    omega

theorem lt_pow_width (m : Nat) : m < 10 ^ width m :=
  (Nat.length_toDigits_le_iff (by decide) Nat.length_toDigits_pos).1 (Nat.le_refl _)

theorem limit_le_ten_pow {k : Nat} (h : 400 ≤ k) : limit ≤ 10 ^ k :=
  calc limit ≤ 2 ^ (3 * k) := limit_le (by omega)
    _ = (2 ^ 3) ^ k := Nat.pow_mul ..
    _ ≤ 10 ^ k := Nat.pow_le_pow_left (by decide) k

/-- The nearest number is one of the format exactly when the decimal lies below the limit. -/
theorem isFinite_nearest_iff (m : Nat) (e : Int) :
    (nearest m e).isFinite = true ↔ m * 10 ^ e.toNat < limit * 10 ^ (-e).toNat := by
  have hten : ∀ k, 0 < 10 ^ k := fun k => Nat.pow_pos (by decide)
  unfold nearest
  split
  · rename_i hm
    rw [hm, Nat.zero_mul]
    exact iff_of_true (by decide +kernel) (Nat.mul_pos limit_pos (hten _))
  · rename_i hm
    split
    · rename_i hlarge
      refine iff_of_false (by decide +kernel) (Nat.not_lt.2 ?_)
      obtain ⟨k, hk⟩ : ∃ k, k + (-e).toNat = width m - 1 + e.toNat :=
        ⟨width m - 1 + e.toNat - (-e).toNat, by omega⟩
      calc limit * 10 ^ (-e).toNat ≤ 10 ^ k * 10 ^ (-e).toNat :=
            Nat.mul_le_mul_right _ (limit_le_ten_pow (by omega))
        _ = 10 ^ (width m - 1 + e.toNat) := by rw [← Nat.pow_add, hk]
        _ = 10 ^ (width m - 1) * 10 ^ e.toNat := Nat.pow_add ..
        _ ≤ m * 10 ^ e.toNat := Nat.mul_le_mul_right _ (pow_width_le hm)
    · split
      · rename_i hsmall
        refine iff_of_true (by decide +kernel) ?_
        calc m * 10 ^ e.toNat < 10 ^ width m * 10 ^ e.toNat :=
              Nat.mul_lt_mul_of_pos_right (lt_pow_width m) (hten _)
          _ = 10 ^ (width m + e.toNat) := (Nat.pow_add ..).symm
          _ ≤ 10 ^ (-e).toNat := Nat.pow_le_pow_right (by decide) (by omega)
          _ ≤ limit * 10 ^ (-e).toNat := Nat.le_mul_of_pos_left _ limit_pos
      · split
        · rename_i hneg
          have hzero : e.toNat = 0 := by omega
          have habs : (-e).toNat = e.natAbs := by omega
          rw [isFinite_scientific_iff, if_pos rfl, hzero, habs, Nat.pow_zero, Nat.mul_one]
        · rename_i hneg
          have hzero : (-e).toNat = 0 := by omega
          have habs : e.toNat = e.natAbs := by omega
          rw [isFinite_scientific_iff, if_neg Bool.false_ne_true, hzero, habs, Nat.pow_zero,
            Nat.mul_one]

end Decimal

end Swatchbook

import Mathlib.Tactic.Ring

/-! Rounding to the binary format. What a number is rounded to has an exponent within a bound
exactly when the number lies below a threshold, half a unit under the next power of two; how
the bits that are cut off compare with that half does not count. -/
namespace Swatchbook.Binary64

open Float.Model Float.Model.UnpackedFloat

/-- Zero, or a number with an exponent up to a bound. -/
def Within (bound : Int) : UnpackedFloat → Prop
  | .zero _ => True
  | .finite _ _ e _ => e ≤ bound
  | .infinity _ | .notANumber => False

theorem within_finite {bound : Int} {s : Sign} {m : Nat} {e : Int} {hm : 0 < m} :
    Within bound (.finite s m e hm) ↔ e ≤ bound :=
  Iff.rfl

theorem mantissa_shiftRight (em : ExtendedMantissa) (k : Nat) :
    (em >>> k).mantissa = em.mantissa / 2 ^ k := by
  induction k with
  | zero => simp [HShiftRight.hShiftRight, Nat.repeat]
  | succ k ih =>
      change (em >>> k).mantissa / 2 = _
      rw [ih, Nat.div_div_eq_div_mul, Nat.pow_succ]

theorem roundBit_shiftRight (em : ExtendedMantissa) (k : Nat) :
    (em >>> (k + 1)).roundBit = (em.mantissa / 2 ^ k % 2 != 0) := by
  change ((em >>> k).mantissa % 2 != 0) = _
  rw [mantissa_shiftRight]

theorem mantissa_ofMantissaAndAccuracy (m : Nat) (a : Accuracy) :
    (ExtendedMantissa.ofMantissaAndAccuracy m a).mantissa = m := by
  cases a with
  | exact => rfl
  | inexact o => cases o <;> rfl

theorem roundedMantissa_bounds (em : ExtendedMantissa) :
    em.mantissa ≤ em.roundedMantissa ∧ em.roundedMantissa ≤ em.mantissa + 1 := by
  rcases em with ⟨m, r, s⟩
  cases r <;> cases s <;>
    simp [ExtendedMantissa.roundedMantissa, ExtendedMantissa.accuracy, Accuracy.roundToNearestEven]
  omega

theorem roundedMantissa_of_not_roundBit {em : ExtendedMantissa} (h : em.roundBit = false) :
    em.roundedMantissa = em.mantissa := by
  rcases em with ⟨m, r, s⟩
  cases h
  cases s <;> rfl

theorem roundedMantissa_of_roundBit {em : ExtendedMantissa} (h : em.roundBit = true)
    (hodd : em.mantissa % 2 = 1) : em.roundedMantissa = em.mantissa + 1 := by
  rcases em with ⟨m, r, s⟩
  cases h
  cases s
  · exact congrArg (m + ·) hodd
  · rfl

theorem targetExponent_eq (t : Int) :
    Format.binary64.targetExponent t = max (t - 53) (-1074) := by
  rfl

/-- How many of its last bits a number loses that is brought to the format. -/
def excess (m : Nat) (e : Int) : Nat :=
  (max ((m.log2 : Int) + 1 + e - 53) (-1074) - e).toNat

theorem div_excess_lt (m : Nat) (e : Int) : m / 2 ^ excess m e < 2 ^ 53 := by
  rw [Nat.div_lt_iff_lt_mul (Nat.two_pow_pos _), ← Nat.pow_add]
  refine Nat.lt_of_lt_of_le Nat.lt_log2_self (Nat.pow_le_pow_right (by decide) ?_)
  unfold excess
  omega

/-- The mantissa of a number that is brought to the format, rounded to its last bit. -/
def rounded (m : Nat) (e : Int) (a : Accuracy) : Nat :=
  (ExtendedMantissa.ofMantissaAndAccuracy m a >>> excess m e).roundedMantissa

theorem rounded_bounds (m : Nat) (e : Int) (a : Accuracy) :
    m / 2 ^ excess m e ≤ rounded m e a ∧ rounded m e a ≤ m / 2 ^ excess m e + 1 := by
  have h := roundedMantissa_bounds (ExtendedMantissa.ofMantissaAndAccuracy m a >>> excess m e)
  rwa [mantissa_shiftRight, mantissa_ofMantissaAndAccuracy] at h

theorem rounded_le (m : Nat) (e : Int) (a : Accuracy) : rounded m e a ≤ 2 ^ 53 := by
  have h := rounded_bounds m e a
  have hlt := div_excess_lt m e
  omega

/-- Rounding twice does: a number loses its excess, and once more the bit that the first
rounding may have added. -/
theorem roundWithAccuracy_eq (s : Sign) (m : Nat) (e : Int) (a : Accuracy) :
    roundWithAccuracy Format.binary64 s m e a =
      if h : rounded m e a / 2 ^ excess (rounded m e a) (e + excess m e) = 0 then .zero s
      else .finite s (rounded m e a / 2 ^ excess (rounded m e a) (e + excess m e))
        (e + excess m e + excess (rounded m e a) (e + excess m e)) (Nat.pos_of_ne_zero h) := by
  have hmantissa : (ExtendedMantissa.ofMantissaAndAccuracy (rounded m e a) .exact >>>
      excess (rounded m e a) (e + excess m e)).mantissa =
        rounded m e a / 2 ^ excess (rounded m e a) (e + excess m e) := by
    rw [mantissa_shiftRight, mantissa_ofMantissaAndAccuracy]
  change (if h : (ExtendedMantissa.ofMantissaAndAccuracy (rounded m e a) .exact >>>
      excess (rounded m e a) (e + excess m e)).mantissa = 0 then UnpackedFloat.zero s
    else UnpackedFloat.finite s _ _ (Nat.pos_of_ne_zero h)) = _
  generalize (ExtendedMantissa.ofMantissaAndAccuracy (rounded m e a) .exact >>>
    excess (rounded m e a) (e + excess m e)).mantissa = n at hmantissa ⊢
  subst hmantissa
  rfl

theorem within_roundWithAccuracy {bound : Int} (s : Sign) (m : Nat) (e : Int) (a : Accuracy) :
    Within bound (roundWithAccuracy Format.binary64 s m e a) ↔
      rounded m e a / 2 ^ excess (rounded m e a) (e + excess m e) = 0 ∨
        e + excess m e + excess (rounded m e a) (e + excess m e) ≤ bound := by
  rw [roundWithAccuracy_eq]
  by_cases h : rounded m e a / 2 ^ excess (rounded m e a) (e + excess m e) = 0
  · rw [dif_pos h]
    exact iff_of_true trivial (.inl h)
  · rw [dif_neg h]
    exact (or_iff_right h).symm

theorem log2_rounded_le (m : Nat) (e : Int) (a : Accuracy) : (rounded m e a).log2 ≤ 53 := by
  by_cases h : rounded m e a = 0
  · rw [h]
    decide
  · exact Nat.lt_succ_iff.1 ((Nat.log2_lt h).2 (Nat.lt_of_le_of_lt (rounded_le m e a) (by decide)))

theorem within_of_small {bound e : Int} (hbound : -1074 < bound) (he : e < bound) {m : Nat}
    (hm : (m.log2 : Int) + e < bound + 52) (s : Sign) (a : Accuracy) :
    Within bound (roundWithAccuracy Format.binary64 s m e a) := by
  rw [within_roundWithAccuracy]
  have hlog := log2_rounded_le m e a
  refine .inr ?_
  have hfirst : e + excess m e ≤ bound - 1 := by
    unfold excess
    omega
  generalize e + (excess m e : Int) = e' at *
  unfold excess
  omega

theorem excess_of_normal {m : Nat} {e : Int} (hm : 52 ≤ m.log2) (he : -1022 ≤ (m.log2 : Int) + e) :
    excess m e = m.log2 - 52 := by
  unfold excess
  omega

theorem roundWithAccuracy_of_normal {e : Int} {m : Nat} (hm : 52 ≤ m.log2)
    (he : -1022 ≤ (m.log2 : Int) + e) (s : Sign) (a : Accuracy) :
    ∃ n hn, roundWithAccuracy Format.binary64 s m e a =
        .finite s n ((m.log2 : Int) + e - (if rounded m e a < 2 ^ 53 then 52 else 51)) hn ∧
      n.log2 = 52 := by
  have hne : m ≠ 0 := by
    rintro rfl
    simp at hm
  have hlow : 2 ^ 52 ≤ rounded m e a := by
    refine Nat.le_trans ?_ (rounded_bounds m e a).1
    rw [excess_of_normal hm he, Nat.le_div_iff_mul_le (Nat.two_pow_pos _), ← Nat.pow_add,
      Nat.add_sub_cancel' hm]
    exact Nat.log2_self_le hne
  have hhigh := rounded_le m e a
  rw [roundWithAccuracy_eq, excess_of_normal hm he]
  generalize rounded m e a = r at *
  by_cases hr : r < 2 ^ 53
  · have hlog : r.log2 = 52 := (Nat.log2_eq_iff (by omega)).2 ⟨hlow, hr⟩
    have hexcess : excess r (e + (m.log2 - 52 : Nat)) = 0 := by
      unfold excess
      omega
    rw [hexcess, if_pos hr, dif_neg (by omega)]
    exact ⟨r / 2 ^ 0, by omega, congrArg (UnpackedFloat.finite s _ · _) (by omega),
      by rwa [Nat.pow_zero, Nat.div_one]⟩
  · obtain rfl : r = 2 ^ 53 := by omega
    have hexcess : excess (2 ^ 53) (e + (m.log2 - 52 : Nat)) = 1 := by
      unfold excess
      rw [Nat.log2_two_pow]
      omega
    rw [hexcess, if_neg hr, dif_neg (by decide)]
    exact ⟨2 ^ 53 / 2 ^ 1, by decide, congrArg (UnpackedFloat.finite s _ · _) (by omega), by decide⟩

theorem within_of_normal {bound e : Int} {m : Nat} (hm : 52 ≤ m.log2)
    (he : -1022 ≤ (m.log2 : Int) + e) (s : Sign) (a : Accuracy) :
    Within bound (roundWithAccuracy Format.binary64 s m e a) ↔
      (m.log2 : Int) + e - (if rounded m e a < 2 ^ 53 then 52 else 51) ≤ bound := by
  obtain ⟨n, hn, hround, -⟩ := roundWithAccuracy_of_normal hm he s a
  rw [hround]
  rfl

theorem rounded_lt_iff {m : Nat} {e : Int} {j : Nat} (hj : excess m e = j + 1)
    (a : Accuracy) : rounded m e a < 2 ^ 53 ↔ m < (2 ^ 54 - 1) * 2 ^ j := by
  have hlt := div_excess_lt m e
  have hbounds := rounded_bounds m e a
  rw [← Nat.div_lt_iff_lt_mul (Nat.two_pow_pos j)]
  rw [hj, Nat.pow_succ, ← Nat.div_div_eq_div_mul] at hlt hbounds
  have hmantissa : (ExtendedMantissa.ofMantissaAndAccuracy m a >>> excess m e).mantissa =
      m / 2 ^ j / 2 := by
    rw [mantissa_shiftRight, mantissa_ofMantissaAndAccuracy, hj, Nat.pow_succ, Nat.div_div_eq_div_mul]
  have hbit : (ExtendedMantissa.ofMantissaAndAccuracy m a >>> excess m e).roundBit =
      (m / 2 ^ j % 2 != 0) := by
    rw [hj, roundBit_shiftRight, mantissa_ofMantissaAndAccuracy]
  generalize m / 2 ^ j = q at *
  constructor
  · intro h
    by_contra hge
    obtain rfl : q = 2 ^ 54 - 1 := by omega
    have hodd : (2 ^ 54 - 1) / 2 % 2 = 1 := by decide
    have hcarry := roundedMantissa_of_roundBit hbit ((congrArg (· % 2) hmantissa).trans hodd)
    rw [hmantissa] at hcarry
    change rounded m e a = _ at hcarry
    omega
  · intro h
    by_cases hq : q = 2 ^ 54 - 2
    · subst hq
      have hstay := roundedMantissa_of_not_roundBit hbit
      rw [hmantissa] at hstay
      change rounded m e a = _ at hstay
      omega
    · omega

/-- The least number that is rounded to one with an exponent above a bound: half a unit
below the next power of two. -/
theorem within_iff {bound e : Int} (hbound : -1074 < bound) (he : e < bound) (s : Sign) (m : Nat)
    (a : Accuracy) : Within bound (roundWithAccuracy Format.binary64 s m e a) ↔
      m < (2 ^ 54 - 1) * 2 ^ (bound - 1 - e).toNat := by
  obtain ⟨j, hj⟩ : ∃ j : Nat, bound - 1 - e = j := ⟨(bound - 1 - e).toNat, by omega⟩
  rw [hj, Int.toNat_natCast]
  rcases Int.lt_trichotomy ((m.log2 : Int) + e) (bound + 52) with hlog | hlog | hlog
  · refine iff_of_true (within_of_small hbound he hlog s a) ?_
    calc m < 2 ^ (m.log2 + 1) := Nat.lt_log2_self
      _ ≤ 2 ^ (53 + j) := Nat.pow_le_pow_right (by decide) (by omega)
      _ = 2 ^ 53 * 2 ^ j := Nat.pow_add ..
      _ ≤ (2 ^ 54 - 1) * 2 ^ j := Nat.mul_le_mul_right _ (by decide)
  · have hexcess : excess m e = j + 1 := by
      rw [excess_of_normal (by omega) (by omega)]
      omega
    rw [within_of_normal (by omega) (by omega), ← rounded_lt_iff hexcess a]
    split <;> omega
  · have hne : m ≠ 0 := by
      rintro rfl
      simp at hlog
      omega
    have hge : (2 ^ 54 - 1) * 2 ^ j ≤ m :=
      calc (2 ^ 54 - 1) * 2 ^ j ≤ 2 ^ 54 * 2 ^ j := Nat.mul_le_mul_right _ (by decide)
        _ = 2 ^ (54 + j) := (Nat.pow_add ..).symm
        _ ≤ 2 ^ m.log2 := Nat.pow_le_pow_right (by decide) (by omega)
        _ ≤ m := Nat.log2_self_le hne
    rw [within_of_normal (by omega) (by omega)]
    refine iff_of_false ?_ (Nat.not_lt.2 hge)
    split <;> omega

end Swatchbook.Binary64

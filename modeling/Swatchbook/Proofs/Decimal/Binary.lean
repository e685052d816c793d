import Swatchbook.Proofs.Decimal.Rounding

/-! Numbers of the binary format and the operations on them. A quotient by at least one, a
product that is not too large and the value of a small whole number are numbers again. Of two
numbers in order the second is not below the first. -/
namespace Swatchbook.Binary64

open Float.Model Float.Model.UnpackedFloat

instance (bound : Int) : DecidablePred (Within bound)
  | .zero _ => inferInstanceAs (Decidable True)
  | .finite _ _ e _ => inferInstanceAs (Decidable (e ≤ bound))
  | .infinity _ | .notANumber => inferInstanceAs (Decidable False)

theorem Within.mono {bound bound' : Int} {f : UnpackedFloat} (h : Within bound f)
    (hle : bound ≤ bound') : Within bound' f := by
  cases f with
  | finite s m e hm => exact Int.le_trans h hle
  | _ => exact h

/-- What bits with a given exponent field stand for. -/
inductive OfExponent (k : Nat) : UnpackedFloat → Prop where
  | infinity (hk : k = 2047) (s : Sign) : OfExponent k (.infinity s)
  | notANumber (hk : k = 2047) : OfExponent k .notANumber
  | zero (hk : k = 0) (s : Sign) : OfExponent k (.zero s)
  | subnormal (hk : k = 0) (s : Sign) {m : Nat} (hm : 0 < m) (hsmall : m < 2 ^ 52) :
      OfExponent k (.finite s m (-1074) hm)
  | normal (hlow : 0 < k) (hhigh : k < 2047) (s : Sign) {m : Nat} (hm : 0 < m) (hlarge : 2 ^ 52 ≤ m)
      (hsmall : m < 2 ^ 53) : OfExponent k (.finite s m ((k : Int) - 1075) hm)

theorem ofExponent_unpack (b : BitVec Format.binary64.numBits) :
    OfExponent (unpackExponent b).toNat (UnpackedFloat.unpack Format.binary64 b) := by
  have hexponent : (unpackExponent b).toNat < 2 ^ 11 := (unpackExponent b).isLt
  by_cases hspecial : unpackExponent b = -1#_
  · have hk : (unpackExponent b).toNat = 2047 := congrArg BitVec.toNat hspecial
    by_cases hm : unpackMantissa b = 0#_
    · rw [show UnpackedFloat.unpack Format.binary64 b = .infinity _ from
        (if_pos hspecial).trans (if_pos hm)]
      exact .infinity hk _
    · rw [show UnpackedFloat.unpack Format.binary64 b = .notANumber from
        (if_pos hspecial).trans (if_neg hm)]
      exact .notANumber hk
  · have hlast : (unpackExponent b).toNat ≠ 2047 := fun heq => hspecial (BitVec.eq_of_toNat_eq heq)
    by_cases hzero : unpackExponent b = 0#_
    · have hk : (unpackExponent b).toNat = 0 := congrArg BitVec.toNat hzero
      by_cases hm : unpackMantissa b = 0#_
      · rw [show UnpackedFloat.unpack Format.binary64 b = .zero _ from
          (if_neg hspecial).trans ((if_pos hzero).trans (dif_pos hm))]
        exact .zero hk _
      · rw [show UnpackedFloat.unpack Format.binary64 b = .finite _ _ _ _ from
          (if_neg hspecial).trans ((if_pos hzero).trans (dif_neg hm)), hk]
        exact .subnormal rfl _ _ (unpackMantissa b).isLt
    · have hfirst : (unpackExponent b).toNat ≠ 0 := fun heq => hzero (BitVec.eq_of_toNat_eq heq)
      have hlarge : 2 ^ 52 ≤ (1#1 ++ unpackMantissa b).toNat := by
        rw [BitVec.toNat_append]
        exact Nat.left_le_or
      rw [show UnpackedFloat.unpack Format.binary64 b = .finite _ _ _ _ from
        (if_neg hspecial).trans (if_neg hzero)]
      exact .normal (by omega) (by omega) _ _ hlarge (1#1 ++ unpackMantissa b).isLt

theorem isFinite_unpack_iff (b : BitVec Format.binary64.numBits) :
    (UnpackedFloat.unpack Format.binary64 b).isFinite = true ↔ (unpackExponent b).toNat ≠ 2047 := by
  have hfields := ofExponent_unpack b
  generalize UnpackedFloat.unpack Format.binary64 b = f at hfields ⊢
  cases hfields with
  | infinity hk | notANumber hk => exact iff_of_false Bool.false_ne_true (not_not.2 hk)
  | zero hk | subnormal hk => exact iff_of_true rfl (by omega)
  | normal hlow hhigh => exact iff_of_true rfl (by omega)

theorem toNat_biased (e : Int) : (e + (Format.exponentBias Format.binary64 : Int) +
    Format.binary64.mantissaBitsWithoutImplicit).toNat = (e + 1075).toNat :=
  congrArg Int.toNat (Int.add_assoc ..)

theorem unpackExponent_pack_iff (f : UnpackedFloat) :
    (unpackExponent (UnpackedFloat.pack Format.binary64 f)).toNat ≠ 2047 ↔ Within 971 f := by
  fun_cases UnpackedFloat.pack Format.binary64 f with
  | case1 => exact iff_of_false (not_not.2 (by decide)) id
  | case2 s =>
      rw [packedInfinity, unpackExponent_packComponents]
      exact iff_of_false (not_not.2 rfl) id
  | case3 s =>
      rw [packedZero, unpackExponent_packComponents]
      exact iff_of_true (by decide) trivial
  | case4 s m e hm biased h =>
      have hlarge : 2 ^ 11 ≤ (e + 1075).toNat + 1 := toNat_biased e ▸ h
      rw [packedInfinity, unpackExponent_packComponents]
      exact iff_of_false (not_not.2 rfl) (by rw [within_finite]; omega)
  | case5 s m e hm actual biased h hnormal =>
      have hsmall : ¬2 ^ 11 ≤ (e + 1075).toNat + 1 := toNat_biased e ▸ h
      rw [unpackExponent_packComponents]
      refine iff_of_true (fun heq => ?_) (by rw [within_finite]; omega)
      change biased % 2 ^ 11 = 2047 at heq
      change (e + _ + _).toNat % 2 ^ 11 = 2047 at heq
      rw [toNat_biased] at heq
      omega
  | case6 s m e hm actual biased h hsub =>
      have hsmall : ¬2 ^ 11 ≤ (e + 1075).toNat + 1 := toNat_biased e ▸ h
      rw [unpackExponent_packComponents]
      exact iff_of_true (by decide) (by rw [within_finite]; omega)

theorem bounds_of_unpack {b : BitVec Format.binary64.numBits} {s : Sign} {m : Nat} {e : Int}
    {hm : 0 < m} (h : UnpackedFloat.unpack Format.binary64 b = .finite s m e hm) :
    m < 2 ^ 53 ∧ e = max 1 ((unpackExponent b).toNat : Int) - 1075 ∧ e ≤ 971 := by
  have hfields := ofExponent_unpack b
  rw [h] at hfields
  generalize (unpackExponent b).toNat = k at hfields ⊢
  cases hfields with
  | subnormal hk => exact ⟨by omega, by omega, by decide⟩
  | normal hlow hhigh s hm hlarge hsmall => exact ⟨hsmall, by omega, by omega⟩

/-! ### Packing -/

theorem isFinite_pack_iff (f : UnpackedFloat) :
    (Float.ofModel (.pack f)).isFinite = true ↔ Within 971 f :=
  (isFinite_unpack_iff _).trans (unpackExponent_pack_iff f)

def Plain (f : UnpackedFloat) : Prop :=
  ∃ bound, Within bound f

theorem plain_roundWithAccuracy (s : Sign) (m : Nat) (e : Int) (a : Accuracy) :
    Plain (roundWithAccuracy Format.binary64 s m e a) :=
  ⟨_, (within_roundWithAccuracy s m e a).2 (.inr (Int.le_refl _))⟩

theorem isInf_of_pack {f : UnpackedFloat} (hf : Plain f)
    (h : (Float.ofModel (.pack f)).isFinite = false) : (Float.ofModel (.pack f)).isInf = true := by
  have hlarge : ¬Within 971 f := by
    rw [← isFinite_pack_iff, h]
    exact Bool.false_ne_true
  obtain ⟨bound, hbound⟩ := hf
  cases f with
  | zero => exact absurd trivial hlarge
  | infinity | notANumber => exact absurd hbound id
  | finite s m e hm =>
      have hpacked : UnpackedFloat.pack Format.binary64 (.finite s m e hm) =
          packedInfinity Format.binary64 s := by
        refine if_pos ?_
        rw [toNat_biased]
        change 2 ^ 11 ≤ _
        rw [within_finite] at hlarge
        omega
      change (UnpackedFloat.unpack Format.binary64 (UnpackedFloat.pack Format.binary64 _)).isInf = true
      rw [hpacked]
      cases s <;> rfl

theorem isFinite_iff {x : Float} : x.isFinite = true ↔ Within 971 x.toModel.unpack := by
  change x.toModel.unpack.isFinite = true ↔ _
  cases hx : x.toModel.unpack with
  | zero s => exact iff_of_true rfl trivial
  | infinity | notANumber => exact iff_of_false Bool.false_ne_true id
  | finite s m e hm => exact iff_of_true rfl (bounds_of_unpack hx).2.2

theorem isFinite_neg_iff {x : Float} : (-x).isFinite = true ↔ x.isFinite = true := by
  change (Float.ofModel (.pack x.toModel.unpack.neg)).isFinite = true ↔ _
  rw [isFinite_pack_iff, isFinite_iff]
  cases x.toModel.unpack <;> rfl

theorem toNat_unpackExponent_pack_le {bound : Int} {f : UnpackedFloat} (h : Within bound f)
    (hbound : bound ≤ 971) :
    (unpackExponent (UnpackedFloat.pack Format.binary64 f)).toNat ≤ (bound + 1075).toNat := by
  fun_cases UnpackedFloat.pack Format.binary64 f with
  | case1 => exact absurd h id
  | case2 s => exact absurd h id
  | case3 s =>
      rw [packedZero, unpackExponent_packComponents]
      exact Nat.zero_le _
  | case4 s m e hm biased hlarge =>
      have hlarge : 2 ^ 11 ≤ (e + 1075).toNat + 1 := toNat_biased e ▸ hlarge
      rw [within_finite] at h
      omega
  | case5 s m e hm actual biased hsmall hnormal =>
      rw [unpackExponent_packComponents]
      refine Nat.le_trans (Nat.mod_le _ _) ?_
      change (e + _ + _).toNat ≤ _
      rw [toNat_biased]
      rw [within_finite] at h
      omega
  | case6 s m e hm actual biased hsmall hsub =>
      rw [unpackExponent_packComponents]
      exact Nat.zero_le _

theorem within_unpack_pack {bound : Int} {f : UnpackedFloat} (h : Within bound f)
    (hlow : -1074 ≤ bound) (hhigh : bound ≤ 971) : Within bound (Float.Model.pack f).unpack := by
  have hexponent := toNat_unpackExponent_pack_le h hhigh
  have hfinite : Within 971 (Float.Model.pack f).unpack := by
    rw [← isFinite_iff (x := .ofModel (.pack f)), isFinite_pack_iff]
    exact h.mono hhigh
  cases hx : (Float.Model.pack f).unpack with
  | zero s => trivial
  | infinity | notANumber =>
      rw [hx] at hfinite
      exact hfinite
  | finite s m e hm =>
      have he := (bounds_of_unpack hx).2.1
      change e ≤ bound
      change e = max 1 ((unpackExponent (UnpackedFloat.pack Format.binary64 f)).toNat : Int) - 1075 at he
      omega

/-! ### Products and quotients -/

/-- A number that is not between minus one and one. -/
def AtLeastOne : UnpackedFloat → Prop
  | .finite _ m e _ => 2 ^ (-e).toNat ≤ m
  | .zero _ | .infinity _ | .notANumber => False

instance : DecidablePred AtLeastOne
  | .finite _ m e _ => inferInstanceAs (Decidable (2 ^ (-e).toNat ≤ m))
  | .zero _ | .infinity _ | .notANumber => inferInstanceAs (Decidable False)

theorem atLeastOne_pack {s : Sign} {m : Nat} {e : Int} {hm : 0 < m} (hlog : m.log2 = 52)
    (hlow : -52 ≤ e) (hhigh : e ≤ 971) : AtLeastOne (Float.Model.pack (.finite s m e hm)).unpack := by
  have hsmall : ¬2 ^ 11 ≤ (e + 1075).toNat + 1 := by omega
  have hexponent : (unpackExponent (UnpackedFloat.pack Format.binary64 (.finite s m e hm))).toNat =
      (e + 1075).toNat := by
    rw [← toNat_biased] at hsmall
    have hnormal : m.log2 + 1 = Format.binary64.mantissaBits := by
      rw [hlog]
      rfl
    rw [show UnpackedFloat.pack Format.binary64 (.finite s m e hm) = packComponents _ s _ _ from
      (if_neg hsmall).trans (if_pos hnormal), unpackExponent_packComponents, toNat_biased]
    exact Nat.mod_eq_of_lt (by change _ < 2 ^ 11; omega)
  have hfields := ofExponent_unpack (UnpackedFloat.pack Format.binary64 (.finite s m e hm))
  rw [hexponent] at hfields
  change AtLeastOne (UnpackedFloat.unpack Format.binary64 (UnpackedFloat.pack Format.binary64 _))
  generalize UnpackedFloat.unpack Format.binary64 (UnpackedFloat.pack Format.binary64 _) = f
    at hfields ⊢
  cases hfields with
  | infinity hk | notANumber hk | zero hk | subnormal hk => omega
  | @normal _ _ t n hn hlarge hsmall =>
      calc 2 ^ (-(((e + 1075).toNat : Int) - 1075)).toNat ≤ 2 ^ 52 :=
            Nat.pow_le_pow_right (by decide) (by omega)
        _ ≤ n := hlarge

theorem atLeastOne_round {s : Sign} {m : Nat} {e : Int} {a : Accuracy} (hm : 52 ≤ m.log2)
    (hone : 0 ≤ (m.log2 : Int) + e) (h : Within 971 (roundWithAccuracy Format.binary64 s m e a)) :
    AtLeastOne (Float.Model.pack (roundWithAccuracy Format.binary64 s m e a)).unpack := by
  obtain ⟨n, hn, hround, hlog⟩ := roundWithAccuracy_of_normal (e := e) hm (by omega) s a
  rw [hround] at h ⊢
  exact atLeastOne_pack hlog (by split <;> omega) h

theorem quotient_lt {m n : Nat} {e f target : Int} (hm : m < 2 ^ 53) (he : e ≤ 971)
    (hn : 2 ^ (-f).toNat ≤ n) (htarget : target ≤ 970) :
    (m <<< (e - f - target).toNat) / n < (2 ^ 54 - 1) * 2 ^ (970 - target).toNat := by
  obtain ⟨a, ha⟩ : ∃ a : Nat, 970 - target = a := ⟨(970 - target).toNat, by omega⟩
  rw [ha, Int.toNat_natCast, Nat.div_lt_iff_lt_mul (Nat.lt_of_lt_of_le (Nat.two_pow_pos _) hn),
    Nat.shiftLeft_eq]
  calc m * 2 ^ (e - f - target).toNat
      ≤ (2 ^ 53 - 1) * 2 ^ (a + 1 + (-f).toNat) :=
        Nat.mul_le_mul (by omega) (Nat.pow_le_pow_right (by decide) (by omega))
    _ = (2 ^ 54 - 2) * 2 ^ a * 2 ^ (-f).toNat := by
        rw [Nat.pow_add, Nat.pow_succ]
        ring
    _ < (2 ^ 54 - 1) * 2 ^ a * 2 ^ (-f).toNat := by
        refine Nat.mul_lt_mul_of_pos_right (Nat.mul_lt_mul_of_pos_right (by decide) ?_) ?_ <;>
          exact Nat.two_pow_pos _
    _ ≤ (2 ^ 54 - 1) * 2 ^ a * n := Nat.mul_le_mul_left _ hn

theorem isFinite_div {x y : Float} (hx : x.isFinite = true) (hy : AtLeastOne y.toModel.unpack) :
    (x / y).isFinite = true := by
  change (Float.ofModel (.pack (div Format.binary64 x.toModel.unpack y.toModel.unpack))).isFinite = true
  rw [isFinite_pack_iff]
  rw [isFinite_iff] at hx
  cases hyu : y.toModel.unpack with
  | zero | infinity | notANumber =>
      rw [hyu] at hy
      exact absurd hy id
  | finite t n f hn =>
      rw [hyu] at hy
      cases hxu : x.toModel.unpack with
      | zero s => trivial
      | infinity | notANumber =>
          rw [hxu] at hx
          exact absurd hx id
      | finite s m e hm =>
          obtain ⟨hsmall, -, he⟩ := bounds_of_unpack hxu
          have hmlog : m.log2 < 53 := (Nat.log2_lt (Nat.ne_of_gt hm)).2 hsmall
          have hnlog : (-f).toNat ≤ n.log2 := (Nat.le_log2 (Nat.ne_of_gt hn)).2 hy
          have htarget : min (e - f) (Format.binary64.targetExponent
              (totalExponent m e - totalExponent n f)) ≤ 970 := by
            rw [targetExponent_eq]
            unfold totalExponent
            omega
          exact (within_iff (by decide) (by omega) _ _ _).2 (quotient_lt hsmall he hy htarget)

theorem plain_mul {f g : UnpackedFloat} (hf : Plain f) (hg : Plain g) :
    Plain (mul Format.binary64 f g) := by
  obtain ⟨b, hf⟩ := hf
  obtain ⟨c, hg⟩ := hg
  cases f <;> cases g <;> first
    | exact absurd hf id
    | exact absurd hg id
    | exact ⟨0, trivial⟩
    | exact plain_roundWithAccuracy _ _ _ _

theorem isFinite_mul {x y : Float} (hx : x.isFinite = true) (hy : y.isFinite = true)
    (h : (x * y).isInf = false) : (x * y).isFinite = true := by
  have hplain := plain_mul ⟨971, isFinite_iff.1 hx⟩ ⟨971, isFinite_iff.1 hy⟩
  by_contra hinfinite
  have hinf := isInf_of_pack hplain (Bool.eq_false_iff.2 hinfinite)
  change (x * y).isInf = true at hinf
  rw [h] at hinf
  cases hinf

theorem isFinite_mul_of_within {x y : Float} (hx : Within 12 x.toModel.unpack)
    (hy : Within 22 y.toModel.unpack) : (x * y).isFinite = true := by
  change (Float.ofModel (.pack (mul Format.binary64 x.toModel.unpack y.toModel.unpack))).isFinite = true
  rw [isFinite_pack_iff]
  cases hxu : x.toModel.unpack with
  | infinity | notANumber =>
      rw [hxu] at hx
      exact absurd hx id
  | zero s =>
      cases hyu : y.toModel.unpack with
      | infinity | notANumber =>
          rw [hyu] at hy
          exact absurd hy id
      | zero | finite => trivial
  | finite s m e hm =>
      cases hyu : y.toModel.unpack with
      | infinity | notANumber =>
          rw [hyu] at hy
          exact absurd hy id
      | zero => trivial
      | finite t n f hn =>
          rw [hxu] at hx
          rw [hyu] at hy
          rw [within_finite] at hx hy
          refine (within_iff (by decide) (by omega) _ _ _).2 ?_
          calc m * n < 2 ^ 53 * 2 ^ 53 :=
                Nat.mul_lt_mul'' (bounds_of_unpack hxu).1 (bounds_of_unpack hyu).1
            _ ≤ (2 ^ 54 - 1) * 2 ^ 53 := Nat.mul_le_mul_right _ (by decide)
            _ ≤ (2 ^ 54 - 1) * 2 ^ (971 - 1 - (e + f)).toNat :=
                Nat.mul_le_mul_left _ (Nat.pow_le_pow_right (by decide) (by omega))

/-! ### Whole numbers -/

theorem within_ofNat {n : Nat} (h : n < 2 ^ 64) : Within 12 (UnpackedFloat.ofNat Format.binary64 n) := by
  unfold UnpackedFloat.ofNat UnpackedFloat.ofInt UnpackedFloat.normalize
  split
  · rename_i hneg
    exact absurd (Int.compare_eq_lt.1 hneg) (by omega)
  · trivial
  · rw [Int.toNat_natCast]
    unfold UnpackedFloat.round decreaseExponent
    simp only
    generalize (0 - Format.binary64.targetExponent (totalExponent n 0)).toNat = k
    refine (within_iff (by decide) (by omega) _ _ _).2 ?_
    calc n <<< k = n * 2 ^ k := Nat.shiftLeft_eq ..
      _ < 2 ^ 64 * 2 ^ k := Nat.mul_lt_mul_of_pos_right h (Nat.two_pow_pos k)
      _ ≤ (2 ^ 54 - 1) * 2 ^ 11 * 2 ^ k := Nat.mul_le_mul_right _ (by decide)
      _ = (2 ^ 54 - 1) * 2 ^ (12 - 1 - (0 - (k : Int))).toNat := by
        rw [show (12 - 1 - (0 - (k : Int))).toNat = 11 + k by omega, Nat.pow_add, Nat.mul_assoc]

theorem within_toFloat (n : UInt64) : Within 12 n.toFloat.toModel.unpack :=
  within_unpack_pack (within_ofNat n.toNat_lt) (by decide) (by decide)

theorem isFinite_toFloat (n : UInt64) : n.toFloat.isFinite = true :=
  isFinite_iff.2 ((within_toFloat n).mono (by decide))

/-! ### Order -/

theorem compare_swap (f g : UnpackedFloat) : (f.compare g).map Ordering.swap = g.compare f := by
  cases f with
  | notANumber => cases g <;> rfl
  | infinity s =>
      cases g with
      | infinity t => cases s <;> cases t <;> rfl
      | notANumber => rfl
      | zero | finite => cases s <;> rfl
  | zero s =>
      cases g with
      | infinity t | finite t => cases t <;> rfl
      | notANumber | zero => rfl
  | finite s m e hm =>
      cases g with
      | infinity t => cases t <;> rfl
      | notANumber => rfl
      | zero => cases s <;> rfl
      | finite t n f hn =>
          have hfields : ((compare e f).then (compare m n)).swap =
              (compare f e).then (compare n m) := by
            rw [Ordering.swap_then, Int.compare_swap, Nat.compare_swap]
          cases s <;> cases t
          · exact congrArg (some ·.swap) hfields
          · rfl
          · rfl
          · exact congrArg some hfields

theorem le_iff {x y : Float} :
    x ≤ y ↔ (x.toModel.unpack.compare y.toModel.unpack).any Ordering.isLE = true :=
  decide_eq_true_iff

theorem lt_iff {x y : Float} : x < y ↔ x.toModel.unpack.compare y.toModel.unpack = some .lt :=
  decide_eq_true_iff.trans beq_iff_eq

/-- The converse fails, since what is no number is neither below nor above anything. -/
theorem not_lt_of_le {x y : Float} (h : x ≤ y) : ¬y < x := by
  rw [le_iff] at h
  rw [lt_iff, ← compare_swap]
  intro hlt
  cases hxy : x.toModel.unpack.compare y.toModel.unpack with
  | none =>
      rw [hxy] at h
      cases h
  | some o =>
      rw [hxy] at h hlt
      cases o <;> cases h <;> cases hlt

end Swatchbook.Binary64

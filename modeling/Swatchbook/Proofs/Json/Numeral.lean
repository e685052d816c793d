import Swatchbook.Json.Numeral
import Swatchbook.Proofs.Decimal.Nearest

/-! Numbers in JSON are read as finite numbers of the binary format: what is too large for it
is not read at all. -/
namespace Swatchbook.Json.Numeral

open Binary64

theorem ten_pow_lt_limit : ∀ n ≤ 308, 10 ^ n < limit := by
  have hsmaller : ∀ k, 10 ^ k < limit → ∀ n ≤ k, 10 ^ n < limit :=
    fun k hk n hn => Nat.lt_of_le_of_lt (Nat.pow_le_pow_right (by decide) hn) hk
  refine hsmaller 308 ?_
  unfold limit
  decide +kernel

theorem isFinite_power {n : Nat} (h : n ≤ 308) : (power n).isFinite = true :=
  (isFinite_scientific_iff 1 n false).2 (by simpa using ten_pow_lt_limit n h)

theorem isFinite_div_power {x : Float} (hx : x.isFinite = true) {n : Nat} (h : n ≤ 308) :
    (x / power n).isFinite = true :=
  isFinite_div hx (atLeastOne_ten_pow (ten_pow_lt_limit n h))

theorem isFinite_shrink {x : Float} (hx : x.isFinite = true) (n : Nat) :
    (shrink x n).isFinite = true := by
  fun_induction shrink x n with
  | case1 x n hn => exact isFinite_div_power hx hn
  | case2 x n hn hzero => exact hx
  | case3 x n hn hzero ih => exact ih (isFinite_div_power hx (Nat.le_refl _))

theorem isFinite_of_scale? {n : Nat} {e : Int} {x : Float} (h : scale? n e = some x) :
    x.isFinite = true := by
  unfold scale? at h
  simp only at h
  split at h
  · cases h
    exact isFinite_shrink (isFinite_toFloat _) _
  · split at h
    · rename_i he
      split at h
      · cases h
      · rename_i hinf
        cases h
        exact isFinite_mul (isFinite_toFloat _) (isFinite_power he) (Bool.not_eq_true _ ▸ hinf)
    · split at h
      · cases h
        exact isFinite_toFloat _
      · cases h

theorem isFinite_of_value? {x : Numeral} {y : Float} (h : x.value? = some y) : y.isFinite = true := by
  obtain ⟨m, hm, rfl⟩ := Option.map_eq_some_iff.1 h
  have hfinite : m.isFinite = true := by
    unfold magnitude? at hm
    simp only at hm
    split at hm
    · split at hm
      · cases hm
        exact isFinite_toFloat _
      · exact isFinite_of_scale? hm
    · split at hm
      · exact isFinite_of_scale? hm
      · split at hm
        · cases hm
        · cases hm
          decide +kernel
  split
  · exact isFinite_neg_iff.2 hfinite
  · exact hfinite

end Swatchbook.Json.Numeral

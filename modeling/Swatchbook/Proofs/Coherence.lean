import Mathlib.Data.List.Count
import Mathlib.Data.List.Nodup
import Swatchbook.Validation

/-! What a list of themes satisfies that validation accepts. -/
namespace Swatchbook

theorem duplicates_eq_nil_iff {ks : List String} : duplicates ks = [] ↔ ks.Nodup := by
  rw [List.eq_nil_iff_forall_not_mem, List.nodup_iff_count_le_one]
  unfold duplicates
  simp only [mem_sortedDistinct, List.mem_filter, decide_eq_true_eq, not_and, Nat.not_lt]
  constructor
  · intro h k
    by_cases hk : k ∈ ks
    · exact h k hk
    · rw [List.count_eq_zero_of_not_mem hk]
      exact Nat.zero_le 1
  · exact fun h k _ => h k

/-- The requirements on the themes of one run. -/
structure Coherent (ts : List Theme) : Prop where
  nonempty : ts ≠ []
  displayNames : (ts.map Theme.displayName).Nodup
  identifiers : (ts.map Theme.identifier).Nodup
  isIdentifier : ∀ t ∈ ts, Swatchbook.isIdentifier t.identifier = true
  roleNames : ∀ t ∈ ts, ∀ u ∈ ts, t.roleNames = u.roleNames
  colors : ∀ t ∈ ts, ∀ e ∈ t.colors.entries, Validation.isAcceptable e.2 = true

namespace Validation

theorem identifierFault?_eq_none_iff {ts : List Theme} :
    identifierFault? ts = none ↔ ∀ t ∈ ts, isIdentifier t.identifier = true := by
  simp [identifierFault?]

theorem roleFault?_eq_none_iff {reference : Theme} {ts : List Theme} :
    roleFault? reference ts = none ↔ ∀ t ∈ ts, t.roleNames = reference.roleNames := by
  simp [roleFault?]

theorem colorFault?_eq_none_iff {ts : List Theme} :
    colorFault? ts = none ↔
      ∀ t ∈ ts, ∀ e ∈ t.colors.entries, isAcceptable e.2 = true := by
  simp [colorFault?]

theorem forall_roleNames_iff {reference : Theme} {others : List Theme} :
    (∀ t ∈ others, t.roleNames = reference.roleNames) ↔
      ∀ t ∈ reference :: others, ∀ u ∈ reference :: others, t.roleNames = u.roleNames := by
  constructor
  · intro h
    have hall : ∀ t ∈ reference :: others, t.roleNames = reference.roleNames :=
      List.forall_mem_cons.2 ⟨rfl, h⟩
    exact fun t ht u hu => (hall t ht).trans (hall u hu).symm
  · exact fun h t ht => h t (List.mem_cons_of_mem _ ht) reference (List.mem_cons_self ..)

theorem fault?_eq_none_iff {ts : List Theme} : fault? ts = none ↔ Coherent ts := by
  cases ts with
  | nil => exact ⟨nofun, fun h => absurd rfl h.nonempty⟩
  | cons reference others =>
      unfold fault?
      simp only [ne_eq, duplicates_eq_nil_iff, ite_not]
      constructor
      · intro h
        split at h
        · split at h
          · rename_i hnames hidentifiers
            simp only [Option.orElse_eq_orElse, Option.orElse_eq_or, Option.or_eq_none_iff] at h
            rw [identifierFault?_eq_none_iff, roleFault?_eq_none_iff, colorFault?_eq_none_iff,
              forall_roleNames_iff] at h
            exact ⟨List.cons_ne_nil _ _, hnames, hidentifiers, h.1, h.2.1, h.2.2⟩
          · cases h
        · cases h
      · intro h
        rw [if_pos h.displayNames, if_pos h.identifiers, identifierFault?_eq_none_iff.2 h.isIdentifier,
          roleFault?_eq_none_iff.2 (forall_roleNames_iff.2 h.roleNames), colorFault?_eq_none_iff.2 h.colors]
        rfl

end Validation

theorem color_of_validate {ts : List Theme} {theme role value : String}
    (h : validate ts = .error (.invalidColor theme role value)) :
    ∃ t ∈ ts, t.displayName = theme ∧ (role, value) ∈ t.colors.entries ∧
      Validation.isAcceptable value = false := by
  have hfault : Validation.fault? ts = some (.invalidColor theme role value) := by
    unfold validate at h
    cases hts : Validation.fault? ts with
    | none =>
        rw [hts] at h
        cases h
    | some e =>
        rw [hts] at h
        cases h
        rfl
  have hcolor : Validation.colorFault? ts = some (.invalidColor theme role value) := by
    unfold Validation.fault? Validation.identifierFault? Validation.roleFault? at hfault
    split at hfault
    · cases hfault
    · simp only at hfault
      split at hfault
      · cases hfault
      · split at hfault
        · cases hfault
        · -- The requirements before the colors report faults of another kind.
          simp only [Option.orElse_eq_orElse, Option.orElse_eq_or, Option.or_eq_some_iff,
            Option.map_eq_some_iff, reduceCtorEq, and_false, exists_false, false_or] at hfault
          exact hfault.2.2
  unfold Validation.colorFault? at hcolor
  obtain ⟨t, ht, hentry⟩ := List.exists_of_findSome?_eq_some hcolor
  obtain ⟨e, he, hsame⟩ := Option.map_eq_some_iff.1 hentry
  cases hsame
  exact ⟨t, ht, rfl, List.mem_of_find?_eq_some he, by simpa using List.find?_some he⟩

theorem validate_eq_ok_iff {ts : List Theme} : validate ts = .ok () ↔ Coherent ts := by
  rw [← Validation.fault?_eq_none_iff, validate]
  cases Validation.fault? ts <;> simp

end Swatchbook

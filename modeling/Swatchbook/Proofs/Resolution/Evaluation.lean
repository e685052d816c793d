import Swatchbook.Proofs.Color.Normal
import Swatchbook.Proofs.Resolution.Meaning

/-! One token at a time: evaluation solves the equation of the token, and fails
exactly when there is nothing to solve. -/
namespace Swatchbook

namespace Hex

theorem read_of_isOpaque {s : String} (h : IsOpaque s) : ∃ c, read s = .ok c := by
  obtain ⟨hlength, hdigits⟩ := h
  have hsix : (if (bare s.toList).length = 3 then double (bare s.toList)
      else bare s.toList).length = 6 := by
    split
    · rename_i hthree
      rw [length_double, hthree]
    · rename_i hthree
      exact hlength.resolve_left hthree
  unfold read
  simp only [hdigits, Bool.not_true, Bool.false_eq_true, ↓reduceIte]
  match hds : (if (bare s.toList).length = 3 then double (bare s.toList)
      else bare s.toList), hsix with
  | [a, b, c, d, e, f], _ => exact ⟨_, rfl⟩

theorem read_of_not_isOpaque {s : String} (h : ¬IsOpaque s) : read s = .error ⟨s⟩ := by
  unfold read
  dsimp only
  split
  · rfl
  · rename_i hdigits
    have hdigits : (bare s.toList).all isHexDigit = true := by simpa using hdigits
    split
    · rename_i hsix
      refine absurd ⟨?_, hdigits⟩ h
      split at hsix
      · exact .inl ‹_›
      · exact .inr (by rw [hsix]; rfl)
    · rfl

theorem isOpaque_of_isValid {s : String} (h : isValid s = true) (ho : ¬HasOpacity s) :
    IsOpaque s := by
  have hlength : s.toList.length ≠ 9 := fun hn => ho ⟨h, hn⟩
  unfold isValid at h
  split at h
  · rename_i ds hs
    rw [hs] at hlength
    simp only [Bool.and_eq_true, Bool.or_eq_true, beq_iff_eq] at h
    have hbare : bare s.toList = ds := by rw [hs]; rfl
    unfold IsOpaque
    rw [hbare]
    refine ⟨?_, h.2⟩
    simp only [List.length_cons] at hlength
    omega
  · simp at h

theorem not_isOpaque_of_hasOpacity {s : String} (h : HasOpacity s) : ¬IsOpaque s := by
  obtain ⟨hvalid, hlength⟩ := h
  unfold isValid at hvalid
  split at hvalid
  · rename_i ds hs
    have hbare : bare s.toList = ds := by rw [hs]; rfl
    rw [hs, List.length_cons] at hlength
    unfold IsOpaque
    rw [hbare]
    omega
  · simp at hvalid

end Hex

theorem Adjustment.apply_of_yields {a : Adjustment} {valueOf : String → String}
    {base text : String} {c : Rgb} (hc : Hex.read base = .ok c)
    (hv : a.operation.Yields valueOf c a.amount text) : a.apply valueOf base = .ok text := by
  unfold Adjustment.apply
  rw [hc]
  simp only [Except.bind]
  generalize a.operation = operation at hv
  cases hv with
  | lighten => rfl
  | darken => rfl
  | alpha => rfl
  | mix hother => simp [Rgb.mix, hother, Except.map]

theorem Operation.yields_or_mix (valueOf : String → String) (c : Rgb) (amount : Float)
    (operation : Operation) :
    (∃ text, operation.Yields valueOf c amount text) ∨
      ∃ other, operation = .mix other ∧ ¬Hex.IsOpaque (other.textWith valueOf) := by
  cases operation with
  | lighten => exact .inl ⟨_, .lighten⟩
  | darken => exact .inl ⟨_, .darken⟩
  | alpha => exact .inl ⟨_, .alpha⟩
  | mix other =>
      by_cases ho : Hex.IsOpaque (other.textWith valueOf)
      · obtain ⟨d, hd⟩ := Hex.read_of_isOpaque ho
        exact .inl ⟨_, .mix hd⟩
      · exact .inr ⟨other, rfl, ho⟩

namespace Token

variable {t : Token} {valueOf : String → String}

theorem evaluate_of_startsAt {base : String} (name : String)
    (h : t.value.StartsAt valueOf base) :
    t.evaluate name valueOf =
      match t.adjustment with
      | none => pure base
      | some a =>
        if Hex.isValid base then .lift ((a.apply valueOf base).mapError (.invalidColor name))
        else ⟨.ok base, [.dropsAdjustment name base]⟩ := by
  unfold Token.evaluate
  generalize t.value = value at h
  cases h with
  | literal hvalid =>
      cases t.adjustment <;> simp only [ColorValue.baseWith, hvalid, ↓reduceIte]
  | reference =>
      cases t.adjustment <;> simp only [ColorValue.baseWith]

theorem evaluate_of_equation {text : String} (name : String) (h : t.Equation valueOf text) :
    (t.evaluate name valueOf).outcome = .ok text := by
  cases h with
  | verbatim h => simp only [Token.evaluate, h]
  | unadjusted h ha =>
      rw [evaluate_of_startsAt name h, ha]
      rfl
  | dropped h ha hb => simp only [evaluate_of_startsAt name h, ha, hb, Bool.false_eq_true, ↓reduceIte]
  | adjusted h ha hb hc hv =>
      simp only [evaluate_of_startsAt name h, ha, hb, ↓reduceIte,
        Adjustment.apply_of_yields hc hv]
      rfl

theorem evaluate_of_rejects {text : String} (name : String) (h : t.Rejects valueOf text) :
    (t.evaluate name valueOf).outcome = .error (.invalidColor name ⟨text⟩) := by
  cases h with
  | literal h hv =>
      simp only [Token.evaluate, h, ColorValue.baseWith, hv, Bool.false_eq_true, ↓reduceIte]
      rfl
  | opacity h ha hb =>
      have hread := Hex.read_of_not_isOpaque (Hex.not_isOpaque_of_hasOpacity hb)
      simp only [evaluate_of_startsAt name h, ha, hb.1, ↓reduceIte, Adjustment.apply, hread]
      rfl
  | mixed h ha hb ho hm hc =>
      obtain ⟨c, hread⟩ := Hex.read_of_isOpaque (Hex.isOpaque_of_isValid hb ho)
      have hother := Hex.read_of_not_isOpaque hc
      simp only [evaluate_of_startsAt name h, ha, hb, ↓reduceIte, Adjustment.apply, hread, hm,
        Except.bind, Rgb.mix, hother]
      rfl

/-- A token either has a value or something in it is to blame. -/
theorem equation_or_rejects (t : Token) (valueOf : String → String) :
    (∃ text, t.Equation valueOf text) ∨ ∃ text, t.Rejects valueOf text := by
  have hadjusted (base : String) (h : t.value.StartsAt valueOf base) :
      (∃ text, t.Equation valueOf text) ∨ ∃ text, t.Rejects valueOf text := by
    cases ha : t.adjustment with
    | none => exact .inl ⟨base, .unadjusted h ha⟩
    | some a =>
        cases hb : Hex.isValid base with
        | false => exact .inl ⟨base, .dropped h ha hb⟩
        | true =>
            by_cases ho : Hex.HasOpacity base
            · exact .inr ⟨base, .opacity h ha ho⟩
            · obtain ⟨c, hc⟩ := Hex.read_of_isOpaque (Hex.isOpaque_of_isValid hb ho)
              rcases a.operation.yields_or_mix valueOf c a.amount with ⟨text, hv⟩ | ⟨other, hm, hn⟩
              · exact .inl ⟨text, .adjusted h ha hb hc hv⟩
              · exact .inr ⟨_, .mixed h ha hb ho hm hn⟩
  cases hvalue : t.value with
  | reference name =>
      refine hadjusted (valueOf name) ?_
      rw [hvalue]
      exact .reference
  | verbatim text => exact .inl ⟨text, .verbatim hvalue⟩
  | literal text =>
      cases hvalid : Hex.isValid text with
      | false => exact .inr ⟨text, .literal hvalue hvalid⟩
      | true =>
          refine hadjusted (Hex.normalize text) ?_
          rw [hvalue]
          exact .literal hvalid

theorem evaluate_eq_ok_iff {name text : String} :
    (t.evaluate name valueOf).outcome = .ok text ↔ t.Equation valueOf text := by
  refine ⟨fun h => ?_, evaluate_of_equation name⟩
  rcases t.equation_or_rejects valueOf with ⟨text', hv⟩ | ⟨text', hr⟩
  · rw [evaluate_of_equation name hv] at h
    cases h
    exact hv
  · rw [evaluate_of_rejects name hr] at h
    cases h

theorem evaluate_eq_error_iff {name : String} {e : ResolveError} :
    (t.evaluate name valueOf).outcome = .error e ↔
      ∃ text, t.Rejects valueOf text ∧ e = .invalidColor name ⟨text⟩ := by
  constructor
  · intro h
    rcases t.equation_or_rejects valueOf with ⟨text, hv⟩ | ⟨text, hr⟩
    · rw [evaluate_of_equation name hv] at h
      cases h
    · rw [evaluate_of_rejects name hr] at h
      cases h
      exact ⟨text, hr, rfl⟩
  · rintro ⟨text, hr, rfl⟩
    exact evaluate_of_rejects name hr

theorem Equation.not_rejects {text text' : String} (h : t.Equation valueOf text) :
    ¬t.Rejects valueOf text' := by
  intro hr
  have hok := evaluate_of_equation "" h
  rw [evaluate_of_rejects "" hr] at hok
  cases hok

theorem Equation.unique {text text' : String} (h : t.Equation valueOf text)
    (h' : t.Equation valueOf text') : text = text' := by
  have hok := evaluate_of_equation "" h
  rw [evaluate_of_equation "" h'] at hok
  cases hok
  rfl

end Token

/-! An equation reads the values of the dependencies of its token and no others. -/

theorem ColorValue.StartsAt.congr {f g : String → String} {value : ColorValue} {base : String}
    (h : ∀ d, value.target? = some d → f d = g d) (hs : value.StartsAt f base) :
    value.StartsAt g base := by
  cases hs with
  | literal hvalid => exact .literal hvalid
  | reference =>
      rw [h _ rfl]
      exact .reference

theorem ColorValue.textWith_congr {f g : String → String} {value : ColorValue}
    (h : ∀ d, value.target? = some d → f d = g d) : value.textWith f = value.textWith g := by
  cases value with
  | reference name => exact h name rfl
  | verbatim text => rfl
  | literal text => rfl

theorem Operation.Yields.congr {f g : String → String} {c : Rgb} {amount : Float}
    {operation : Operation} {text : String}
    (h : ∀ d, operation.mixed?.bind ColorValue.target? = some d → f d = g d)
    (hy : operation.Yields f c amount text) : operation.Yields g c amount text := by
  cases hy with
  | lighten => exact .lighten
  | darken => exact .darken
  | alpha => exact .alpha
  | mix hother =>
      rw [ColorValue.textWith_congr h] at hother
      exact .mix hother

theorem Token.Equation.congr {f g : String → String} {t : Token} {text : String}
    (h : ∀ d ∈ t.dependencies, f d = g d) (hv : t.Equation f text) : t.Equation g text := by
  have hbase : ∀ d, t.value.target? = some d → f d = g d :=
    fun d hd => h d ((t.mem_dependencies d).2 (.inl hd))
  cases hv with
  | verbatim hvalue => exact .verbatim hvalue
  | unadjusted hs ha => exact .unadjusted (hs.congr hbase) ha
  | dropped hs ha hb => exact .dropped (hs.congr hbase) ha hb
  | adjusted hs ha hb hc hy =>
      refine .adjusted (hs.congr hbase) ha hb hc (hy.congr fun d hd => ?_)
      refine h d ((t.mem_dependencies d).2 (.inr ?_))
      rw [Token.mixed?, ha]
      exact hd

/-! Nor does the value itself read any others. -/

theorem ColorValue.baseWith_congr {f g : String → String} {value : ColorValue}
    (h : ∀ d, value.target? = some d → f d = g d) : value.baseWith f = value.baseWith g := by
  cases value with
  | reference name => exact congrArg Except.ok (h name rfl)
  | verbatim text => rfl
  | literal text => rfl

theorem Adjustment.apply_congr {f g : String → String} {a : Adjustment}
    (h : ∀ d, a.operation.mixed?.bind ColorValue.target? = some d → f d = g d) (base : String) :
    a.apply f base = a.apply g base := by
  unfold Adjustment.apply
  cases hop : a.operation with
  | lighten | darken | alpha => rfl
  | mix other =>
      rw [hop] at h
      have htext : other.textWith f = other.textWith g := ColorValue.textWith_congr h
      simp only [htext]

theorem Token.evaluate_congr {f g : String → String} {t : Token}
    (h : ∀ d ∈ t.dependencies, f d = g d) (name : String) :
    t.evaluate name f = t.evaluate name g := by
  have hbase : t.value.baseWith f = t.value.baseWith g :=
    ColorValue.baseWith_congr fun d hd => h d ((t.mem_dependencies d).2 (.inl hd))
  have hmixed : ∀ a, t.adjustment = some a → ∀ base, a.apply f base = a.apply g base := by
    refine fun a ha base => Adjustment.apply_congr (fun d hd => ?_) base
    refine h d ((t.mem_dependencies d).2 (.inr ?_))
    rw [Token.mixed?, ha]
    exact hd
  unfold Token.evaluate
  split
  · rfl
  · rw [hbase]
    cases ha : t.adjustment with
    | none => rfl
    | some a => simp only [hmixed a ha]

end Swatchbook

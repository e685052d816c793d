import Swatchbook.Proofs.Decimal.Binary
import Swatchbook.Proofs.Resolution.Outcome

/-! To make a color lighter is to mix it with white. Both move every channel toward 255, so for
an amount between zero and one they compute the same bytes, and where one stands for the other
in a token set, resolution goes through the same steps to the same end. -/
namespace Swatchbook

namespace Rgb

def white : Rgb :=
  ⟨255, 255, 255⟩

theorem unitRatio_of_unit {x : Float} (hlow : 0 ≤ x) (hhigh : x ≤ 1) : unitRatio x = x := by
  rw [unitRatio, if_neg (Binary64.not_lt_of_le hlow), if_neg (Binary64.not_lt_of_le hhigh)]

theorem blend_white (c : Rgb) {amount : Float} (hlow : 0 ≤ amount) (hhigh : amount ≤ 1) :
    c.blend white amount = c.lighten amount := by
  unfold blend
  rw [unitRatio_of_unit hlow hhigh]
  rfl

theorem mix_white (c : Rgb) {amount : Float} (hlow : 0 ≤ amount) (hhigh : amount ≤ 1)
    {text : String} (hwhite : Hex.read text = .ok white) :
    c.mix text amount = .ok (c.lighten amount) := by
  rw [mix, hwhite, ← c.blend_white hlow hhigh]
  rfl

end Rgb

/-! ### Tokens that a search cannot tell apart -/

/-- Two tokens that wait for the same tokens and always come to the same value, or to the
same failure. -/
structure Token.Interchangeable (t u : Token) : Prop where
  dependencies : u.dependencies = t.dependencies
  evaluate : ∀ name valueOf, u.evaluate name valueOf = t.evaluate name valueOf

section Congruence

variable {tokens tokens' : Dict Token}
  (h : ∀ name, Option.Rel Token.Interchangeable (tokens.get? name) (tokens'.get? name))

include h

namespace Search

theorem need_congr (s : Search) (token : String) (targets : List String) :
    need tokens' s token targets = need tokens s token targets := by
  induction targets with
  | nil => rfl
  | cons target rest ih => rw [need, need, Dict.contains_eq_of_rel h, ih]

theorem step_congr (name : String) (rest : List String) (values : List (String × String)) :
    step tokens' name rest values = step tokens name rest values := by
  have hname := h name
  unfold step
  generalize tokens.get? name = t at hname ⊢
  generalize tokens'.get? name = u at hname ⊢
  cases hname with
  | none => rfl
  | some hsame => simp only [hsame.dependencies, hsame.evaluate, need_congr h]

theorem run_congr (s : Search) : run tokens' s = run tokens s := by
  induction s using run.induct tokens with
  | case1 s hstack => rw [run_of_stack_eq_nil hstack, run_of_stack_eq_nil hstack]
  | case2 s name rest hstack e ws hstep =>
      rw [run_of_step hstack, run_of_step hstack, step_congr h, hstep]
  | case3 s name rest hstack next ws hstep ih =>
      rw [run_of_step hstack, run_of_step hstack, step_congr h, hstep]
      dsimp only
      rw [ih]

end Search

/-- Resolution sees no more of a token than what it waits for and what it comes to. -/
theorem resolve_congr : resolve tokens' = resolve tokens := by
  have hkeys := Dict.keys_eq_of_rel h
  have hrun : Search.run tokens' = Search.run tokens := funext (Search.run_congr h)
  unfold resolve
  rw [hrun, hkeys]
  simp only [Dict.mapWithKey_eq_of_keys hkeys]

end Congruence

/-! ### White mixed in -/

/-- The same token, or one that mixes in white by the amount by which the first is made
lighter. -/
inductive Token.Whitened (t : Token) : Token → Prop
  | kept : Whitened t t
  | mixed {a : Adjustment} {text : String} (ha : t.adjustment = some a)
      (ho : a.operation = .lighten) (hlow : 0 ≤ a.amount) (hhigh : a.amount ≤ 1)
      (hwhite : Hex.read text = .ok .white) (space : Option String) :
      Whitened t { t with adjustment := some ⟨.mix (.literal text), a.amount, space⟩ }

theorem Adjustment.apply_mix_white {a : Adjustment} {text : String} (ho : a.operation = .lighten)
    (hlow : 0 ≤ a.amount) (hhigh : a.amount ≤ 1) (hwhite : Hex.read text = .ok .white)
    (space : Option String) (valueOf : String → String) (base : String) :
    Adjustment.apply ⟨.mix (.literal text), a.amount, space⟩ valueOf base = a.apply valueOf base := by
  unfold Adjustment.apply
  cases Hex.read base with
  | error e => rfl
  | ok c =>
      simp only [Except.bind, ho, ColorValue.textWith, c.mix_white hlow hhigh hwhite]
      rfl

theorem Token.Whitened.interchangeable {t u : Token} (h : t.Whitened u) : t.Interchangeable u := by
  cases h with
  | kept => exact ⟨rfl, fun _ _ => rfl⟩
  | mixed ha ho hlow hhigh hwhite space =>
      constructor
      · simp only [Token.dependencies, Token.base?, Token.mixed?, ha, Option.bind_some, ho]
        rfl
      · intro name valueOf
        simp only [Token.evaluate, ha, Adjustment.apply_mix_white ho hlow hhigh hwhite]

theorem whitened_insert {tokens : Dict Token} {name : String} {t u : Token}
    (ht : tokens.get? name = some t) (h : t.Whitened u) (other : String) :
    Option.Rel Token.Whitened (tokens.get? other) ((tokens.insert name u).get? other) := by
  rw [Dict.get?_insert]
  split
  · rename_i heq
    rw [heq, ht]
    exact .some h
  · cases tokens.get? other with
    | none => exact .none
    | some t => exact .some .kept

/-- White mixed in makes lighter, and no result of a token set tells which of the two was
asked for, be it values or a failure. -/
theorem mixing_white_lightens :
    Hex.read "#FFFFFF" = .ok .white ∧
      (∀ (c : Rgb) (amount : Float) (text : String), 0 ≤ amount → amount ≤ 1 →
        Hex.read text = .ok .white → c.mix text amount = .ok (c.lighten amount)) ∧
      ∀ tokens tokens' : Dict Token,
        (∀ name, Option.Rel Token.Whitened (tokens.get? name) (tokens'.get? name)) →
          resolve tokens' = resolve tokens := by
  refine ⟨by decide +kernel, fun c amount text hlow hhigh => c.mix_white hlow hhigh, ?_⟩
  intro tokens tokens' h
  refine resolve_congr fun name => ?_
  have hname := h name
  generalize tokens.get? name = t at hname ⊢
  generalize tokens'.get? name = u at hname ⊢
  cases hname with
  | none => exact .none
  | some hwhitened => exact .some hwhitened.interchangeable

def slate : Dict Token :=
  .ofList [("primary", ⟨.classify "#4682B4", none⟩),
    ("surface", ⟨.classify "\x7bcolor.primary\x7d", some ⟨.lighten, 0.2, none⟩⟩)]

def frostedSlate : Dict Token :=
  slate.insert "surface"
    ⟨.classify "\x7bcolor.primary\x7d", some ⟨.mix (.classify "fFf"), 0.2, some "oklab"⟩⟩

def slateValues : Dict String :=
  .ofList [("primary", "#4682B4"), ("surface", "#6B9BC3")]

private theorem resolve_slate : (resolve slate).outcome = .ok slateValues := by
  have hprimary : Means slate "primary" "#4682B4" :=
    .of_dependencies (fun _ => "") rfl nofun (.unadjusted (.literal rfl) rfl)
  have hlighter : ((⟨0x46, 0x82, 0xB4⟩ : Rgb).lighten 0.2).toHex = "#6B9BC3" := by
    decide +kernel
  have hsurface : Means slate "surface" "#6B9BC3" := by
    rw [← hlighter]
    exact .of_dependencies (fun _ => "#4682B4") rfl
      (List.forall_mem_singleton.2 hprimary) (.adjusted .reference rfl rfl rfl .lighten)
  refine resolve_ofList rfl ?_
  simp only [List.forall_mem_cons, List.not_mem_nil, false_implies, implies_true, and_true]
  exact ⟨hprimary, hsurface⟩

private theorem slate_whitened (name : String) :
    Option.Rel Token.Whitened (slate.get? name) (frostedSlate.get? name) := by
  have hsurface : slate.get? "surface" =
      some ⟨.reference "primary", some ⟨.lighten, 0.2, none⟩⟩ := rfl
  have hwhite : Hex.read "fFf" = .ok .white := by decide +kernel
  have hwhitened := Token.Whitened.mixed (t := ⟨.reference "primary", some ⟨.lighten, 0.2, none⟩⟩)
    rfl rfl (by decide) (by decide) hwhite (some "oklab")
  exact whitened_insert hsurface hwhitened name

theorem slate_frosted :
    (0 : Float) ≤ 0.2 ∧ (0.2 : Float) ≤ 1 ∧ Hex.read "fFf" = .ok .white ∧
      Rgb.mix ⟨0x46, 0x82, 0xB4⟩ "fFf" 0.2 = .ok (Rgb.lighten ⟨0x46, 0x82, 0xB4⟩ 0.2) ∧
      (∀ name, Option.Rel Token.Whitened (slate.get? name) (frostedSlate.get? name)) ∧
      resolve frostedSlate = resolve slate ∧ (resolve frostedSlate).outcome = .ok slateValues := by
  obtain ⟨-, hmix, hresolve⟩ := mixing_white_lightens
  have hlow : (0 : Float) ≤ 0.2 := by decide
  have hhigh : (0.2 : Float) ≤ 1 := by decide
  have hwhite : Hex.read "fFf" = .ok .white := by decide +kernel
  have hsame := hresolve slate frostedSlate slate_whitened
  exact ⟨hlow, hhigh, hwhite, hmix _ _ _ hlow hhigh hwhite, slate_whitened, hsame,
    hsame ▸ resolve_slate⟩

end Swatchbook

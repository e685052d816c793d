import Swatchbook.Proofs.Resolution.Origin

/-! References may be replaced by the values they stand for. A resolved value is no
reference, normalizing leaves it as it is, and text that is kept where it is named is kept
where it is spelled out, so no value of the set changes. -/
namespace Swatchbook

variable {tokens tokens' : Dict Token} {values : Dict String}

/-- A value, or a reference with the resolved value in its place. -/
inductive ColorValue.SpellsOut (values : Dict String) : ColorValue → ColorValue → Prop
  | kept (v : ColorValue) : SpellsOut values v v
  | inlined {target text : String} (h : values.get? target = some text) :
      SpellsOut values (.reference target) (.classify text)

/-- The same operation, up to references to the color that is mixed in. -/
inductive Operation.SpellsOut (values : Dict String) : Operation → Operation → Prop
  | kept (o : Operation) : SpellsOut values o o
  | mixed {v w : ColorValue} (h : v.SpellsOut values w) : SpellsOut values (.mix v) (.mix w)

/-- A token with its base, the color it mixes in, or both spelled out. -/
structure Token.SpellsOut (values : Dict String) (t u : Token) : Prop where
  value : t.value.SpellsOut values u.value
  adjustment : Option.Rel (fun a b => a.operation.SpellsOut values b.operation ∧ a.amount = b.amount)
    t.adjustment u.adjustment

theorem Token.SpellsOut.refl (values : Dict String) (t : Token) : t.SpellsOut values t where
  value := .kept _
  adjustment := by
    cases t.adjustment with
    | none => exact .none
    | some a => exact .some ⟨.kept _, rfl⟩

theorem Hex.IsNormal.classify_eq {s : String} (h : IsNormal s) :
    ColorValue.classify s = .literal s := by
  have hnot : inBraces? s = none := by
    obtain ⟨ds, hs, -⟩ := h
    rw [inBraces?, hs]
    rfl
  rw [ColorValue.classify, hnot]

theorem classify_of_resolve (hc : Classified tokens) (h : (resolve tokens).outcome = .ok values)
    {name text : String} (hvalue : values.get? name = some text) :
    Hex.IsNormal text ∧ ColorValue.classify text = .literal text ∨
      Hex.isValid text = false ∧ ColorValue.classify text = .verbatim text := by
  rcases isNormal_or_keeps_of_mem h (Dict.mem_entries_iff.2 hvalue) with hnormal | hkeeps
  · exact .inl ⟨hnormal, hnormal.classify_eq⟩
  · obtain ⟨inner, hinner⟩ := hc.inBraces_of_keeps hkeeps
    obtain ⟨origin, t, ht, hverbatim⟩ := hkeeps
    obtain ⟨s, hs⟩ := (hc origin t ht).1
    obtain ⟨rfl, -⟩ := ColorValue.classify_eq_verbatim (hs.symm.trans hverbatim)
    exact .inr ⟨not_isValid_of_inBraces hinner, hs.symm.trans hverbatim⟩

section Resolved

variable (hc : Classified tokens) (h : (resolve tokens).outcome = .ok values)

include hc h

theorem ColorValue.SpellsOut.target? {v w : ColorValue} (hvw : v.SpellsOut values w) {d : String}
    (hd : w.target? = some d) : v.target? = some d := by
  cases hvw with
  | kept => exact hd
  | inlined hvalue =>
      rcases classify_of_resolve hc h hvalue with ⟨-, hliteral⟩ | ⟨-, hverbatim⟩
      · rw [hliteral] at hd
        cases hd
      · rw [hverbatim] at hd
        cases hd

theorem ColorValue.SpellsOut.textWith_eq {v w : ColorValue} (hvw : v.SpellsOut values w)
    {valueOf : String → String} (hv : ∀ d, v.target? = some d → values.get? d = some (valueOf d)) :
    w.textWith valueOf = v.textWith valueOf := by
  cases hvw with
  | kept => rfl
  | @inlined target text hvalue =>
      have htext : text = valueOf target := Option.some.inj (hvalue.symm.trans (hv target rfl))
      rcases classify_of_resolve hc h hvalue with ⟨-, hliteral⟩ | ⟨-, hverbatim⟩
      · rw [hliteral, ColorValue.textWith, htext]
        rfl
      · rw [hverbatim, ColorValue.textWith, htext]
        rfl

theorem ColorValue.SpellsOut.startsAt {v w : ColorValue} (hvw : v.SpellsOut values w)
    {valueOf : String → String} (hv : ∀ d, v.target? = some d → values.get? d = some (valueOf d))
    {base : String} (hbase : v.StartsAt valueOf base) :
    w.StartsAt valueOf base ∨ w = .verbatim base ∧ Hex.isValid base = false := by
  cases hvw with
  | kept => exact .inl hbase
  | @inlined target text hvalue =>
      cases hbase
      have htext : text = valueOf target := Option.some.inj (hvalue.symm.trans (hv target rfl))
      subst htext
      rcases classify_of_resolve hc h hvalue with ⟨hnormal, hliteral⟩ | ⟨hinvalid, hverbatim⟩
      · have hstarts : (ColorValue.literal (valueOf target)).StartsAt valueOf
            (Hex.normalize (valueOf target)) := .literal hnormal.isValid
        rw [hnormal.normalize_eq] at hstarts
        exact .inl (hliteral ▸ hstarts)
      · exact .inr ⟨hverbatim, hinvalid⟩

theorem Operation.SpellsOut.yields {o p : Operation} (hop : o.SpellsOut values p)
    {valueOf : String → String}
    (hv : ∀ d, o.mixed?.bind ColorValue.target? = some d → values.get? d = some (valueOf d))
    {c : Rgb} {amount : Float} {text : String} (hy : o.Yields valueOf c amount text) :
    p.Yields valueOf c amount text := by
  cases hop with
  | kept => exact hy
  | mixed hvw =>
      cases hy with
      | mix hread =>
          rw [← hvw.textWith_eq hc h hv] at hread
          exact .mix hread

theorem Token.SpellsOut.dependencies {t u : Token} (htu : t.SpellsOut values u) {d : String}
    (hd : d ∈ u.dependencies) : d ∈ t.dependencies := by
  rw [Token.mem_dependencies] at hd ⊢
  refine hd.imp (htu.value.target? hc h) fun hmixed => ?_
  obtain ⟨hvalue, hadjustment⟩ := htu
  unfold Token.mixed? at hmixed ⊢
  generalize t.adjustment = ta at hadjustment
  generalize u.adjustment = ua at hadjustment hmixed
  cases hadjustment with
  | none => cases hmixed
  | @some a b hab =>
      obtain ⟨hop, -⟩ := hab
      rw [Option.bind_some] at hmixed ⊢
      generalize a.operation = o at hop
      generalize b.operation = p at hop hmixed
      cases hop with
      | kept => exact hmixed
      | mixed hvw => exact hvw.target? hc h hmixed

/-- One token: what solved its equation still does. -/
theorem Token.SpellsOut.equation {t u : Token} (htu : t.SpellsOut values u)
    {valueOf : String → String} (hv : ∀ d ∈ t.dependencies, values.get? d = some (valueOf d))
    {text : String} (hequation : t.Equation valueOf text) : u.Equation valueOf text := by
  have hstarts : ∀ base, t.value.StartsAt valueOf base →
      u.value.StartsAt valueOf base ∨ u.value = .verbatim base ∧ Hex.isValid base = false :=
    fun base => htu.value.startsAt hc h fun d hd => hv d ((t.mem_dependencies d).2 (.inl hd))
  have hadjustment := htu.adjustment
  cases hequation with
  | verbatim hvalue =>
      have hspelled := htu.value
      rw [hvalue] at hspelled
      generalize hw : u.value = w at hspelled
      cases hspelled
      exact .verbatim hw
  | unadjusted hbase ha =>
      rw [ha] at hadjustment
      generalize hua : u.adjustment = ua at hadjustment
      cases hadjustment
      rcases hstarts _ hbase with hbase' | ⟨hverbatim, -⟩
      · exact .unadjusted hbase' hua
      · exact .verbatim hverbatim
  | dropped hbase ha hb =>
      rw [ha] at hadjustment
      generalize hua : u.adjustment = ua at hadjustment
      cases hadjustment
      rcases hstarts _ hbase with hbase' | ⟨hverbatim, -⟩
      · exact .dropped hbase' hua hb
      · exact .verbatim hverbatim
  | @adjusted base text a c hbase ha hb hcolor hy =>
      rw [ha] at hadjustment
      generalize hua : u.adjustment = ua at hadjustment
      cases hadjustment with
      | @some _ b hab =>
          obtain ⟨hop, hamount⟩ := hab
          rcases hstarts _ hbase with hbase' | ⟨-, hinvalid⟩
          · refine .adjusted hbase' hua hb hcolor ?_
            rw [← hamount]
            refine hop.yields hc h (fun d hd => hv d ((t.mem_dependencies d).2 (.inr ?_))) hy
            rw [Token.mixed?, ha]
            exact hd
          · rw [hinvalid] at hb
            cases hb

/-- Every value is reached in the same way when references are spelled out. -/
theorem Means.of_spellsOut
    (hsame : ∀ name t, tokens.get? name = some t →
      ∃ u, tokens'.get? name = some u ∧ t.SpellsOut values u)
    {name text : String} (hm : Means tokens name text) : Means tokens' name text := by
  obtain ⟨-, hmeans⟩ := means_of_resolve h
  induction hm with
  | @intro name text t valueOf ht hd hv ih =>
      obtain ⟨u, hu, htu⟩ := hsame name t ht
      have hvalues : ∀ d ∈ t.dependencies, values.get? d = some (valueOf d) := by
        intro d hmem
        have hdep := hd d ((dependsOn_iff ht).2 hmem)
        obtain ⟨text', hvalue, hm'⟩ := hmeans d hdep.mem_keys
        rw [hvalue, hm'.unique hdep]
      exact .of_dependencies valueOf hu
        (fun d hmem => ih d ((dependsOn_iff ht).2 (htu.dependencies hc h hmem)))
        (htu.equation hc h hvalues hv)

theorem resolve_of_spellsOut (hkeys : tokens'.keys = tokens.keys)
    (hsame : ∀ name t, tokens.get? name = some t →
      ∃ u, tokens'.get? name = some u ∧ t.SpellsOut values u) :
    (resolve tokens').outcome = .ok values := by
  obtain ⟨hkeys', hmeans⟩ := means_of_resolve h
  refine resolve_of_means (hkeys'.trans hkeys.symm) fun name hname => ?_
  obtain ⟨text, hvalue, hm⟩ := hmeans name (hkeys ▸ hname)
  exact ⟨text, hvalue, hm.of_spellsOut hc h hsame⟩

theorem resolve_insert_of_spellsOut {name : String} {t u : Token} (ht : tokens.get? name = some t)
    (htu : t.SpellsOut values u) : (resolve (tokens.insert name u)).outcome = .ok values := by
  refine resolve_of_spellsOut hc h (Dict.keys_insert_of_mem (Dict.mem_keys_of_get? ht))
    fun other t' ht' => ?_
  rw [Dict.get?_insert]
  split
  · rename_i heq
    subst heq
    cases ht.symm.trans ht'
    exact ⟨u, rfl, htu⟩
  · exact ⟨t', ht', .refl values t'⟩

end Resolved

/-- References are transparent: with the value of its base, or of the color it mixes in,
in place of the reference, a token has the same value, and so has every other. -/
theorem references_transparent {values : Dict String} (hc : Classified tokens)
    (h : (resolve tokens).outcome = .ok values) {name : String} {t : Token}
    (ht : tokens.get? name = some t) :
    (∀ target, t.value = .reference target → ∃ text, values.get? target = some text ∧
      (resolve (tokens.insert name { t with value := .classify text })).outcome = .ok values) ∧
    ∀ a target, t.adjustment = some a → a.operation = .mix (.reference target) →
      ∃ text, values.get? target = some text ∧
        (resolve (tokens.insert name
          { t with adjustment := some { a with operation := .mix (.classify text) } })).outcome =
            .ok values := by
  obtain ⟨hkeys, hmeans⟩ := means_of_resolve h
  have hvalues : ∀ target, DependsOn tokens name target → ∃ text, values.get? target = some text := by
    intro target hdep
    obtain ⟨_, _, hm⟩ := hmeans name hdep.mem_keys
    obtain ⟨_, hm'⟩ := hm.of_dependsOn hdep
    obtain ⟨text, hvalue, -⟩ := hmeans target hm'.mem_keys
    exact ⟨text, hvalue⟩
  refine ⟨fun target hv => ?_, fun a target ha ho => ?_⟩
  · obtain ⟨text, hvalue⟩ := hvalues target (dependsOn_of_reference ht hv)
    refine ⟨text, hvalue, resolve_insert_of_spellsOut hc h ht ⟨?_, ?_⟩⟩
    · rw [hv]
      exact .inlined hvalue
    · exact (Token.SpellsOut.refl values t).adjustment
  · obtain ⟨text, hvalue⟩ := hvalues target ⟨t, ht, .inr (by rw [Token.mixed?, ha]; simp [ho]; rfl)⟩
    refine ⟨text, hvalue, resolve_insert_of_spellsOut hc h ht ⟨.kept _, ?_⟩⟩
    rw [ha]
    refine .some ⟨?_, rfl⟩
    rw [ho]
    exact .mixed (.inlined hvalue)

theorem veils_spelled_out :
    Classified veils ∧ (resolve veils).outcome = .ok veilValues ∧
      (resolve (veils.insert "rim"
        ⟨.classify "\x7bspacing.sm\x7d", some ⟨.alpha, 0.5, none⟩⟩)).outcome = .ok veilValues ∧
      (resolve (veils.insert "veil"
        ⟨.classify "#AABBCC", some ⟨.alpha, 0.5, none⟩⟩)).outcome = .ok veilValues ∧
      (resolve (veils.insert "wash" ⟨.classify "#000",
        some ⟨.mix (.classify "#AABBCC"), 0.5, none⟩⟩)).outcome = .ok veilValues := by
  have hrim : veils.get? "rim" = some ⟨.reference "gap", some ⟨.alpha, 0.5, none⟩⟩ := rfl
  have hveil : veils.get? "veil" = some ⟨.reference "ink", some ⟨.alpha, 0.5, none⟩⟩ := rfl
  have hwash : veils.get? "wash" =
      some ⟨.classify "#000", some ⟨.mix (.reference "ink"), 0.5, none⟩⟩ := rfl
  refine ⟨classified_veils, resolve_veils, ?_, ?_, ?_⟩
  · obtain ⟨text, hvalue, hresolve⟩ :=
      (references_transparent classified_veils resolve_veils hrim).1 "gap" rfl
    cases hvalue
    exact hresolve
  · obtain ⟨text, hvalue, hresolve⟩ :=
      (references_transparent classified_veils resolve_veils hveil).1 "ink" rfl
    cases hvalue
    exact hresolve
  · obtain ⟨text, hvalue, hresolve⟩ :=
      (references_transparent classified_veils resolve_veils hwash).2 _ "ink" rfl rfl
    cases hvalue
    exact hresolve

end Swatchbook

import Swatchbook.Proofs.Resolution.Values

/-! The form of a value, read off the tokens that its base references lead through. Text in
braces passes through all of them as it is. A color has eight digits when the first token
that adjusts it sets its opacity, or when none adjusts it and it is written with eight. -/
namespace Swatchbook

namespace Hex

/-- A number sign and so many digits in upper case. -/
def Written (count : Nat) (s : String) : Prop :=
  ∃ ds, s.toList = '#' :: ds ∧ ds.length = count ∧ ∀ c ∈ ds, IsWrittenDigit c

theorem isNormal_iff_written {s : String} : IsNormal s ↔ Written 6 s ∨ Written 8 s := by
  constructor
  · rintro ⟨ds, hs, hsix | height, hdigits⟩
    · exact .inl ⟨ds, hs, hsix, hdigits⟩
    · exact .inr ⟨ds, hs, height, hdigits⟩
  · rintro (⟨ds, hs, hlength, hdigits⟩ | ⟨ds, hs, hlength, hdigits⟩)
    · exact ⟨ds, hs, .inl hlength, hdigits⟩
    · exact ⟨ds, hs, .inr hlength, hdigits⟩

theorem Written.hasOpacity {s : String} (h : Written 8 s) : HasOpacity s := by
  refine ⟨(isNormal_iff_written.2 (.inr h)).isValid, ?_⟩
  obtain ⟨ds, hs, hlength, -⟩ := h
  rw [hs, List.length_cons, hlength]

theorem IsNormal.written_iff_hasOpacity {s : String} (h : IsNormal s) :
    Written 8 s ↔ HasOpacity s := by
  refine ⟨Written.hasOpacity, fun ho => ?_⟩
  rcases isNormal_iff_written.1 h with ⟨ds, hs, hlength, -⟩ | height
  · have hnine := ho.2
    rw [hs, List.length_cons, hlength] at hnine
    exact absurd hnine (by decide)
  · exact height

theorem hasOpacity_normalize_iff {s : String} (h : isValid s = true) :
    HasOpacity (normalize s) ↔ HasOpacity s := by
  have hlength : (normalize s).toList.length = 9 ↔ s.toList.length = 9 := by
    obtain ⟨ds, hs, hcount, hdigits⟩ := exists_digits_of_isValid h
    rw [normalize_of_digits hs hdigits, hs, String.toList_ofList, List.length_cons,
      List.length_cons]
    split
    · rw [length_double, List.length_map]
      omega
    · rw [List.length_map]
  exact and_congr (iff_of_true (isNormal_normalize h).isValid h) hlength

end Hex

namespace Rgb

theorem not_hasOpacity_toHex (c : Rgb) : ¬Hex.HasOpacity c.toHex := by
  intro h
  have hnine := h.2
  rw [toHex, String.toList_ofList] at hnine
  exact absurd hnine (by decide : (7 : Nat) ≠ 9)

theorem hasOpacity_withAlpha (c : Rgb) (alpha : Float) : Hex.HasOpacity (c.withAlpha alpha) :=
  ⟨(isNormal_withAlpha c alpha).isValid, by rw [withAlpha, String.toList_ofList]; rfl⟩

end Rgb

theorem Operation.Yields.hasOpacity_iff {valueOf : String → String} {c : Rgb} {amount : Float}
    {operation : Operation} {text : String} (h : operation.Yields valueOf c amount text) :
    Hex.HasOpacity text ↔ operation = .alpha := by
  cases h with
  | lighten => exact iff_of_false (Rgb.not_hasOpacity_toHex _) nofun
  | darken => exact iff_of_false (Rgb.not_hasOpacity_toHex _) nofun
  | alpha => exact iff_of_true (Rgb.hasOpacity_withAlpha _ _) rfl
  | mix => exact iff_of_false (Rgb.not_hasOpacity_toHex _) nofun

variable {tokens : Dict Token}

/-- The first adjustment on the way along base references sets the opacity, or there is
none and the way ends in a color of eight digits. -/
inductive Translucent (tokens : Dict Token) : String → Prop
  | alpha {name : String} {t : Token} {a : Adjustment} (ht : tokens.get? name = some t)
      (ha : t.adjustment = some a) (ho : a.operation = .alpha) : Translucent tokens name
  | literal {name text : String} {t : Token} (ht : tokens.get? name = some t)
      (ha : t.adjustment = none) (hv : t.value = .literal text) (ho : Hex.HasOpacity text) :
      Translucent tokens name
  | reference {name target : String} {t : Token} (ht : tokens.get? name = some t)
      (ha : t.adjustment = none) (hv : t.value = .reference target)
      (h : Translucent tokens target) : Translucent tokens name

theorem translucent_iff {name : String} {t : Token} (ht : tokens.get? name = some t) :
    Translucent tokens name ↔
      (∃ a, t.adjustment = some a ∧ a.operation = .alpha) ∨
        t.adjustment = none ∧
          ((∃ text, t.value = .literal text ∧ Hex.HasOpacity text) ∨
            ∃ target, t.value = .reference target ∧ Translucent tokens target) := by
  constructor
  · intro h
    cases h with
    | alpha ht' ha ho =>
        cases ht.symm.trans ht'
        exact .inl ⟨_, ha, ho⟩
    | literal ht' ha hv ho =>
        cases ht.symm.trans ht'
        exact .inr ⟨ha, .inl ⟨_, hv, ho⟩⟩
    | reference ht' ha hv h =>
        cases ht.symm.trans ht'
        exact .inr ⟨ha, .inr ⟨_, hv, h⟩⟩
  · rintro (⟨a, ha, ho⟩ | ⟨ha, ⟨text, hv, ho⟩ | ⟨target, hv, h⟩⟩)
    · exact .alpha ht ha ho
    · exact .literal ht ha hv ho
    · exact .reference ht ha hv h

theorem KeptAs.eq_of_not_isValid {name kept text : String} (hk : KeptAs tokens name kept)
    (hinvalid : Hex.isValid kept = false) (h : Means tokens name text) : text = kept := by
  induction hk generalizing text with
  | verbatim ht hv =>
      obtain ⟨t', valueOf, ht', -, hequation⟩ := h
      cases ht.symm.trans ht'
      exact hequation.unique (.verbatim hv)
  | @reference name target kept t ht hv hk ih =>
      obtain ⟨t', valueOf, ht', hd, hequation⟩ := h
      cases ht.symm.trans ht'
      have hkept : valueOf target = kept :=
        ih hinvalid (hd target (dependsOn_of_reference ht hv))
      have hbase : t.value.StartsAt valueOf kept := by
        rw [hv, ← hkept]
        exact .reference
      cases ha : t.adjustment with
      | none => exact hequation.unique (.unadjusted hbase ha)
      | some a => exact hequation.unique (.dropped hbase ha hinvalid)

theorem Classified.not_isValid_of_keptAs (hc : Classified tokens) {name kept : String}
    (hk : KeptAs tokens name kept) : Hex.isValid kept = false := by
  obtain ⟨inner, hinner⟩ := hc.inBraces_of_keeps hk.keeps
  exact not_isValid_of_inBraces hinner

theorem KeptAs.eq_of_means (hc : Classified tokens) {name kept text : String}
    (hk : KeptAs tokens name kept) (h : Means tokens name text) : text = kept :=
  hk.eq_of_not_isValid (hc.not_isValid_of_keptAs hk) h

/-- Where base references lead to no text that is kept as it is, the value is a color, with
eight digits just when the way to it says so. -/
theorem Means.hasOpacity_iff {name text : String} (h : Means tokens name text)
    (hnot : ¬∃ kept, KeptAs tokens name kept) :
    Hex.HasOpacity text ↔ Translucent tokens name := by
  induction h with
  | @intro name text t valueOf ht hd hv ih =>
      rw [translucent_iff ht]
      -- The target of a base reference leads to no kept text either.
      have htarget : ∀ target, t.value = .reference target →
          Hex.IsNormal (valueOf target) ∧
            (Hex.HasOpacity (valueOf target) ↔ Translucent tokens target) := by
        intro target hvalue
        have hdep := dependsOn_of_reference ht hvalue
        have hnot' : ¬∃ kept, KeptAs tokens target kept :=
          fun ⟨kept, hk⟩ => hnot ⟨kept, .reference ht hvalue hk⟩
        exact ⟨(hd target hdep).isNormal_or_keptAs.resolve_right fun hk => hnot' ⟨_, hk⟩,
          ih target hdep hnot'⟩
      cases hv with
      | verbatim hvalue => exact absurd ⟨text, .verbatim ht hvalue⟩ hnot
      | unadjusted hbase ha =>
          generalize hvalue : t.value = value at hbase
          cases hbase with
          | literal hvalid => simp [ha, Hex.hasOpacity_normalize_iff hvalid]
          | reference => simp [ha, (htarget _ hvalue).2]
      | dropped hbase ha hb =>
          generalize hvalue : t.value = value at hbase
          cases hbase with
          | literal hvalid =>
              rw [(Hex.isNormal_normalize hvalid).isValid] at hb
              cases hb
          | reference =>
              rw [(htarget _ hvalue).1.isValid] at hb
              cases hb
      | adjusted hbase ha hb hcolor hyields => simp [ha, hyields.hasOpacity_iff]

theorem Token.Equation.not_hasOpacity_of_adjusted {valueOf : String → String} {t : Token}
    {a : Adjustment} {base text : String} (h : t.Equation valueOf text)
    (ha : t.adjustment = some a) (hbase : t.value.StartsAt valueOf base) :
    ¬Hex.HasOpacity base :=
  fun ho => h.not_rejects (.opacity hbase ha ho)

theorem Token.Equation.isValid_literal {valueOf : String → String} {t : Token}
    {literal text : String} (h : t.Equation valueOf text) (hv : t.value = .literal literal) :
    Hex.isValid literal = true := by
  cases hvalid : Hex.isValid literal with
  | true => rfl
  | false => exact absurd (.literal hv hvalid) h.not_rejects

/-- Every token has a value, and its form is known from where it comes from. It is text that
a token keeps as it is exactly when base references lead to that text. Otherwise it is a
color of six or eight digits, of eight exactly when the first adjustment on the way sets the
opacity, or there is none and the way ends in eight digits. What is adjusted never has
eight. -/
theorem value_form_of_origin {values : Dict String} (hc : Classified tokens)
    (h : (resolve tokens).outcome = .ok values) :
    (∀ name ∈ tokens.keys, ∃ text, values.get? name = some text ∧
      (∀ kept, Keeps tokens kept → (text = kept ↔ KeptAs tokens name kept)) ∧
      ((¬∃ kept, KeptAs tokens name kept) →
        (Hex.Written 6 text ∨ Hex.Written 8 text) ∧
          (Hex.Written 8 text ↔ Translucent tokens name))) ∧
    ∀ name t a, tokens.get? name = some t → t.adjustment = some a →
      (∀ target text, t.value = .reference target → values.get? target = some text →
        ¬Hex.Written 8 text) ∧
      ∀ text, t.value = .literal text → ¬Hex.Written 8 (Hex.normalize text) := by
  obtain ⟨hkeys, hmeans⟩ := means_of_resolve h
  refine ⟨fun name hname => ?_, fun name t a ht ha => ?_⟩
  · obtain ⟨text, hvalue, hm⟩ := hmeans name hname
    refine ⟨text, hvalue, fun kept hkept => ⟨?_, fun hk => hk.eq_of_means hc hm⟩, fun hnot => ?_⟩
    · rintro rfl
      refine hm.isNormal_or_keptAs.resolve_left fun hnormal => ?_
      obtain ⟨inner, hinner⟩ := hc.inBraces_of_keeps hkept
      have hvalid := hnormal.isValid
      rw [not_isValid_of_inBraces hinner] at hvalid
      cases hvalid
    · have hnormal := hm.isNormal_or_keptAs.resolve_right fun hk => hnot ⟨text, hk⟩
      exact ⟨Hex.isNormal_iff_written.1 hnormal,
        hnormal.written_iff_hasOpacity.trans (hm.hasOpacity_iff hnot)⟩
  · obtain ⟨text, -, t', valueOf, ht', hd, hequation⟩ :=
      hmeans name (Dict.get?_isSome_iff.1 (by rw [ht]; rfl))
    cases ht.symm.trans ht'
    refine ⟨fun target base hvalue hget hbase => ?_, fun literal hvalue hbase => ?_⟩
    · have hdep := dependsOn_of_reference ht hvalue
      obtain ⟨base', hget', hm⟩ := hmeans target (hd target hdep).mem_keys
      rw [hget] at hget'
      cases hget'
      refine hequation.not_hasOpacity_of_adjusted ha ?_ hbase.hasOpacity
      rw [hvalue, ← (hd target hdep).unique hm]
      exact .reference
    · refine hequation.not_hasOpacity_of_adjusted ha ?_ hbase.hasOpacity
      rw [hvalue]
      exact .literal (hequation.isValid_literal hvalue)

/-- A name for no color and a token that would adjust it; a color, a veil over it, a token
that takes over the veil, and one into which the color is mixed. -/
def veils : Dict Token :=
  .ofList [("gap", ⟨.classify "\x7bspacing.sm\x7d", none⟩),
    ("rim", ⟨.classify "\x7bcolor.gap\x7d", some ⟨.alpha, 0.5, none⟩⟩),
    ("ink", ⟨.classify "#abc", none⟩),
    ("veil", ⟨.classify "\x7bcolor.ink\x7d", some ⟨.alpha, 0.5, none⟩⟩),
    ("pane", ⟨.classify "\x7bcolor.veil\x7d", none⟩),
    ("wash", ⟨.classify "#000", some ⟨.mix (.classify "\x7bcolor.ink\x7d"), 0.5, none⟩⟩)]

def veilValues : Dict String :=
  .ofList [("gap", "\x7bspacing.sm\x7d"), ("rim", "\x7bspacing.sm\x7d"), ("ink", "#AABBCC"),
    ("veil", "#80AABBCC"), ("pane", "#80AABBCC"), ("wash", "#555D66")]

theorem classified_veils : Classified veils := by
  refine classified_ofList ?_
  simp only [List.forall_mem_cons, List.not_mem_nil, false_implies, implies_true, and_true]
  refine ⟨⟨⟨_, rfl⟩, nofun⟩, ⟨⟨_, rfl⟩, ?_⟩, ⟨⟨_, rfl⟩, nofun⟩, ⟨⟨_, rfl⟩, ?_⟩, ⟨⟨_, rfl⟩, nofun⟩,
    ⟨_, rfl⟩, ?_⟩
  · rintro a color ⟨⟩ ⟨⟩
  · rintro a color ⟨⟩ ⟨⟩
  · rintro a color ⟨⟩ ⟨⟩
    exact ⟨_, rfl⟩

theorem resolve_veils : (resolve veils).outcome = .ok veilValues := by
  have hgap : Means veils "gap" "\x7bspacing.sm\x7d" :=
    .of_dependencies (fun _ => "") rfl nofun (.verbatim rfl)
  have hink : Means veils "ink" "#AABBCC" :=
    .of_dependencies (fun _ => "") rfl nofun (.unadjusted (.literal rfl) rfl)
  have hrim : Means veils "rim" "\x7bspacing.sm\x7d" :=
    .of_dependencies (fun _ => "\x7bspacing.sm\x7d") rfl
      (List.forall_mem_singleton.2 hgap) (.dropped .reference rfl rfl)
  have hveil : Means veils "veil" "#80AABBCC" :=
    .of_dependencies (fun _ => "#AABBCC") rfl
      (List.forall_mem_singleton.2 hink) (.adjusted .reference rfl rfl rfl .alpha)
  have hpane : Means veils "pane" "#80AABBCC" :=
    .of_dependencies (fun _ => "#80AABBCC") rfl
      (List.forall_mem_singleton.2 hveil) (.unadjusted .reference rfl)
  have hmixed : ((⟨0, 0, 0⟩ : Rgb).blend ⟨0xAA, 0xBB, 0xCC⟩ 0.5).toHex = "#555D66" := by
    decide +kernel
  have hwash : Means veils "wash" "#555D66" := by
    rw [← hmixed]
    exact .of_dependencies (fun _ => "#AABBCC") rfl
      (List.forall_mem_singleton.2 hink) (.adjusted (.literal rfl) rfl rfl rfl (.mix rfl))
  refine resolve_ofList rfl ?_
  simp only [List.forall_mem_cons, List.not_mem_nil, false_implies, implies_true, and_true]
  exact ⟨hgap, hrim, hink, hveil, hpane, hwash⟩

theorem veils_forms :
    Classified veils ∧ (resolve veils).outcome = .ok veilValues ∧
      KeptAs veils "rim" "\x7bspacing.sm\x7d" ∧ Hex.Written 8 "#80AABBCC" ∧
      ¬Hex.Written 8 "#AABBCC" := by
  have hforms := value_form_of_origin classified_veils resolve_veils
  refine ⟨classified_veils, resolve_veils, ?_, ?_, (hforms.2 "veil" _ _ rfl rfl).1 "ink" _ rfl rfl⟩
  · obtain ⟨text, hvalue, hkept, -⟩ := hforms.1 "rim" (by decide)
    cases hvalue
    exact (hkept _ ⟨"gap", _, rfl, rfl⟩).1 rfl
  · obtain ⟨text, hvalue, hkept, hcolor⟩ := hforms.1 "pane" (by decide)
    cases hvalue
    have hnot : ¬∃ kept, KeptAs veils "pane" kept := by
      rintro ⟨kept, hk⟩
      obtain ⟨inner, hinner⟩ := classified_veils.inBraces_of_keeps hk.keeps
      rw [← (hkept kept hk.keeps).2 hk] at hinner
      cases hinner
    exact (hcolor hnot).2.2 (.reference rfl rfl rfl (.alpha rfl rfl rfl))

end Swatchbook

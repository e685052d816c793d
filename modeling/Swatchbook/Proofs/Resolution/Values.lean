import Swatchbook.Proofs.Coherence
import Swatchbook.Proofs.Dict
import Swatchbook.Proofs.Resolution.Outcome

/-! The texts that resolution gives, and what validation makes of them. A value is a
color in normal form, unless it is text in braces that a token keeps as it is. Such text
is accepted as a reference if it has a dot, so the two do not agree on the rest. -/
namespace Swatchbook

/-- The values of the tokens, and the colors mixed in, were told apart by their texts. -/
def Classified (tokens : Dict Token) : Prop :=
  ∀ name t, tokens.get? name = some t →
    (∃ s, t.value = .classify s) ∧
      ∀ a color, t.adjustment = some a → a.operation = .mix color →
        ∃ s, color = .classify s

theorem classified_ofList {es : List (String × Token)}
    (h : ∀ e ∈ es, (∃ s, e.2.value = .classify s) ∧
      ∀ a color, e.2.adjustment = some a → a.operation = .mix color → ∃ s, color = .classify s) :
    Classified (.ofList es) :=
  fun name t ht => h (name, t) (Dict.mem_of_get?_ofList ht)

/-- Text in braces that has no dot: it is kept as it is, though it cannot be a reference. -/
def IsDotless (s : String) : Prop :=
  ∃ inner, inBraces? s = some inner ∧ '.' ∉ inner

def Keeps (tokens : Dict Token) (text : String) : Prop :=
  ∃ name t, tokens.get? name = some t ∧ t.value = .verbatim text

theorem ColorValue.classify_eq_verbatim {s text : String} (h : classify s = .verbatim text) :
    text = s ∧ ∃ inner, inBraces? s = some inner := by
  unfold classify at h
  split at h
  · cases h
  · rename_i inner hinner
    refine ⟨?_, inner, hinner⟩
    split at h
    · split at h
      · cases h
      · cases h
        rfl
    · cases h
      rfl

theorem not_isValid_of_inBraces {s : String} {inner : List Char} (h : inBraces? s = some inner) :
    Hex.isValid s = false := by
  unfold inBraces? at h
  split at h
  · rename_i r hs
    unfold Hex.isValid
    rw [hs]
    rfl
  · cases h

theorem isAcceptable_of_inBraces {s : String} {inner : List Char}
    (h : inBraces? s = some inner) :
    Validation.isAcceptable s = isTokenReference s ∧
      (isTokenReference s = false ↔ IsDotless s) := by
  constructor
  · rw [Validation.isAcceptable, not_isValid_of_inBraces h, Bool.false_or]
  · rw [isTokenReference, h]
    simp only [List.contains_eq_mem, decide_eq_false_iff_not]
    constructor
    · exact fun hdot => ⟨inner, h, hdot⟩
    · rintro ⟨inner', h', hdot⟩
      rw [h] at h'
      cases h'
      exact hdot

theorem Hex.IsNormal.isAcceptable {s : String} (h : Hex.IsNormal s) :
    Validation.isAcceptable s = true := by
  rw [Validation.isAcceptable, h.isValid, Bool.true_or]

variable {tokens : Dict Token}

theorem Classified.inBraces_of_keeps (hc : Classified tokens) {text : String}
    (h : Keeps tokens text) : ∃ inner, inBraces? text = some inner := by
  obtain ⟨name, t, ht, hvalue⟩ := h
  obtain ⟨s, hs⟩ := (hc name t ht).1
  obtain ⟨rfl, hinner⟩ := ColorValue.classify_eq_verbatim (hs.symm.trans hvalue)
  exact hinner

theorem Operation.Yields.isNormal {valueOf : String → String} {c : Rgb} {amount : Float}
    {operation : Operation} {text : String} (h : operation.Yields valueOf c amount text) :
    Hex.IsNormal text := by
  cases h with
  | lighten => exact Rgb.isNormal_toHex _
  | darken => exact Rgb.isNormal_toHex _
  | alpha => exact Rgb.isNormal_withAlpha _ _
  | mix => exact Rgb.isNormal_toHex _

/-- Following base references from a token ends in one whose text is kept as it is. -/
inductive KeptAs (tokens : Dict Token) : String → String → Prop
  | verbatim {name text : String} {t : Token} (ht : tokens.get? name = some t)
      (hv : t.value = .verbatim text) : KeptAs tokens name text
  | reference {name target text : String} {t : Token} (ht : tokens.get? name = some t)
      (hv : t.value = .reference target) (h : KeptAs tokens target text) : KeptAs tokens name text

theorem KeptAs.keeps {name text : String} (h : KeptAs tokens name text) : Keeps tokens text := by
  induction h with
  | @verbatim name text t ht hv => exact ⟨name, t, ht, hv⟩
  | reference _ _ _ ih => exact ih

/-- A value is a color in normal form, or the text to which base references lead. -/
theorem Means.isNormal_or_keptAs {name text : String} (h : Means tokens name text) :
    Hex.IsNormal text ∨ KeptAs tokens name text := by
  induction h with
  | @intro name text t valueOf ht hd hv ih =>
      have hstart : ∀ base, t.value.StartsAt valueOf base →
          Hex.IsNormal base ∨ KeptAs tokens name base := by
        intro base hbase
        cases hvalue : t.value with
        | literal =>
            rw [hvalue] at hbase
            cases hbase with
            | literal hvalid => exact .inl (Hex.isNormal_normalize hvalid)
        | verbatim =>
            rw [hvalue] at hbase
            cases hbase
        | reference target =>
            rw [hvalue] at hbase
            cases hbase with
            | reference =>
                have htarget := ih target (dependsOn_of_reference ht hvalue)
                exact htarget.imp_right (.reference ht hvalue)
      cases hv with
      | verbatim hvalue => exact .inr (.verbatim ht hvalue)
      | unadjusted hbase => exact hstart _ hbase
      | dropped hbase => exact hstart _ hbase
      | adjusted hbase ha hb hcolor hyields => exact .inl hyields.isNormal

section Resolved

variable {values : Dict String} (h : (resolve tokens).outcome = .ok values)

include h

theorem isNormal_or_keeps_of_mem {e : String × String} (he : e ∈ values.entries) :
    Hex.IsNormal e.2 ∨ Keeps tokens e.2 := by
  obtain ⟨hkeys, hmeans⟩ := means_of_resolve h
  obtain ⟨text, hvalue, hm⟩ := hmeans e.1 (hkeys ▸ List.mem_map_of_mem he)
  rw [Dict.mem_entries_iff.1 he] at hvalue
  cases hvalue
  exact hm.isNormal_or_keptAs.imp_right KeptAs.keeps

theorem exists_mem_of_keeps {text : String} (hkeeps : Keeps tokens text) :
    ∃ e ∈ values.entries, e.2 = text := by
  obtain ⟨name, t, ht, hvalue⟩ := hkeeps
  have hname : name ∈ tokens.keys := Dict.mem_keys_of_get? ht
  obtain ⟨text', hget, t', valueOf, ht', -, hv⟩ := (means_of_resolve h).2 name hname
  rw [ht] at ht'
  cases ht'
  rw [hv.unique (.verbatim hvalue)] at hget
  exact ⟨(name, text), Dict.mem_entries_iff.2 hget, rfl⟩

theorem isDotless_of_refused (hc : Classified tokens) {e : String × String}
    (he : e ∈ values.entries) (hrefused : Validation.isAcceptable e.2 = false) :
    IsDotless e.2 ∧ Keeps tokens e.2 := by
  rcases isNormal_or_keeps_of_mem h he with hnormal | hkeeps
  · rw [hnormal.isAcceptable] at hrefused
    cases hrefused
  · obtain ⟨inner, hinner⟩ := hc.inBraces_of_keeps hkeeps
    obtain ⟨hsame, hdotless⟩ := isAcceptable_of_inBraces hinner
    exact ⟨hdotless.1 (hsame ▸ hrefused), hkeeps⟩

end Resolved

/-- Every value of a resolved token set is a color, a reference, or text in braces without
a dot that a token keeps as it is. Validation refuses just the last kind, so it refuses a
value exactly when some token keeps such text, and when it blames a color of a theme with
these values it names such text. -/
theorem resolved_values_acceptable {values : Dict String} (hc : Classified tokens)
    (h : (resolve tokens).outcome = .ok values) :
    (∀ e ∈ values.entries, Hex.isValid e.2 = true ∨ isTokenReference e.2 = true ∨
      IsDotless e.2 ∧ Keeps tokens e.2) ∧
    ((∃ e ∈ values.entries, Validation.isAcceptable e.2 = false) ↔
      ∃ text, IsDotless text ∧ Keeps tokens text) ∧
    ∀ ts theme role text, validate ts = .error (.invalidColor theme role text) →
      ∃ t ∈ ts, t.displayName = theme ∧ t.color? role = some text ∧
        (t.colors = values → IsDotless text ∧ Keeps tokens text) := by
  refine ⟨fun e he => ?_, ⟨?_, ?_⟩, fun ts theme role text hfault => ?_⟩
  · cases hacceptable : Validation.isAcceptable e.2 with
    | true =>
        rw [Validation.isAcceptable, Bool.or_eq_true] at hacceptable
        exact hacceptable.imp_right .inl
    | false => exact .inr (.inr (isDotless_of_refused h hc he hacceptable))
  · rintro ⟨e, he, hrefused⟩
    exact ⟨e.2, isDotless_of_refused h hc he hrefused⟩
  · rintro ⟨text, hdotless, hkeeps⟩
    obtain ⟨e, he, rfl⟩ := exists_mem_of_keeps h hkeeps
    obtain ⟨inner, hinner⟩ := hc.inBraces_of_keeps hkeeps
    obtain ⟨hsame, hiff⟩ := isAcceptable_of_inBraces hinner
    exact ⟨e, he, hsame.trans (hiff.2 hdotless)⟩
  · obtain ⟨t, ht, hname, hmem, hrefused⟩ := color_of_validate hfault
    refine ⟨t, ht, hname, Dict.mem_entries_iff.1 hmem, ?_⟩
    rintro rfl
    exact isDotless_of_refused h hc hmem hrefused

def bareBraces : Dict Token :=
  .ofList [("a", ⟨.classify "\x7bprimary\x7d", none⟩),
    ("b", ⟨.classify "\x7bcolor.a\x7d", some ⟨.lighten, 0.5, none⟩⟩)]

def bareValues : Dict String :=
  .ofList [("a", "\x7bprimary\x7d"), ("b", "\x7bprimary\x7d")]

private theorem classified_bareBraces : Classified bareBraces := by
  refine classified_ofList ?_
  simp only [List.forall_mem_cons, List.not_mem_nil, false_implies, implies_true, and_true]
  refine ⟨⟨⟨_, rfl⟩, nofun⟩, ⟨_, rfl⟩, ?_⟩
  rintro a color ⟨⟩ ⟨⟩

private theorem resolve_bareBraces : (resolve bareBraces).outcome = .ok bareValues := by
  have ha : Means bareBraces "a" "\x7bprimary\x7d" :=
    .of_dependencies (fun _ => "") rfl nofun (.verbatim rfl)
  have hb : Means bareBraces "b" "\x7bprimary\x7d" :=
    .of_dependencies (fun _ => "\x7bprimary\x7d") rfl
      (List.forall_mem_singleton.2 ha) (.dropped .reference rfl rfl)
  refine resolve_ofList rfl ?_
  simp only [List.forall_mem_cons, List.not_mem_nil, false_implies, implies_true, and_true]
  exact ⟨ha, hb⟩

theorem bareBraces_keeps_dotless :
    Classified bareBraces ∧ (resolve bareBraces).outcome = .ok bareValues ∧
      ∃ text, IsDotless text ∧ Keeps bareBraces text :=
  ⟨classified_bareBraces, resolve_bareBraces,
    (resolved_values_acceptable classified_bareBraces resolve_bareBraces).2.1.1
      ⟨("a", "\x7bprimary\x7d"), by decide, by decide⟩⟩

/-- Resolution and validation do not agree on all values: text in braces without a dot is
kept by the one and refused by the other. -/
theorem not_all_values_acceptable :
    (¬∀ tokens values, Classified tokens → (resolve tokens).outcome = .ok values →
      ∀ e ∈ values.entries, Hex.isValid e.2 = true ∨ isTokenReference e.2 = true) ∧
    ¬∀ tokens values, Classified tokens → (resolve tokens).outcome = .ok values →
      ∀ ts : List Theme, (∀ t ∈ ts, t.colors = values) →
        ∀ theme role text, validate ts ≠ .error (.invalidColor theme role text) := by
  constructor
  · intro h
    have hvalue := h _ _ classified_bareBraces resolve_bareBraces
      ("a", "\x7bprimary\x7d") (by decide)
    revert hvalue
    decide
  · intro h
    exact h _ _ classified_bareBraces resolve_bareBraces
      [⟨"Royal", "ROYAL", bareValues, none⟩] (by simp) "Royal" "a" "\x7bprimary\x7d" (by decide)

end Swatchbook

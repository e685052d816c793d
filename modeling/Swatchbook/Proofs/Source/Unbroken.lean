import Swatchbook.Proofs.Source.Lines
import Swatchbook.Proofs.Source.Literal
import Swatchbook.Proofs.Source.Names
import Swatchbook.Proofs.Source.Settled

/-! No line of an emitted file is broken by what a user wrote. -/
namespace Swatchbook.Source

instance (s : String) : Decidable (Unbroken s) :=
  inferInstanceAs (Decidable (_ ∧ _))

theorem unbroken_append {s t : String} (hs : Unbroken s) (ht : Unbroken t) : Unbroken (s ++ t) := by
  unfold Unbroken at *
  rw [String.toList_append, List.mem_append, List.mem_append]
  exact ⟨not_or.2 ⟨hs.1, ht.1⟩, not_or.2 ⟨hs.2, ht.2⟩⟩

/-- The bytes that end lines are not among those of a text. They are faster to look
through than its characters. -/
def isUnbroken (s : String) : Bool :=
  s.toByteArray.data.toList.all fun b => b != 10 && b != 13

theorem unbroken_of_isUnbroken {s : String} (h : isUnbroken s = true) : Unbroken s := by
  have hbytes : s.toByteArray.data.toList = s.toList.flatMap String.utf8EncodeChar := by
    rw [← String.utf8Encode_toList, List.utf8Encode, List.data_toByteArray]
  unfold isUnbroken at h
  rw [hbytes, List.all_flatMap, List.all_eq_true] at h
  constructor
  · intro hfeed
    exact absurd (h _ hfeed) (by decide)
  · intro hreturn
    exact absurd (h _ hreturn) (by decide)

theorem forall_unbroken {ls : List String} (h : ls.all isUnbroken = true) :
    ∀ l ∈ ls, Unbroken l :=
  fun l hl => unbroken_of_isUnbroken (List.all_eq_true.1 h l hl)

theorem unbroken_ofList {cs : List Char} (h : ∀ c ∈ cs, c ≠ '\n' ∧ c ≠ '\r') :
    Unbroken (String.ofList cs) := by
  unfold Unbroken
  rw [String.toList_ofList]
  exact ⟨fun hc => (h _ hc).1 rfl, fun hc => (h _ hc).2 rfl⟩

theorem unbroken_of_plain {s : String} (h : Plain s) : Unbroken s := by
  constructor
  · intro hc
    rcases h _ hc (by decide) with hpart | heq
    · cases hpart
    · cases heq
  · intro hc
    rcases h _ hc (by decide) with hpart | heq
    · cases hpart
    · cases heq

theorem unbroken_escape (c : Char) : ∀ d ∈ Text.escape c, d ≠ '\n' ∧ d ≠ '\r' := by
  intro d hd
  by_cases hnamed : c ∈ Text.named
  · have hall : ∀ c ∈ Text.named, ∀ d ∈ Text.escape c, d ≠ '\n' ∧ d ≠ '\r' := by
      simp [Text.named, Text.escape]
    exact hall c hnamed d hd
  · rw [Text.escape_of_not_named hnamed] at hd
    split at hd
    · have hframe : ∀ d ∈ ['\\', 'u', '\x7b'] ++ ['\x7d'], d ≠ '\n' ∧ d ≠ '\r' := by
        simp
      have hdigit : ∀ k, k < 16 → Nat.digitChar k ≠ '\n' ∧ Nat.digitChar k ≠ '\r' := by decide
      rw [List.mem_append, List.mem_append] at hd
      rcases hd with (hd | hd) | hd
      · exact hframe d (List.mem_append_left _ hd)
      · obtain ⟨k, hk, rfl⟩ := Text.mem_toDigits hd
        exact hdigit k hk
      · exact hframe d (List.mem_append_right _ hd)
    · rw [List.mem_singleton.1 hd]
      constructor
      · rintro rfl
        exact hnamed (by decide)
      · rintro rfl
        exact hnamed (by decide)

theorem unbroken_quote (s : String) : Unbroken (Text.quote s) := by
  unfold Text.quote
  apply unbroken_ofList
  intro d hd
  rw [List.mem_append, List.mem_cons, List.mem_flatMap] at hd
  rcases hd with (rfl | ⟨c, -, hd⟩) | hd
  · decide
  · exact unbroken_escape c d hd
  · rw [List.mem_singleton.1 hd]
    decide

theorem unbroken_commentText (s : String) : Unbroken (commentText s) := by
  apply unbroken_ofList
  intro c hc
  obtain ⟨d, -, rfl⟩ := List.mem_map.1 hc
  split
  · decide
  · rename_i hd
    exact (not_or.1 hd).symm

theorem unbroken_line {first last s : String} (hfirst : Unbroken first) (hs : Unbroken s)
    (hlast : Unbroken last) : Unbroken (first ++ s ++ last) :=
  unbroken_append (unbroken_append hfirst hs) hlast

theorem unbroken_docLine {indent : String} (h : Unbroken indent) (text : String) :
    Unbroken (docLine indent text) :=
  unbroken_append (unbroken_append h (by decide)) (unbroken_commentText text)

theorem unbroken_colorValue (n : UInt32) : Unbroken (colorValue n) := by
  apply unbroken_append _ (by decide)
  apply unbroken_append (by decide)
  apply unbroken_ofList
  intro c hc
  unfold hexWord at hc
  obtain ⟨shift, -, rfl⟩ := List.mem_map.1 hc
  have hdigit : ∀ d, d < 16 → hexDigit d ≠ '\n' ∧ hexDigit d ≠ '\r' := by decide
  exact hdigit _ (Nat.mod_lt _ (by decide))

theorem unbroken_toString (n : Nat) : Unbroken (toString n) := by
  rw [Nat.toString_eq_ofList_toDigits]
  apply unbroken_ofList
  intro c hc
  have hdigit := Nat.isDigit_of_mem_toDigits (by decide) (by decide) hc
  constructor
  · rintro rfl
    cases hdigit
  · rintro rfl
    cases hdigit

/-- The names of a plan are legible. -/
structure Legible (p : Plan) : Prop where
  segments_ne : p.ns.segments ≠ []
  segments : ∀ segment ∈ p.ns.segments, isIdentifier segment = true
  properties : ∀ r ∈ p.roles, Plain r.property
  typeNames : ∀ e ∈ p.entries, Plain e.typeName
  variants : ∀ e ∈ p.entries, Plain e.variant

theorem legible_of_build {text : String} {s : ThemeSet} {ns : Namespace} {p : Plan}
    (hns : Namespace.parse text = .ok ns) (h : Plan.build s ns = .ok p) : Legible p := by
  obtain ⟨rfl, hroles, hentries⟩ := Plan.build_eq_ok h
  obtain ⟨hne, hsegments⟩ := parse_eq_ok hns
  refine ⟨hne, fun segment hsegment => (hsegments segment hsegment).identifier, ?_, ?_, ?_⟩
  · intro r hr
    obtain ⟨name, -, hname⟩ := exists_of_forall₂ hroles hr
    exact plain_of_propertyName hname.property
  · intro e he
    obtain ⟨t, -, ht⟩ := exists_of_forall₂ hentries he
    exact plain_of_isIdentifier (typeName_eq_ok ht.typeName).2.1
  · intro e he
    obtain ⟨t, -, ht⟩ := exists_of_forall₂ hentries he
    exact plain_of_variantName? ht.variant (plain_of_typeName ht.typeName)

theorem unbroken_toText {ns : Namespace}
    (h : ∀ segment ∈ ns.segments, isIdentifier segment = true) : Unbroken ns.toText := by
  have hbreak : ∀ c, c ∉ "::".toList → isIdentifierPart c = false → c ∉ ns.toText.toList := by
    intro c hcolons hpart hc
    rcases part_of_mem_intercalate h hc with hc | hc
    · exact hcolons hc
    · rw [hpart] at hc
      cases hc
  exact ⟨hbreak '\n' (by decide) (by decide), hbreak '\r' (by decide) (by decide)⟩

variable {p : Plan}

theorem unbroken_headLines (h : Legible p) : ∀ l ∈ headLines p, Unbroken l := by
  intro l hl
  simp only [headLines, List.mem_cons, List.not_mem_nil, or_false] at hl
  rcases hl with rfl | rfl | rfl
  · decide
  · exact unbroken_append (by decide) (unbroken_toText h.segments)
  · decide

theorem unbroken_traitLines {r : Role} (h : Plain r.property) : ∀ l ∈ traitLines r, Unbroken l := by
  intro l hl
  simp only [traitLines, List.mem_cons, List.not_mem_nil, or_false] at hl
  rcases hl with rfl | rfl
  · exact unbroken_docLine (by decide) r.name
  · exact unbroken_line (by decide) (unbroken_of_plain h) (by decide)

theorem unbroken_methodLines {r : Role} (h : Plain r.property) (color : UInt32) :
    ∀ l ∈ methodLines r color, Unbroken l := by
  intro l hl
  simp only [methodLines, List.mem_cons, List.not_mem_nil, or_false] at hl
  rcases hl with rfl | rfl | rfl
  · exact unbroken_line (by decide) (unbroken_of_plain h) (by decide)
  · exact unbroken_append (by decide) (unbroken_colorValue color)
  · decide

theorem forall_mem_zipWith {α β γ : Type} {P : γ → Prop} {f : α → β → γ} {xs : List α}
    {ys : List β} (h : ∀ x ∈ xs, ∀ y, P (f x y)) : ∀ z ∈ List.zipWith f xs ys, P z := by
  induction xs generalizing ys with
  | nil => simp
  | cons x xs ih =>
      cases ys with
      | nil => simp
      | cons y ys =>
          rw [List.zipWith_cons_cons, List.forall_mem_cons]
          exact ⟨h x (List.mem_cons_self ..) y, ih fun z hz => h z (List.mem_cons_of_mem _ hz)⟩

theorem forall_mem_intercalate {P : String → Prop} (hblank : P "") {lss : List (List String)}
    (h : ∀ ls ∈ lss, ∀ l ∈ ls, P l) : ∀ l ∈ List.intercalate [""] lss, P l := by
  induction lss with
  | nil => simp
  | cons ls lss ih =>
      rw [List.forall_mem_cons] at h
      cases lss with
      | nil =>
          rw [List.intercalate_singleton]
          exact h.1
      | cons next lss =>
          rw [List.intercalate_cons_cons]
          simp only [List.forall_mem_append, List.forall_mem_singleton]
          exact ⟨⟨h.1, hblank⟩, ih h.2⟩

theorem unbroken_themeTypeLines {roles : List Role} {e : Entry}
    (hroles : ∀ r ∈ roles, Plain r.property) (he : Plain e.typeName) :
    ∀ l ∈ themeTypeLines roles e, Unbroken l := by
  have htype := unbroken_of_plain he
  have hmethods : ∀ ls ∈ List.zipWith methodLines roles e.colors, ∀ l ∈ ls, Unbroken l :=
    forall_mem_zipWith fun r hr color => unbroken_methodLines (hroles r hr) color
  have hblock := forall_mem_intercalate (by decide) hmethods
  unfold themeTypeLines
  simp only [List.forall_mem_append, List.forall_mem_cons]
  refine ⟨⟨⟨by decide, unbroken_docLine (by decide) _, by decide, ?_, by decide, ?_, by simp⟩, hblock⟩,
    by decide, by simp⟩
  · exact unbroken_line (by decide) htype (by decide)
  · exact unbroken_line (by decide) htype (by decide)

theorem unbroken_colorsFile (h : Legible p) : ∀ l ∈ (colorsFile p).lines, Unbroken l := by
  unfold colorsFile
  simp only [List.forall_mem_append]
  refine ⟨⟨⟨⟨⟨unbroken_headLines h, forall_unbroken (by decide +kernel)⟩,
    forall_unbroken (by decide +kernel)⟩, ?_⟩, by decide⟩, ?_⟩
  · rw [List.forall_mem_flatMap]
    exact fun r hr => unbroken_traitLines (h.properties r hr)
  · rw [List.forall_mem_flatMap]
    exact fun e he => unbroken_themeTypeLines h.properties (h.typeNames e he)

theorem unbroken_textFunctionLines {name : String} (hname : Unbroken name) (text : Entry → String)
    {es : List Entry} (h : ∀ e ∈ es, Plain e.variant) :
    ∀ l ∈ textFunctionLines name text es, Unbroken l := by
  unfold textFunctionLines
  simp only [List.forall_mem_append, List.forall_mem_cons, List.forall_mem_map]
  refine ⟨⟨⟨?_, by decide, by simp⟩, ?_⟩, by decide, by decide, by simp⟩
  · exact unbroken_line (by decide) hname (by decide)
  · intro e he
    have hvariant := unbroken_of_plain (h e he)
    exact unbroken_line (unbroken_line (by decide) hvariant (by decide)) (unbroken_quote _)
      (by decide)

theorem unbroken_enumLines {es : List Entry} (h : ∀ e ∈ es, Plain e.variant) :
    ∀ l ∈ enumLines es, Unbroken l := by
  have hvariant : ∀ e ∈ es, Unbroken e.variant := fun e he => unbroken_of_plain (h e he)
  unfold enumLines
  simp only [List.forall_mem_append]
  refine ⟨⟨⟨⟨⟨⟨⟨⟨forall_unbroken (by decide +kernel), ?_⟩, ?_⟩, ?_⟩, by decide⟩, ?_⟩, by decide⟩, ?_⟩,
    by decide⟩
  · simp only [List.forall_mem_flatMap, variantLines, List.forall_mem_cons]
    intro e he
    refine ⟨unbroken_docLine (by decide) _, ?_, by simp⟩
    exact unbroken_line (by decide) (hvariant e he) (by decide)
  · simp only [List.forall_mem_cons]
    refine ⟨by decide, by decide, by decide, ?_, by simp⟩
    exact unbroken_line (by decide) (unbroken_toString _) (by decide)
  · simp only [List.forall_mem_map]
    intro e he
    exact unbroken_line (by decide) (hvariant e he) (by decide)
  · exact unbroken_textFunctionLines (by decide) _ h
  · exact unbroken_textFunctionLines (by decide) _ h

theorem unbroken_infoLines {roles : List Role} {e : Entry} (hvariant : Plain e.variant)
    (htype : Plain e.typeName) : ∀ l ∈ infoLines roles e, Unbroken l := by
  have hpalette : ∀ l ∈ List.zipWith paletteLine roles e.colors, Unbroken l := by
    apply forall_mem_zipWith
    intro r _ color
    exact unbroken_line (unbroken_line (by decide) (unbroken_quote _) (by decide))
      (unbroken_colorValue _) (by decide)
  unfold infoLines
  simp only [List.forall_mem_append, List.forall_mem_cons]
  refine ⟨⟨⟨by decide, ?_, ?_, ?_, by decide, by simp⟩, ?_⟩, by decide, by decide, by simp⟩
  · exact unbroken_line (by decide) (unbroken_of_plain hvariant) (by decide)
  · exact unbroken_line (by decide) (unbroken_quote _) (by decide)
  · exact unbroken_line (by decide) (unbroken_of_plain htype) (by decide)
  · unfold rolesLines
    split
    · decide
    · simp only [List.forall_mem_append, List.forall_mem_singleton]
      exact ⟨⟨by decide, hpalette⟩, by decide⟩

theorem unbroken_registryFile (h : Legible p) : ∀ l ∈ (registryFile p).lines, Unbroken l := by
  unfold registryFile
  simp only [List.forall_mem_append]
  refine ⟨⟨⟨⟨⟨⟨⟨unbroken_headLines h, ?_⟩, unbroken_enumLines h.variants⟩,
    forall_unbroken (by decide +kernel)⟩, ?_⟩, ?_⟩, by decide⟩, forall_unbroken (by decide +kernel)⟩
  · simp only [List.forall_mem_cons]
    refine ⟨?_, by decide, by simp⟩
    exact unbroken_line (by decide) (unbroken_toText h.segments) (by decide)
  · simp only [List.forall_mem_cons]
    refine ⟨by decide, by decide, ?_, by simp⟩
    exact unbroken_line (by decide) (unbroken_toString _) (by decide)
  · rw [List.forall_mem_flatMap]
    exact fun e he => unbroken_infoLines (h.variants e he) (h.typeNames e he)

end Swatchbook.Source

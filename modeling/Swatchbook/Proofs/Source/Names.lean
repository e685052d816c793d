import Swatchbook.Source.Name
import Swatchbook.Source.Namespace

/-! The characters of emitted names. An identifier is checked only by way of the type
name made of it, but what is not a letter, digit or underscore of ASCII would still
stand in that name. -/
namespace Swatchbook

namespace Text

theorem mem_join {sep : List Char} {ps : List (List Char)} {c : Char} (h : c ∈ join sep ps) :
    c ∈ sep ∨ ∃ p ∈ ps, c ∈ p := by
  induction ps with
  | nil => cases h
  | cons p ps ih =>
      cases ps with
      | nil => exact Or.inr ⟨p, List.mem_singleton.2 rfl, h⟩
      | cons q ps =>
          rw [join, List.append_assoc, List.mem_append, List.mem_append] at h
          rcases h with h | h | h
          · exact Or.inr ⟨p, List.mem_cons_self .., h⟩
          · exact Or.inl h
          · rcases ih h with h | ⟨r, hr, h⟩
            · exact Or.inl h
            · exact Or.inr ⟨r, List.mem_cons_of_mem _ hr, h⟩

theorem join_eq_intercalate (sep : List Char) (ps : List (List Char)) :
    join sep ps = sep.intercalate ps := by
  induction ps with
  | nil => rfl
  | cons p ps ih =>
      cases ps with
      | nil => simp [join]
      | cons q ps => rw [join, ih, List.intercalate_cons_cons]

theorem toList_intercalate (sep : String) (ss : List String) :
    (sep.intercalate ss).toList = join sep.toList (ss.map String.toList) := by
  rw [String.toList_intercalate, join_eq_intercalate]

theorem mem_pieces {sep c : Char} {s : List Char} (h : c ∈ s) (hc : c ≠ sep) :
    ∃ p ∈ pieces sep s, c ∈ p := by
  rw [← join_pieces sep s] at h
  rcases mem_join h with h | h
  · exact absurd (List.mem_singleton.1 h) hc
  · exact h

theorem mem_lowerAfter {c : Char} (hc : c.toNat < 0x80) {before s : List Char} (h : c ∈ s) :
    c.toLower ∈ lowerAfter before s := by
  induction s generalizing before with
  | nil => cases h
  | cons d s ih =>
      rw [lowerAfter, List.mem_append]
      rcases List.mem_cons.1 h with rfl | h
      · left
        have hsigma : c ≠ 'Σ' := by
          rintro rfl
          exact absurd hc (by decide)
        rw [if_neg hsigma, lower, if_pos hc]
        exact List.mem_singleton.2 rfl
      · exact Or.inr (ih h)

theorem mem_capitalize {c : Char} (hc : c.toNat < 0x80) (hupper : c.toUpper = c) {s : List Char}
    (h : c ∈ s) : c ∈ capitalize s := by
  cases s with
  | nil => cases h
  | cons d s =>
      rw [capitalize, List.mem_append]
      rcases List.mem_cons.1 h with rfl | h
      · left
        rw [upper, if_pos hc, hupper]
        exact List.mem_singleton.2 rfl
      · exact Or.inr h

end Text

theorem isUpper_iff {c : Char} : c.isUpper = true ↔ 65 ≤ c.toNat ∧ c.toNat ≤ 90 :=
  decide_eq_true_iff

theorem isLower_iff {c : Char} : c.isLower = true ↔ 97 ≤ c.toNat ∧ c.toNat ≤ 122 := by
  constructor
  · intro h
    obtain ⟨ha, hz⟩ := Bool.and_eq_true_iff.1 h
    exact ⟨of_decide_eq_true ha, of_decide_eq_true hz⟩
  · rintro ⟨ha, hz⟩
    exact Bool.and_eq_true_iff.2 ⟨decide_eq_true ha, decide_eq_true hz⟩

theorem isAlpha_iff {c : Char} : c.isAlpha = true ↔ c.isUpper = true ∨ c.isLower = true :=
  Bool.or_eq_true_iff

theorem isAlphanum_of_isAlpha {c : Char} (h : c.isAlpha = true) : c.isAlphanum = true :=
  Bool.or_eq_true_iff.2 (Or.inl h)

theorem isIdentifierPart_of_isAlpha {c : Char} (h : c.isAlpha = true) : isIdentifierPart c = true :=
  Bool.or_eq_true_iff.2 (Or.inl (isAlphanum_of_isAlpha h))

theorem toLower_of_not_part {c : Char} (h : isIdentifierPart c = false) : c.toLower = c := by
  unfold Char.toLower
  rw [dif_neg]
  intro hupper
  have hpart := isIdentifierPart_of_isAlpha (isAlpha_iff.2 (Or.inl (isUpper_iff.2 hupper)))
  rw [h] at hpart
  cases hpart

theorem toUpper_of_not_part {c : Char} (h : isIdentifierPart c = false) : c.toUpper = c := by
  unfold Char.toUpper
  rw [dif_neg]
  intro hlower
  have hpart := isIdentifierPart_of_isAlpha (isAlpha_iff.2 (Or.inr (isLower_iff.2 hlower)))
  rw [h] at hpart
  cases hpart

theorem isAlphanum_toLower {c : Char} (h : c.isAlphanum = true) :
    c.toLower.isAlphanum = true := by
  unfold Char.toLower
  split
  · rename_i hupper
    obtain ⟨hA, hZ⟩ := isUpper_iff.1 (decide_eq_true hupper)
    have hsmall : c.toNat + 32 < 4294967296 := by omega
    have hsum : (c.val + ('a'.val - 'A'.val)).toNat = c.toNat + 32 :=
      (UInt32.toNat_add _ _).trans (Nat.mod_eq_of_lt hsmall)
    apply isAlphanum_of_isAlpha
    refine isAlpha_iff.2 (Or.inr (isLower_iff.2 ?_))
    change 97 ≤ (c.val + ('a'.val - 'A'.val)).toNat ∧ (c.val + ('a'.val - 'A'.val)).toNat ≤ 122
    omega
  · exact h

theorem isIdentifierPart_of_isIdentifier {s : String} (h : isIdentifier s = true) {c : Char}
    (hc : c ∈ s.toList) : isIdentifierPart c = true := by
  unfold isIdentifier at h
  cases hs : s.toList with
  | nil =>
      rw [hs] at hc
      cases hc
  | cons d r =>
      rw [hs] at hc h
      simp only [Bool.and_eq_true, List.all_eq_true] at h
      rcases List.mem_cons.1 hc with rfl | hc
      · have hstart := h.1.1
        simp only [isIdentifierStart, isIdentifierPart, Char.isAlphanum, Bool.or_eq_true] at hstart ⊢
        rcases hstart with hstart | hstart
        · exact Or.inl (Or.inl hstart)
        · exact Or.inr hstart
      · exact h.1.2 c hc

namespace Source

section Segments

variable {segments : List String} (h : ∀ segment ∈ segments, isIdentifier segment = true)

include h

theorem not_mem_segment {c : Char} (hc : isIdentifierPart c = false) :
    ∀ p ∈ segments.map String.toList, c ∉ p := by
  intro p hp hmem
  obtain ⟨segment, hsegment, rfl⟩ := List.mem_map.1 hp
  have hpart := isIdentifierPart_of_isIdentifier (h segment hsegment) hmem
  rw [hc] at hpart
  cases hpart

theorem part_of_mem_intercalate {sep : String} {c : Char}
    (hc : c ∈ (sep.intercalate segments).toList) : c ∈ sep.toList ∨ isIdentifierPart c = true := by
  rw [Text.toList_intercalate] at hc
  apply (Text.mem_join hc).imp_right
  rintro ⟨p, hp, hc⟩
  obtain ⟨segment, hsegment, rfl⟩ := List.mem_map.1 hp
  exact isIdentifierPart_of_isIdentifier (h segment hsegment) hc

end Segments

/-- A text whose ASCII characters are those of names. -/
def Plain (s : String) : Prop :=
  ∀ c ∈ s.toList, c.toNat < 0x80 → isIdentifierPart c = true ∨ c = '#'

theorem plain_of_isIdentifier {s : String} (h : isIdentifier s = true) : Plain s :=
  fun _ hc _ => Or.inl (isIdentifierPart_of_isIdentifier h hc)

/-- A word of the emitted language that names nothing, unless it is marked as raw. -/
def IsKeyword (name : String) : Prop :=
  name ∈ keywords ∨ name ∈ pathKeywords

structure IsName (name : String) : Prop where
  identifier : isIdentifier name = true
  not_keyword : ¬IsKeyword name

theorem typeName_eq_ok {identifier name : String} (h : typeName identifier = .ok name) :
    name = joinedName identifier ∧ isIdentifier name = true ∧ name ≠ "Self" := by
  unfold typeName at h
  simp only at h
  split at h
  · rename_i hname
    cases h
    rw [Bool.and_eq_true, bne_iff_ne] at hname
    exact ⟨rfl, hname⟩
  · cases h

theorem mem_joinedName {identifier : String} {c : Char} (hc : c.toNat < 0x80)
    (hpart : isIdentifierPart c = false) (h : c ∈ identifier.toList) :
    c ∈ (joinedName identifier).toList := by
  have hunder : c ≠ '_' := by
    rintro rfl
    cases hpart
  have hlower : c.toLower ∈ Text.lowerText identifier.toList := Text.mem_lowerAfter hc h
  rw [toLower_of_not_part hpart] at hlower
  obtain ⟨piece, hpiece, hmem⟩ := Text.mem_pieces hlower hunder
  rw [joinedName, String.toList_ofList, List.mem_flatten]
  exact ⟨_, List.mem_map_of_mem hpiece, Text.mem_capitalize hc (toUpper_of_not_part hpart) hmem⟩

theorem plain_of_typeName {identifier name : String} (h : typeName identifier = .ok name) :
    Plain identifier := by
  intro c hc hascii
  obtain ⟨rfl, hname, -⟩ := typeName_eq_ok h
  left
  cases hpart : isIdentifierPart c with
  | true => rfl
  | false =>
      have hmem := mem_joinedName hascii hpart hc
      rw [isIdentifierPart_of_isIdentifier hname hmem] at hpart
      cases hpart

theorem plain_raw {name : String} (h : Plain name) : Plain ("r#" ++ name) := by
  intro c hc hascii
  rw [String.toList_append, List.mem_append] at hc
  rcases hc with hc | hc
  · have hmark : ∀ d ∈ "r#".toList, isIdentifierPart d = true ∨ d = '#' := by
      simp [isIdentifierPart]
    exact hmark c hc
  · exact h c hc hascii

theorem plain_of_rawName? {name raw : String} (h : rawName? name = some raw) (hname : Plain name) :
    Plain raw := by
  unfold rawName? at h
  split at h
  · cases h
  · split at h
    · cases h
      exact plain_raw hname
    · cases h
      exact hname

theorem plain_of_variantName? {identifier variant : String}
    (h : variantName? identifier = some variant) (hidentifier : Plain identifier) :
    Plain variant := by
  unfold variantName? at h
  rw [Option.filter_eq_some_iff] at h
  exact plain_of_rawName? h.1 hidentifier

theorem plain_of_propertyName {role property : String} (h : propertyName role = .ok property) :
    Plain property := by
  unfold propertyName at h
  split at h
  · cases h
  · rename_i c r hfilter
    split at h
    · cases h
    · split at h
      · rename_i name hname
        cases h
        apply plain_of_rawName? hname
        intro d hd _
        have halnum : d.isAlphanum = true := by
          have hall : ∀ x ∈ c :: r, x.isAlphanum = true := by
            rw [← hfilter]
            intro x hx
            exact (List.mem_filter.1 hx).2
          rw [String.toList_ofList] at hd
          rcases List.mem_cons.1 hd with rfl | hd
          · exact isAlphanum_toLower (hall c (List.mem_cons_self ..))
          · exact hall d (List.mem_cons_of_mem _ hd)
        left
        rw [isIdentifierPart, halnum, Bool.true_or]
      · cases h

theorem segmentFault?_eq_none_iff {segment : String} :
    Namespace.segmentFault? segment = none ↔ IsName segment := by
  unfold Namespace.segmentFault?
  constructor
  · intro h
    split at h
    · cases h
    · rename_i hidentifier
      split at h
      · cases h
      · rename_i hkeyword
        simp only [Bool.or_eq_true, List.contains_iff_mem] at hkeyword
        exact ⟨by simpa using hidentifier, hkeyword⟩
  · intro h
    have hkeyword : (keywords.contains segment || pathKeywords.contains segment) = false := by
      rw [← Bool.not_eq_true, Bool.or_eq_true, List.contains_iff_mem, List.contains_iff_mem]
      exact h.not_keyword
    rw [h.identifier, hkeyword]
    rfl

theorem parse_eq_ok_iff {text : String} {ns : Namespace} :
    Namespace.parse text = .ok ns ↔
      Namespace.split (Namespace.body text) = ns.segments ∧
        ∀ segment ∈ ns.segments, IsName segment := by
  unfold Namespace.parse
  simp only
  constructor
  · intro h
    split at h
    · cases h
    · split at h
      · cases h
      · rename_i hfaults
        cases h
        rw [List.findSome?_eq_none_iff] at hfaults
        exact ⟨rfl, fun segment hsegment => segmentFault?_eq_none_iff.1 (hfaults segment hsegment)⟩
  · rintro ⟨hsplit, hnames⟩
    have hbody : ¬(Namespace.body text).isEmpty = true := by
      -- Without a text there is one segment, and that is no name.
      rw [List.isEmpty_iff]
      intro hempty
      rw [hempty] at hsplit
      have hname := (hnames "" (hsplit ▸ List.mem_singleton.2 rfl)).identifier
      exact absurd hname (by decide)
    have hfaults :
        (Namespace.split (Namespace.body text)).findSome? Namespace.segmentFault? = none := by
      rw [List.findSome?_eq_none_iff, hsplit]
      exact fun segment hsegment => segmentFault?_eq_none_iff.2 (hnames segment hsegment)
    rw [if_neg hbody, hfaults, hsplit]

theorem split_ne_nil (cs : List Char) : Namespace.split cs ≠ [] := by
  unfold Namespace.split
  split
  · simp [Text.piecesAtPairs_ne_nil]
  · simp [Text.pieces_ne_nil]

theorem parse_eq_ok {text : String} {ns : Namespace} (h : Namespace.parse text = .ok ns) :
    ns.segments ≠ [] ∧ ∀ segment ∈ ns.segments, IsName segment := by
  obtain ⟨hsplit, hnames⟩ := parse_eq_ok_iff.1 h
  rw [← hsplit] at hnames ⊢
  exact ⟨split_ne_nil _, hnames⟩

end Source

end Swatchbook

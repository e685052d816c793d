import Mathlib.Data.List.TakeWhile
import Swatchbook.Proofs.Consistency
import Swatchbook.Proofs.Source.Legal

/-! Which texts are module paths, told from the segments instead of by cutting the text: names
with two colons between them, or with dots, behind one mention of the crate at most and with
white space around. -/
namespace Swatchbook

namespace Text

structure Trimmed (s t : List Char) : Prop where
  around : ∃ before after, s = before ++ t ++ after ∧ (∀ c ∈ before, isBlank c = true) ∧
    ∀ c ∈ after, isBlank c = true
  first : ∀ c, t.head? = some c → isBlank c = false
  last : ∀ c, t.getLast? = some c → isBlank c = false

theorem dropWhile_eq_self {p : Char → Bool} {s : List Char}
    (h : ∀ c, s.head? = some c → p c = false) : s.dropWhile p = s := by
  cases s with
  | nil => rfl
  | cons c r => rw [List.dropWhile_cons_of_neg (by simp [h c rfl])]

theorem head?_dropWhile {p : Char → Bool} {s : List Char} {c : Char}
    (h : (s.dropWhile p).head? = some c) : p c = false := by
  have := List.head?_dropWhile_not p s
  rwa [h] at this

theorem trimmed_trim (s : List Char) : Trimmed s (trim s) := by
  have hfront := List.takeWhile_append_dropWhile (p := isBlank) (l := s)
  have hback := List.takeWhile_append_dropWhile (p := isBlank) (l := (s.dropWhile isBlank).reverse)
  have hblank : ∀ (t : List Char), ∀ c ∈ t.takeWhile isBlank, isBlank c = true :=
    fun t => List.all_eq_true.1 List.all_takeWhile
  have hsplit : s.dropWhile isBlank =
      trim s ++ ((s.dropWhile isBlank).reverse.takeWhile isBlank).reverse := by
    rw [trim, ← List.reverse_append, hback, List.reverse_reverse]
  refine ⟨⟨s.takeWhile isBlank, ((s.dropWhile isBlank).reverse.takeWhile isBlank).reverse, ?_,
    hblank s, ?_⟩, ?_, ?_⟩
  · rw [List.append_assoc, ← hsplit, hfront]
  · intro c hc
    exact hblank _ c (List.mem_reverse.1 hc)
  · intro c hc
    apply head?_dropWhile (s := s)
    rw [hsplit, List.head?_append, hc, Option.some_or]
  · intro c hc
    rw [trim, List.getLast?_reverse] at hc
    exact head?_dropWhile hc

theorem Trimmed.trim_eq {s t : List Char} (h : Trimmed s t) : trim s = t := by
  obtain ⟨⟨before, after, rfl, hbefore, hafter⟩, hfirst, hlast⟩ := h
  have hafter' : ∀ c ∈ after.reverse, isBlank c = true :=
    fun c hc => hafter c (List.mem_reverse.1 hc)
  have hlast' : ∀ c, t.reverse.head? = some c → isBlank c = false := by
    intro c hc
    rw [List.head?_reverse] at hc
    exact hlast c hc
  rw [trim, List.append_assoc, List.dropWhile_append_of_pos hbefore]
  cases t with
  | nil =>
      rw [List.nil_append, List.dropWhile_eq_nil_iff.2 hafter]
      rfl
  | cons c r =>
      rw [dropWhile_eq_self (s := c :: r ++ after) hfirst, List.reverse_append,
        List.dropWhile_append_of_pos hafter', dropWhile_eq_self hlast', List.reverse_reverse]

theorem trimmed_self {t : List Char} (h : ∀ c ∈ t, isBlank c = false) : Trimmed t t where
  around := ⟨[], [], by simp, by simp, by simp⟩
  first c hc := h c (List.mem_of_head? hc)
  last c hc := h c (List.mem_of_getLast? hc)

theorem not_isBlank_of_part {c : Char} (h : isIdentifierPart c = true) : isBlank c = false :=
  forall_ascii (P := fun c => isIdentifierPart c = true → isBlank c = false) (by decide) c
    (toNat_of_part h) h

end Text

namespace Source.Namespace

/-- A text spells a module path. It cannot do so with and without a mention of the crate, for
no segment is called `crate`. -/
structure SpelledBy (s : String) (ns : Namespace) : Prop where
  ne_nil : ns.segments ≠ []
  words : ∀ segment ∈ ns.segments, IsWord segment
  not_keywords : ∀ segment ∈ ns.segments, segment ∉ keywords ∧ segment ∉ pathKeywords
  spelled : ∃ text path : String, Text.Trimmed s.toList text.toList ∧
    (text = "crate::" ++ path ∨ text = path) ∧
    (path = "::".intercalate ns.segments ∨ path = ".".intercalate ns.segments)

theorem isName_iff {segment : String} :
    IsName segment ↔ IsWord segment ∧ segment ∉ keywords ∧ segment ∉ pathKeywords := by
  rw [← isIdentifier_iff_isWord, ← not_or]
  exact ⟨fun h => ⟨h.identifier, h.not_keyword⟩, fun h => ⟨h.1, h.2⟩⟩

theorem intercalate_split (cs : List Char) :
    String.ofList cs = "::".intercalate (split cs) ∨
      String.ofList cs = ".".intercalate (split cs) := by
  have hmap : ∀ ps : List (List Char), (ps.map String.ofList).map String.toList = ps := by
    intro ps
    rw [List.map_map]
    apply List.map_id''
    simp
  unfold split
  split
  · left
    apply String.toList_injective
    rw [Text.toList_intercalate, hmap, String.toList_ofList]
    exact (Text.join_piecesAtPairs ':' cs).symm
  · right
    apply String.toList_injective
    rw [Text.toList_intercalate, hmap, String.toList_ofList]
    exact (Text.join_pieces '.' cs).symm

theorem crate_mem_split (r : List Char) : "crate" ∈ split ("crate::".toList ++ r) := by
  have happend : "crate::".toList ++ r = "crate".toList ++ ':' :: ':' :: r := rfl
  have hpair : Text.hasPair ':' ("crate::".toList ++ r) = true :=
    Text.hasPair_iff.2 ⟨"crate".toList, r, rfl⟩
  rw [split, if_pos hpair, happend, Text.piecesAtPairs_append (by decide)]
  exact List.mem_cons_self ..

theorem body_eq_iff {s : String} {cs : List Char} (hcrate : ¬"crate::".toList <+: cs) :
    body s = cs ↔ Text.trim s.toList = "crate::".toList ++ cs ∨ Text.trim s.toList = cs := by
  unfold body
  generalize Text.trim s.toList = t
  simp only
  cases hprefix : "crate::".toList.isPrefixOf? t with
  | none =>
      have hnone : t ≠ "crate::".toList ++ cs := by
        rintro rfl
        rw [List.isPrefixOf?_eq_some_iff_append_eq.2 rfl] at hprefix
        cases hprefix
      rw [Option.getD_none, or_iff_right hnone]
  | some r =>
      have ht := List.isPrefixOf?_eq_some_iff_append_eq.1 hprefix
      have hne : t ≠ cs := by
        rintro rfl
        exact hcrate ⟨r, ht⟩
      rw [Option.getD_some, or_iff_left hne, ← ht, List.append_cancel_left_eq]

theorem crate_not_leading {cs : List Char} (h : ∀ segment ∈ split cs, IsName segment) :
    ¬"crate::".toList <+: cs := by
  rintro ⟨r, rfl⟩
  exact (h "crate" (crate_mem_split r)).not_keyword (.inr (by decide))

section Segments

variable {segments : List String} (hne : segments ≠ [])
  (h : ∀ segment ∈ segments, isIdentifier segment = true)

include hne h

theorem split_dots : split (".".intercalate segments).toList = segments := by
  have hpieces := Text.pieces_join (by simpa using hne) (not_mem_segment h (c := '.') (by decide))
  have hpair : ¬Text.hasPair ':' (".".intercalate segments).toList = true := by
    intro hpair
    have hmem := (Text.hasPair_iff.1 hpair).subset (List.mem_cons_self ..)
    rcases part_of_mem_intercalate h hmem with hcolon | hcolon
    · exact absurd hcolon (by decide)
    · exact absurd hcolon (by decide)
  rw [split, if_neg hpair, Text.toList_intercalate]
  change (Text.pieces '.' (Text.join ['.'] _)).map String.ofList = _
  rw [hpieces]
  simp

/-- Two colons are looked for before dots; a path of one name has neither. -/
theorem split_colons : split ("::".intercalate segments).toList = segments := by
  match segments with
  | [] => exact absurd rfl hne
  | [segment] =>
      have hdots := split_dots hne h
      rw [String.intercalate_singleton] at hdots ⊢
      exact hdots
  | segment :: next :: rest =>
      have hpair : Text.hasPair ':' ("::".intercalate (segment :: next :: rest)).toList = true := by
        rw [Text.hasPair_iff, Text.toList_intercalate]
        exact ⟨_, _, rfl⟩
      have hread : readSegments (toText ⟨segment :: next :: rest⟩) = segment :: next :: rest :=
        readSegments_toText hne h
      rw [split, if_pos hpair]
      exact hread

end Segments

theorem spelledBy_toText {ns : Namespace} (hne : ns.segments ≠ [])
    (h : ∀ segment ∈ ns.segments, IsName segment) : SpelledBy ns.toText ns := by
  have hblank : ∀ c ∈ ns.toText.toList, Text.isBlank c = false := by
    intro c hc
    rcases part_of_mem_intercalate (fun segment hsegment => (h segment hsegment).identifier) hc
      with hc | hc
    · have hcolon : c = ':' := by simpa using hc
      rw [hcolon]
      rfl
    · exact Text.not_isBlank_of_part hc
  exact {
    ne_nil := hne
    words := fun segment hsegment => (isName_iff.1 (h segment hsegment)).1
    not_keywords := fun segment hsegment => (isName_iff.1 (h segment hsegment)).2
    spelled := ⟨ns.toText, ns.toText, Text.trimmed_self hblank, .inr rfl, .inl rfl⟩ }

theorem parse_eq_ok_iff_spelledBy {s : String} {ns : Namespace} :
    parse s = .ok ns ↔ SpelledBy s ns := by
  rw [parse_eq_ok_iff]
  constructor
  · rintro ⟨hsplit, hnames⟩
    have hne : ns.segments ≠ [] := hsplit ▸ split_ne_nil _
    have htrim := (body_eq_iff (crate_not_leading (hsplit ▸ hnames))).1 rfl
    refine ⟨hne, fun segment hsegment => (isName_iff.1 (hnames segment hsegment)).1,
      fun segment hsegment => (isName_iff.1 (hnames segment hsegment)).2,
      String.ofList (Text.trim s.toList), String.ofList (body s), ?_, ?_, ?_⟩
    · rw [String.toList_ofList]
      exact Text.trimmed_trim s.toList
    · apply htrim.imp
      · intro hcrate
        rw [hcrate, String.ofList_append, String.ofList_toList]
      · intro hself
        rw [hself]
    · rw [← hsplit]
      exact intercalate_split (body s)
  · rintro ⟨hne, hwords, hkeywords, text, path, htrimmed, htext, hpath⟩
    have hnames : ∀ segment ∈ ns.segments, IsName segment :=
      fun segment hsegment => isName_iff.2 ⟨hwords segment hsegment, hkeywords segment hsegment⟩
    have hsplit : split path.toList = ns.segments := by
      have hidentifiers := fun segment hsegment => (hnames segment hsegment).identifier
      rcases hpath with rfl | rfl
      · exact split_colons hne hidentifiers
      · exact split_dots hne hidentifiers
    have hbody : body s = path.toList := by
      rw [body_eq_iff (crate_not_leading (hsplit ▸ hnames)), htrimmed.trim_eq]
      rcases htext with rfl | rfl
      · left
        exact String.toList_append
      · right
        rfl
    rw [hbody]
    exact ⟨hsplit, hnames⟩

/-- A text is read as a module path exactly if it spells that path, and a path that was read is
read again from what it prints. -/
theorem parse_spelled (s : String) (ns : Namespace) :
    (parse s = .ok ns ↔ SpelledBy s ns) ∧ (parse s = .ok ns → parse ns.toText = .ok ns) := by
  refine ⟨parse_eq_ok_iff_spelledBy, fun h => ?_⟩
  obtain ⟨hne, hnames⟩ := parse_eq_ok h
  exact parse_eq_ok_iff_spelledBy.2 (spelledBy_toText hne hnames)

theorem appTheme_spelled :
    parse " crate::app.theme\n" = .ok ⟨["app", "theme"]⟩ ∧
      SpelledBy " crate::app.theme\n" ⟨["app", "theme"]⟩ ∧
      parse "app::theme" = .ok ⟨["app", "theme"]⟩ := by
  have hparse : parse " crate::app.theme\n" = .ok ⟨["app", "theme"]⟩ := by decide
  obtain ⟨hspelled, hprinted⟩ := parse_spelled " crate::app.theme\n" ⟨["app", "theme"]⟩
  exact ⟨hparse, hspelled.1 hparse, hprinted hparse⟩

end Source.Namespace

end Swatchbook

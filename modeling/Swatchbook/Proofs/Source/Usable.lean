import Swatchbook.Proofs.Consistency
import Swatchbook.Proofs.Source.Legal

/-! Which roles and identifiers can be made into names. A name is usable by its first
letter and unless it is one of a few words. -/
namespace Swatchbook

namespace Text

theorem flatten_pieces (sep : Char) (s : List Char) :
    (pieces sep s).flatten = s.filter (· != sep) := by
  induction s with
  | nil => rfl
  | cons c s ih =>
      rw [pieces, List.filter_cons]
      by_cases hc : c = sep
      · rw [if_pos hc, List.flatten_cons, ih, List.nil_append, if_neg (by simpa using hc)]
      · obtain ⟨p, ps, hp⟩ := List.exists_cons_of_ne_nil (pieces_ne_nil sep s)
        rw [hp] at ih ⊢
        rw [if_neg hc, if_pos (bne_iff_ne.2 hc), ← ih]
        rfl

theorem capitalize_ascii {s : List Char} (h : ∀ c ∈ s, c.toNat < 0x80) :
    capitalize s = s.modifyHead Char.toUpper := by
  cases s with
  | nil => rfl
  | cons c r =>
      rw [capitalize, upper, if_pos (h c (List.mem_cons_self ..))]
      rfl

theorem head?_capitalized {ps : List (List Char)} (h : ∀ p ∈ ps, ∀ c ∈ p, c.toNat < 0x80) :
    (ps.map capitalize).flatten.head? = ps.flatten.head?.map Char.toUpper := by
  induction ps with
  | nil => rfl
  | cons p ps ih =>
      rw [List.forall_mem_cons] at h
      rw [List.map_cons, List.flatten_cons, List.flatten_cons, capitalize_ascii h.1]
      cases p with
      | nil => exact ih h.2
      | cons c p => rfl

theorem mem_capitalized {ps : List (List Char)} (h : ∀ p ∈ ps, ∀ c ∈ p, c.toNat < 0x80) {d : Char}
    (hd : d ∈ (ps.map capitalize).flatten) : ∃ c ∈ ps.flatten, d = c ∨ d = c.toUpper := by
  obtain ⟨q, hq, hdq⟩ := List.mem_flatten.1 hd
  obtain ⟨p, hp, rfl⟩ := List.mem_map.1 hq
  rw [capitalize_ascii (h p hp)] at hdq
  cases p with
  | nil => cases hdq
  | cons c r =>
      rcases List.mem_cons.1 hdq with rfl | hdr
      · exact ⟨c, List.mem_flatten.2 ⟨_, hp, List.mem_cons_self ..⟩, Or.inr rfl⟩
      · exact ⟨d, List.mem_flatten.2 ⟨_, hp, List.mem_cons_of_mem _ hdr⟩, Or.inl rfl⟩

end Text

namespace Source

theorem toLower_eq_underscore {c : Char} (h : isIdentifierPart c = true) :
    c.toLower = '_' ↔ c = '_' :=
  forall_ascii (P := fun c => isIdentifierPart c = true → (c.toLower = '_' ↔ c = '_')) (by decide) c
    (toNat_of_part h) h

theorem isIdentifierPart_toUpper {c : Char} (h : isIdentifierPart c = true) :
    isIdentifierPart c.toUpper = true :=
  forall_ascii (P := fun c => isIdentifierPart c = true → isIdentifierPart c.toUpper = true)
    (by decide) c (toNat_of_part h) h

theorem isIdentifierStart_toUpper {c : Char} (h : isIdentifierPart c = true) (hc : c ≠ '_') :
    (isIdentifierStart c.toLower.toUpper = true ↔ c.isAlpha = true) ∧ c.toLower.toUpper ≠ '_' :=
  forall_ascii (P := fun c => isIdentifierPart c = true → c ≠ '_' →
    (isIdentifierStart c.toLower.toUpper = true ↔ c.isAlpha = true) ∧ c.toLower.toUpper ≠ '_')
    (by decide) c (toNat_of_part h) h hc

theorem isIdentifier_iff_of_parts {s : String} {c : Char} {r : List Char} (hs : s.toList = c :: r)
    (hc : c ≠ '_') (hr : ∀ d ∈ r, isIdentifierPart d = true) :
    isIdentifier s = true ↔ isIdentifierStart c = true := by
  have hne : (s != "_") = true := by
    rw [bne_iff_ne]
    rintro rfl
    exact hc (List.cons.inj hs).1.symm
  simp only [isIdentifier, hs, List.all_eq_true.2 hr, hne, Bool.and_true]

variable {identifier : String}

theorem head?_joinedName (h : ∀ c ∈ identifier.toList, isIdentifierPart c = true) :
    (joinedName identifier).toList.head? =
      (identifier.toList.find? (· != '_')).map fun c => c.toLower.toUpper := by
  have hascii : ∀ c ∈ identifier.toList, c.toNat < 0x80 := fun c hc => toNat_of_part (h c hc)
  have hlower : ∀ c ∈ identifier.toList.map Char.toLower, c.toNat < 0x80 := by
    intro c hc
    obtain ⟨d, hd, rfl⟩ := List.mem_map.1 hc
    exact toNat_of_part (isIdentifierPart_toLower (h d hd))
  have hsame : identifier.toList.filter ((· != '_') ∘ Char.toLower) =
      identifier.toList.filter (· != '_') := by
    apply List.filter_congr
    intro c hc
    have hiff := toLower_eq_underscore (h c hc)
    rw [Function.comp_apply, Bool.eq_iff_iff, bne_iff_ne, bne_iff_ne, ne_eq, ne_eq, hiff]
  rw [joinedName, String.toList_ofList, Text.lowerText, Text.lowerAfter_ascii hascii,
    Text.head?_capitalized fun p hp c hc => hlower c (Text.mem_of_mem_pieces hp hc),
    Text.flatten_pieces, List.filter_map, hsame, List.head?_map, List.head?_filter, Option.map_map]
  rfl

theorem part_of_mem_joinedName (h : ∀ c ∈ identifier.toList, isIdentifierPart c = true) {d : Char}
    (hd : d ∈ (joinedName identifier).toList) : isIdentifierPart d = true := by
  have hascii : ∀ c ∈ identifier.toList, c.toNat < 0x80 := fun c hc => toNat_of_part (h c hc)
  have hlower : ∀ c ∈ identifier.toList.map Char.toLower, isIdentifierPart c = true := by
    intro c hc
    obtain ⟨x, hx, rfl⟩ := List.mem_map.1 hc
    exact isIdentifierPart_toLower (h x hx)
  rw [joinedName, String.toList_ofList, Text.lowerText, Text.lowerAfter_ascii hascii] at hd
  obtain ⟨c, hc, hdc⟩ := Text.mem_capitalized
    (fun p hp c hc => toNat_of_part (hlower c (Text.mem_of_mem_pieces hp hc))) hd
  rw [Text.flatten_pieces] at hc
  have hpart := hlower c (List.mem_filter.1 hc).1
  rcases hdc with rfl | rfl
  · exact hpart
  · exact isIdentifierPart_toUpper hpart

/-- An identifier makes a name when a letter comes first after its leading underscores. -/
theorem isIdentifier_joinedName_iff (h : ∀ c ∈ identifier.toList, isIdentifierPart c = true) :
    isIdentifier (joinedName identifier) = true ↔
      ∃ c, identifier.toList.find? (· != '_') = some c ∧ IsLetter c := by
  have hhead := head?_joinedName h
  cases hfind : identifier.toList.find? (· != '_') with
  | none =>
      rw [hfind, Option.map_none, List.head?_eq_none_iff] at hhead
      simp [isIdentifier, hhead]
  | some c =>
      have hpart := h c (List.mem_of_find?_eq_some hfind)
      have hc : c ≠ '_' := by simpa using List.find?_some hfind
      rw [hfind, Option.map_some] at hhead
      obtain ⟨r, hr⟩ := List.head?_eq_some_iff.1 hhead
      have hrest : ∀ d ∈ r, isIdentifierPart d = true := by
        intro d hd
        apply part_of_mem_joinedName h
        rw [hr]
        exact List.mem_cons_of_mem _ hd
      have hstart := isIdentifierStart_toUpper hpart hc
      rw [isIdentifier_iff_of_parts hr hstart.2 hrest, hstart.1, isAlpha_iff_isLetter]
      simp

theorem typeName_eq_ok_iff {name : String} : typeName identifier = .ok name ↔
    name = joinedName identifier ∧ isIdentifier name = true ∧ name ≠ "Self" := by
  constructor
  · exact typeName_eq_ok
  · rintro ⟨rfl, hname, hself⟩
    rw [typeName, if_pos (Bool.and_eq_true_iff.2 ⟨hname, bne_iff_ne.2 hself⟩)]

theorem rawName?_eq_none_iff {name : String} : rawName? name = none ↔ name ∈ pathKeywords := by
  unfold rawName?
  split
  · rename_i hpath
    exact ⟨fun _ => List.contains_iff_mem.1 hpath, fun _ => rfl⟩
  · rename_i hpath
    rw [List.contains_iff_mem] at hpath
    split
    · exact ⟨nofun, fun h => absurd h hpath⟩
    · exact ⟨nofun, fun h => absurd h hpath⟩

theorem variantName?_eq_none_iff : variantName? identifier = none ↔
    identifier ∈ ["ALL", "self", "super", "crate", "Self"] := by
  have hfive : identifier ∈ ["ALL", "self", "super", "crate", "Self"] ↔
      identifier = "ALL" ∨ identifier ∈ pathKeywords := by
    simp only [pathKeywords, List.mem_cons, List.not_mem_nil, or_false]
    tauto
  rw [hfive, variantName?]
  cases hraw : rawName? identifier with
  | none => simp [rawName?_eq_none_iff.1 hraw]
  | some raw =>
      have hpath : identifier ∉ pathKeywords := by
        rw [← rawName?_eq_none_iff, hraw]
        nofun
      have hall : raw = "ALL" ↔ identifier = "ALL" := by
        constructor
        · rintro rfl
          unfold rawName? at hraw
          split at hraw
          · cases hraw
          · split at hraw
            · have hmark := congrArg String.toList (Option.some.inj hraw)
              simp at hmark
            · exact Option.some.inj hraw
        · rintro rfl
          rw [show rawName? "ALL" = some "ALL" by decide] at hraw
          exact (Option.some.inj hraw).symm
      simp [Option.filter, hall, hpath]

def bareProperty (role : String) : String :=
  String.ofList ((role.toList.filter Char.isAlphanum).modifyHead Char.toLower)

def StartsWithLetter (role : String) : Prop :=
  ∃ c, role.toList.find? Char.isAlphanum = some c ∧ ¬IsDigit c

theorem startsWithLetter_iff {role : String} : StartsWithLetter role ↔
    ∃ c r, role.toList.filter Char.isAlphanum = c :: r ∧ c.isDigit = false := by
  unfold StartsWithLetter
  simp only [← List.head?_filter, List.head?_eq_some_iff, ← isDigit_iff_isDigit, Bool.not_eq_true]
  constructor
  · rintro ⟨c, ⟨r, hr⟩, hc⟩
    exact ⟨c, r, hr, hc⟩
  · rintro ⟨c, r, hr, hc⟩
    exact ⟨c, ⟨r, hr⟩, hc⟩

theorem bareProperty_spelled {role : String} (h : StartsWithLetter role) :
    ∃ c r, bareProperty role = String.ofList (c :: r) ∧ c.isLower = true ∧
      ∀ x ∈ r, x.isAlphanum = true := by
  obtain ⟨c, r, hfilter, hdigit⟩ := startsWithLetter_iff.1 h
  have hall : ∀ x ∈ c :: r, x.isAlphanum = true := by
    rw [← hfilter]
    exact fun x hx => (List.mem_filter.1 hx).2
  rw [List.forall_mem_cons] at hall
  refine ⟨c.toLower, r, ?_, isLower_toLower hall.1 hdigit, hall.2⟩
  rw [bareProperty, hfilter]
  rfl

theorem isIdentifier_bareProperty {role : String} (h : StartsWithLetter role) :
    isIdentifier (bareProperty role) = true := by
  obtain ⟨c, r, heq, hc, hr⟩ := bareProperty_spelled h
  rw [heq]
  exact isIdentifier_of_isLower hc hr

theorem propertyName_eq_ok_iff {role property : String} : propertyName role = .ok property ↔
    StartsWithLetter role ∧ rawName? (bareProperty role) = some property := by
  unfold propertyName bareProperty
  rw [startsWithLetter_iff]
  cases hfilter : role.toList.filter Char.isAlphanum with
  | nil =>
      constructor
      · nofun
      · rintro ⟨⟨c, r, hcons, -⟩, -⟩
        cases hcons
  | cons c r =>
      simp only [List.modifyHead_cons]
      by_cases hdigit : c.isDigit = true
      · rw [if_pos hdigit]
        constructor
        · nofun
        · rintro ⟨⟨c', r', hcons, hc⟩, -⟩
          rw [← (List.cons.inj hcons).1, hdigit] at hc
          cases hc
      · rw [if_neg hdigit]
        constructor
        · intro h
          refine ⟨⟨c, r, rfl, by simpa using hdigit⟩, ?_⟩
          split at h
          · rename_i name hname
            cases h
            exact hname
          · cases h
        · rintro ⟨-, hraw⟩
          rw [hraw]

theorem exists_propertyName_iff {role : String} : (∃ property, propertyName role = .ok property) ↔
    StartsWithLetter role ∧ bareProperty role ∉ ["self", "super", "crate"] := by
  simp only [propertyName_eq_ok_iff, exists_and_left, ← Option.isSome_iff_exists]
  refine and_congr_right fun h => ?_
  rw [← not_iff_not, not_not, Bool.not_eq_true, Option.isSome_eq_false_iff,
    Option.isNone_iff_eq_none, rawName?_eq_none_iff]
  obtain ⟨c, r, heq, hc, -⟩ := bareProperty_spelled h
  have hself : bareProperty role ≠ "Self" := by
    intro hself
    rw [heq] at hself
    have hhead := congrArg (fun s => s.toList.head?) hself
    rw [String.toList_ofList] at hhead
    rw [Option.some.inj hhead] at hc
    cases hc
  simp only [pathKeywords, List.mem_cons, List.not_mem_nil, or_false, hself]
  tauto

/-- Two roles have one property when they are written with the same letters and digits. -/
theorem bareProperty_eq_iff {role role' property property' : String}
    (h : propertyName role = .ok property) (h' : propertyName role' = .ok property') :
    bareProperty role = bareProperty role' ↔ property = property' := by
  obtain ⟨hstart, hraw⟩ := propertyName_eq_ok_iff.1 h
  obtain ⟨hstart', hraw'⟩ := propertyName_eq_ok_iff.1 h'
  constructor
  · intro heq
    rw [heq, hraw'] at hraw
    exact (Option.some.inj hraw).symm
  · rintro rfl
    exact rawName?_injective (isIdentifier_bareProperty hstart) (isIdentifier_bareProperty hstart')
      hraw hraw'

end Source

end Swatchbook

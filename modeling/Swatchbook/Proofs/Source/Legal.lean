import Swatchbook.Proofs.Coherence
import Swatchbook.Proofs.Source.Decoded
import Swatchbook.Proofs.Text.UpperCase

/-! The names in the emitted files are names of the emitted language, and no two of them
clash. Variants are not compared when a plan is made: they are distinct because accepted
identifiers are, and because a raw name is no identifier. -/
namespace Swatchbook

theorem toNat_of_part {c : Char} (h : isIdentifierPart c = true) : c.toNat < 0x80 := by
  simp only [isIdentifierPart, Char.isAlphanum, Bool.or_eq_true, isAlpha_iff, isUpper_iff,
    isLower_iff, Char.isDigit, Bool.and_eq_true, decide_eq_true_eq, UInt32.le_iff_toNat_le, ge_iff_le,
    beq_iff_eq] at h
  have hc : c.toNat = c.val.toNat := rfl
  have h9 : '9'.val.toNat = 57 := rfl
  rcases h with h | rfl
  · omega
  · decide

theorem isIdentifierPart_toLower {c : Char} (h : isIdentifierPart c = true) :
    isIdentifierPart c.toLower = true :=
  forall_ascii (P := fun c => isIdentifierPart c = true → isIdentifierPart c.toLower = true)
    (by decide) c (toNat_of_part h) h

theorem isLower_toLower {c : Char} (h : c.isAlphanum = true) (hdigit : c.isDigit = false) :
    c.toLower.isLower = true :=
  forall_ascii (P := fun c => c.isAlphanum = true → c.isDigit = false → c.toLower.isLower = true)
    (by decide) c (toNat_of_part (by rw [isIdentifierPart, h, Bool.true_or])) h hdigit

theorem isUpper_toUpper {c : Char} (h : isIdentifierPart c = true) (hunder : c ≠ '_')
    (hstart : isIdentifierStart c.toUpper = true) : c.toUpper.isUpper = true :=
  forall_ascii (P := fun c => isIdentifierPart c = true → c ≠ '_' →
    isIdentifierStart c.toUpper = true → c.toUpper.isUpper = true)
    (by decide) c (toNat_of_part h) h hunder hstart

theorem exists_of_isIdentifier {s : String} (h : isIdentifier s = true) :
    ∃ c r, s.toList = c :: r ∧ isIdentifierStart c = true := by
  unfold isIdentifier at h
  cases hs : s.toList with
  | nil =>
      rw [hs] at h
      cases h
  | cons c r =>
      rw [hs] at h
      simp only [Bool.and_eq_true] at h
      exact ⟨c, r, rfl, h.1.1⟩

theorem isIdentifier_of_isLower {c : Char} {r : List Char} (hc : c.isLower = true)
    (hr : ∀ x ∈ r, x.isAlphanum = true) : isIdentifier (String.ofList (c :: r)) = true := by
  have halpha := isAlpha_iff.2 (Or.inr hc)
  have hpart : r.all isIdentifierPart = true := by
    rw [List.all_eq_true]
    intro x hx
    rw [isIdentifierPart, hr x hx, Bool.true_or]
  simp only [isIdentifier, String.toList_ofList, isIdentifierStart, halpha, hpart, Bool.true_or,
    Bool.and_self, Bool.true_and, bne_iff_ne]
  intro heq
  have hhead := congrArg String.toList heq
  rw [String.toList_ofList] at hhead
  rw [(List.cons.inj hhead).1] at hc
  exact absurd hc (by decide)

namespace Text

theorem mem_of_mem_pieces {sep c : Char} {s p : List Char} (hp : p ∈ pieces sep s) (hc : c ∈ p) :
    c ∈ s := by
  induction s generalizing p with
  | nil =>
      rw [pieces, List.mem_singleton] at hp
      rwa [hp] at hc
  | cons d s ih =>
      rw [pieces] at hp
      split at hp
      · rcases List.mem_cons.1 hp with rfl | hp
        · cases hc
        · exact List.mem_cons_of_mem _ (ih hp hc)
      · obtain ⟨q, qs, hq⟩ := List.exists_cons_of_ne_nil (pieces_ne_nil sep s)
        rw [hq] at hp ih
        rcases List.mem_cons.1 hp with rfl | hp
        · rcases List.mem_cons.1 hc with rfl | hc
          · exact List.mem_cons_self ..
          · exact List.mem_cons_of_mem _ (ih (List.mem_cons_self ..) hc)
        · exact List.mem_cons_of_mem _ (ih (List.mem_cons_of_mem _ hp) hc)

theorem lowerAfter_ascii {before s : List Char} (h : ∀ c ∈ s, c.toNat < 0x80) :
    lowerAfter before s = s.map Char.toLower := by
  induction s generalizing before with
  | nil => rfl
  | cons c s ih =>
      rw [List.forall_mem_cons] at h
      have hsigma : c ≠ 'Σ' := by
        rintro rfl
        exact absurd h.1 (by decide)
      rw [lowerAfter, if_neg hsigma, lower, if_pos h.1, ih h.2]
      rfl

theorem head_of_capitalized {ps : List (List Char)} (h : ∀ p ∈ ps, ∀ c ∈ p, c.toNat < 0x80)
    {d : Char} {r : List Char} (hd : (ps.map capitalize).flatten = d :: r) :
    ∃ p ∈ ps, ∃ c ∈ p, d = c.toUpper := by
  induction ps with
  | nil => cases hd
  | cons p ps ih =>
      rw [List.forall_mem_cons] at h
      cases p with
      | nil =>
          obtain ⟨p, hp, hc⟩ := ih h.2 hd
          exact ⟨p, List.mem_cons_of_mem _ hp, hc⟩
      | cons c p =>
          rw [List.map_cons, List.flatten_cons, capitalize, upper,
            if_pos (h.1 c (List.mem_cons_self ..))] at hd
          cases hd
          exact ⟨c :: p, List.mem_cons_self .., c, List.mem_cons_self .., rfl⟩

end Text

namespace Source

def IsRawKeyword (name : String) : Prop :=
  ∃ word ∈ keywords, name = "r#" ++ word

def StartsWith (p : Char → Bool) (s : String) : Prop :=
  ∃ c r, s.toList = c :: r ∧ p c = true

/-- A name that starts with a small letter, or a raw keyword. -/
def IsPropertyName (name : String) : Prop :=
  IsName name ∧ StartsWith Char.isLower name ∨ IsRawKeyword name

/-- A name that starts with a capital and is not one of those that the files use. -/
structure IsTypeName (name : String) : Prop extends IsName name where
  capital : StartsWith Char.isUpper name
  not_reserved : name ∉ reservedTypes

/-- A name or a raw keyword, but not the constant that the enum has. -/
def IsVariantName (name : String) : Prop :=
  (IsName name ∨ IsRawKeyword name) ∧ name ≠ "ALL"

theorem rawName?_eq_some {name raw : String} (hname : isIdentifier name = true)
    (h : rawName? name = some raw) :
    raw = name ∧ IsName raw ∨ raw = "r#" ++ name ∧ IsRawKeyword raw := by
  unfold rawName? at h
  split at h
  · cases h
  · rename_i hpath
    rw [List.contains_iff_mem] at hpath
    split at h
    · rename_i hkeyword
      rw [List.contains_iff_mem] at hkeyword
      cases h
      exact Or.inr ⟨rfl, name, hkeyword, rfl⟩
    · rename_i hkeyword
      rw [List.contains_iff_mem] at hkeyword
      cases h
      exact Or.inl ⟨rfl, hname, not_or.2 ⟨hkeyword, hpath⟩⟩

theorem not_isIdentifier_raw (name : String) : isIdentifier ("r#" ++ name) = false := by
  rw [← Bool.not_eq_true]
  intro h
  have hmark := isIdentifierPart_of_isIdentifier h (c := '#') (by simp)
  exact absurd hmark (by decide)

theorem rawName?_injective {name name' raw : String} (hname : isIdentifier name = true)
    (hname' : isIdentifier name' = true) (h : rawName? name = some raw)
    (h' : rawName? name' = some raw) : name = name' := by
  rcases rawName?_eq_some hname h with ⟨hraw, -⟩ | ⟨hraw, -⟩ <;>
    rcases rawName?_eq_some hname' h' with ⟨hraw', -⟩ | ⟨hraw', -⟩
  · rw [← hraw, hraw']
  · rw [← hraw, hraw', not_isIdentifier_raw] at hname
    cases hname
  · rw [← hraw', hraw, not_isIdentifier_raw] at hname'
    cases hname'
  · rw [hraw] at hraw'
    exact String.toList_injective (by simpa using congrArg String.toList hraw')

theorem isPropertyName_of_eq_ok {role property : String} (h : propertyName role = .ok property) :
    IsPropertyName property := by
  unfold propertyName at h
  split at h
  · cases h
  · rename_i c r hfilter
    have hall : ∀ x ∈ c :: r, x.isAlphanum = true := by
      rw [← hfilter]
      intro x hx
      exact (List.mem_filter.1 hx).2
    split at h
    · cases h
    · rename_i hdigit
      rw [Bool.not_eq_true] at hdigit
      split at h
      · rename_i name hname
        cases h
        have hlower := isLower_toLower (hall c (List.mem_cons_self ..)) hdigit
        have hidentifier := isIdentifier_of_isLower hlower
          fun x hx => hall x (List.mem_cons_of_mem _ hx)
        rcases rawName?_eq_some hidentifier hname with ⟨rfl, hlegal⟩ | ⟨-, hraw⟩
        · exact Or.inl ⟨hlegal, c.toLower, r, String.toList_ofList, hlower⟩
        · exact Or.inr hraw
      · cases h

theorem capital_of_typeName {identifier name : String} (hidentifier : isIdentifier identifier = true)
    (h : typeName identifier = .ok name) : StartsWith Char.isUpper name := by
  obtain ⟨rfl, hname, -⟩ := typeName_eq_ok h
  obtain ⟨d, r, hd, hstart⟩ := exists_of_isIdentifier hname
  have hpart : ∀ c ∈ identifier.toList, isIdentifierPart c = true :=
    fun c hc => isIdentifierPart_of_isIdentifier hidentifier hc
  have hlower : ∀ c ∈ Text.lowerText identifier.toList, isIdentifierPart c = true := by
    rw [Text.lowerText, Text.lowerAfter_ascii fun c hc => toNat_of_part (hpart c hc)]
    intro c hc
    obtain ⟨x, hx, rfl⟩ := List.mem_map.1 hc
    exact isIdentifierPart_toLower (hpart x hx)
  have hcapitalized := hd
  rw [joinedName, String.toList_ofList] at hcapitalized
  obtain ⟨p, hp, c, hc, rfl⟩ := Text.head_of_capitalized
    (fun p hp c hc => toNat_of_part (hlower c (Text.mem_of_mem_pieces hp hc))) hcapitalized
  have hunder : c ≠ '_' := by
    rintro rfl
    exact Text.not_mem_of_mem_pieces hp hc
  exact ⟨c.toUpper, r, hd,
    isUpper_toUpper (hlower c (Text.mem_of_mem_pieces hp hc)) hunder hstart⟩

theorem not_isKeyword_of_capital {name : String} (hcapital : StartsWith Char.isUpper name)
    (hself : name ≠ "Self") : ¬IsKeyword name := by
  have hsmall : ∀ word ∈ keywords ++ pathKeywords, word ≠ "Self" →
      word.toList.head?.all Char.isUpper = false := by decide
  intro hkeyword
  obtain ⟨c, r, hname, hc⟩ := hcapital
  have hhead := hsmall name (List.mem_append.2 hkeyword) hself
  rw [hname, List.head?_cons, Option.all_some, hc] at hhead
  cases hhead

theorem isTypeName_of_eq_ok {identifier name : String} (hidentifier : isIdentifier identifier = true)
    (h : typeName identifier = .ok name) (hreserved : name ∉ reservedTypes) : IsTypeName name := by
  have hcapital := capital_of_typeName hidentifier h
  obtain ⟨-, hname, hself⟩ := typeName_eq_ok h
  exact ⟨⟨hname, not_isKeyword_of_capital hcapital hself⟩, hcapital, hreserved⟩

theorem isVariantName_of_eq_some {identifier variant : String}
    (hidentifier : isIdentifier identifier = true) (h : variantName? identifier = some variant) :
    IsVariantName variant := by
  unfold variantName? at h
  rw [Option.filter_eq_some_iff, bne_iff_ne] at h
  refine ⟨?_, h.2⟩
  rcases rawName?_eq_some hidentifier h.1 with ⟨-, hname⟩ | ⟨-, hraw⟩
  · exact Or.inl hname
  · exact Or.inr hraw

theorem variantName?_injective {identifier identifier' variant : String}
    (hidentifier : isIdentifier identifier = true) (hidentifier' : isIdentifier identifier' = true)
    (h : variantName? identifier = some variant) (h' : variantName? identifier' = some variant) :
    identifier = identifier' := by
  unfold variantName? at h h'
  rw [Option.filter_eq_some_iff] at h h'
  exact rawName?_injective hidentifier hidentifier' h.1 h'.1

/-- What is read back from the files of a theme set are legal names: one property for each
role, one type and one variant for each theme, in order and pairwise distinct. Wherever a
name is used it is one of these. -/
structure LegalNames (s : ThemeSet) (colors : ColorsText) (registry : RegistryText) : Prop where
  segments : registry.segments ≠ [] ∧ ∀ x ∈ registry.segments, IsName x
  properties_eq : List.Forall₂ (fun role x => propertyName role = .ok x) s.roleNames
    colors.properties
  properties : ∀ x ∈ colors.properties, IsPropertyName x
  properties_nodup : colors.properties.Nodup
  properties_used : ∀ t ∈ colors.types, t.methods.map Prod.fst = colors.properties
  types_eq : List.Forall₂ (fun t x => typeName t.identifier = .ok x) s.themes
    (colors.types.map TypeText.declared)
  types : ∀ x ∈ colors.types.map TypeText.declared, IsTypeName x
  types_nodup : (colors.types.map TypeText.declared).Nodup
  types_used : ∀ used ∈ [colors.types.map TypeText.implementing,
    registry.themes.map InfoText.typeName], used = colors.types.map TypeText.declared
  variants_eq : List.Forall₂ (fun t x => variantName? t.identifier = some x) s.themes
    registry.variants
  variants : ∀ x ∈ registry.variants, IsVariantName x
  variants_nodup : registry.variants.Nodup
  variants_used : ∀ used ∈ [registry.all, registry.identifiers.map Prod.fst,
    registry.displayNames.map Prod.fst, registry.themes.map InfoText.variant],
    used = registry.variants

theorem map_fst_zipWith {roles : List Role} {colors : List UInt32}
    (h : roles.length = colors.length) :
    (List.zipWith (fun r c => (r.property, c)) roles colors).map Prod.fst =
      roles.map Role.property := by
  induction roles generalizing colors with
  | nil => rfl
  | cons r roles ih =>
      cases colors with
      | nil => cases h
      | cons c colors => simpa using ih (by simpa using h)

theorem nodup_of_variants {ts : List Theme} {variants : List String}
    (hidentifiers : (ts.map Theme.identifier).Nodup)
    (hidentifier : ∀ t ∈ ts, isIdentifier t.identifier = true)
    (h : List.Forall₂ (fun t x => variantName? t.identifier = some x) ts variants) :
    variants.Nodup := by
  induction h with
  | nil => exact List.nodup_nil
  | @cons t x ts variants hx hrest ih =>
      rw [List.map_cons, List.nodup_cons] at hidentifiers
      rw [List.forall_mem_cons] at hidentifier
      refine List.nodup_cons.2 ⟨fun hmem => ?_, ih hidentifiers.2 hidentifier.2⟩
      obtain ⟨u, hu, hux⟩ := exists_of_forall₂ hrest hmem
      have heq := variantName?_injective hidentifier.1 (hidentifier.2 u hu) hx hux
      exact hidentifiers.1 (heq ▸ List.mem_map_of_mem hu)

/-- The names in the files made of accepted themes are legal and do not clash. -/
theorem emitted_names_legal {ts : List Theme} {text : String} {ns : Namespace}
    {files : List SourceFile} (hvalid : validate ts = .ok ()) (hns : Namespace.parse text = .ok ns)
    (h : emit ⟨ts⟩ ns = .ok files) :
    ∃ colorsFile registryFile colors registry, files = [colorsFile, registryFile] ∧
      readColors colorsFile.contents = some colors ∧
      readRegistry registryFile.contents = some registry ∧ LegalNames ⟨ts⟩ colors registry := by
  obtain ⟨p, hplan, rfl⟩ := emit_eq_ok h
  have hlegible := legible_of_build hns hplan
  obtain ⟨hproperties, htypes⟩ := Plan.build_nodup hplan
  obtain ⟨rfl, hroles, hentries⟩ := Plan.build_eq_ok hplan
  obtain ⟨-, htypesNodup, hreserved⟩ := List.nodup_append.1 htypes
  have hcoherent := validate_eq_ok_iff.1 hvalid
  have hdeclared : p.toColors.types.map TypeText.declared = p.entries.map Entry.typeName := by
    simp only [Plan.toColors, List.map_map]
    rfl
  have hvariants : List.Forall₂ (fun t x => variantName? t.identifier = some x) ts
      (p.entries.map Entry.variant) :=
    List.forall₂_map_right_iff.2 (hentries.imp fun t e he => he.variant)
  refine ⟨colorsFile p, registryFile p, p.toColors, p.toRegistry, rfl,
    readColors_colorsFile hlegible, readRegistry_registryFile hlegible, ?_⟩
  exact {
    segments := parse_eq_ok hns
    properties_eq := List.forall₂_map_right_iff.2 (hroles.imp fun name r hr => hr.property)
    properties := by
      intro x hx
      obtain ⟨r, hr, rfl⟩ := List.mem_map.1 hx
      obtain ⟨role, -, hrole⟩ := exists_of_forall₂ hroles hr
      exact isPropertyName_of_eq_ok hrole.property
    properties_nodup := hproperties
    properties_used := by
      intro t ht
      obtain ⟨e, he, rfl⟩ := List.mem_map.1 ht
      obtain ⟨u, -, hu⟩ := exists_of_forall₂ hentries he
      exact map_fst_zipWith hu.colors.length_eq
    types_eq := by
      rw [hdeclared, List.forall₂_map_right_iff]
      exact hentries.imp fun t e he => he.typeName
    types := by
      rw [hdeclared]
      intro x hx
      obtain ⟨e, he, rfl⟩ := List.mem_map.1 hx
      obtain ⟨t, ht, hof⟩ := exists_of_forall₂ hentries he
      exact isTypeName_of_eq_ok (hcoherent.isIdentifier t ht) hof.typeName
        fun hmem => hreserved _ hmem _ hx rfl
    types_nodup := by rwa [hdeclared]
    types_used := by
      rw [hdeclared]
      simp only [Plan.toColors, Plan.toRegistry, List.map_map, List.forall_mem_cons]
      exact ⟨rfl, rfl, by simp⟩
    variants_eq := hvariants
    variants := by
      intro x hx
      obtain ⟨t, ht, hvariant⟩ := exists_of_forall₂ hvariants hx
      exact isVariantName_of_eq_some (hcoherent.isIdentifier t ht) hvariant
    variants_nodup := nodup_of_variants hcoherent.identifiers hcoherent.isIdentifier hvariants
    variants_used := by
      simp only [Plan.toRegistry, List.map_map, List.forall_mem_cons]
      exact ⟨trivial, rfl, rfl, rfl, by simp⟩ }

def spelledLikeKeywords : List Theme :=
  [⟨"Loop", "loop", .ofList [("type", "#000"), ("on-type", "#FFFFFF")], none⟩,
    ⟨"Loop 2", "LOOP_2", .ofList [("type", "#111"), ("on-type", "#80FFFFFF")], none⟩]

theorem spelledLikeKeywords_legal :
    validate spelledLikeKeywords = .ok () ∧ ∃ files, emit ⟨spelledLikeKeywords⟩ ⟨["app"]⟩ = .ok files ∧
      ∃ colorsFile registryFile colors registry, files = [colorsFile, registryFile] ∧
        readColors colorsFile.contents = some colors ∧
        readRegistry registryFile.contents = some registry ∧
        LegalNames ⟨spelledLikeKeywords⟩ colors registry := by
  have hvalid : validate spelledLikeKeywords = .ok () := by decide +kernel
  have hns : Namespace.parse "app" = .ok ⟨["app"]⟩ := by rfl
  have hok : (emit ⟨spelledLikeKeywords⟩ ⟨["app"]⟩).isOk = true := by decide +kernel
  cases hfiles : emit ⟨spelledLikeKeywords⟩ ⟨["app"]⟩ with
  | error e =>
      rw [hfiles] at hok
      cases hok
  | ok files => exact ⟨hvalid, files, rfl, emitted_names_legal hvalid hns hfiles⟩

end Source

end Swatchbook

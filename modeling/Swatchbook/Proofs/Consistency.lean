import Swatchbook.Proofs.Coherence
import Swatchbook.Proofs.Dict
import Swatchbook.Proofs.Source.Names

/-! Which lists of themes are accepted, told by the characters of identifiers, the sets of
roles and the colors, without an order of the themes. -/
namespace Swatchbook

def IsLetter (c : Char) : Prop :=
  'A' ≤ c ∧ c ≤ 'Z' ∨ 'a' ≤ c ∧ c ≤ 'z'

def IsDigit (c : Char) : Prop :=
  '0' ≤ c ∧ c ≤ '9'

/-- A letter or an underscore, then letters, digits and underscores, but not an underscore
alone. -/
structure IsWord (s : String) : Prop where
  spelled : ∃ c r, s.toList = c :: r ∧ (IsLetter c ∨ c = '_') ∧
    ∀ d ∈ r, IsLetter d ∨ IsDigit d ∨ d = '_'
  ne_underscore : s ≠ "_"

theorem isAlpha_iff_isLetter {c : Char} : c.isAlpha = true ↔ IsLetter c := by
  rw [isAlpha_iff, isUpper_iff, isLower_iff]
  exact Iff.rfl

theorem isDigit_iff_isDigit {c : Char} : c.isDigit = true ↔ IsDigit c := by
  rw [Char.isDigit, Bool.and_eq_true, decide_eq_true_eq, decide_eq_true_eq]
  exact Iff.rfl

theorem isIdentifierStart_iff {c : Char} :
    isIdentifierStart c = true ↔ IsLetter c ∨ c = '_' := by
  rw [isIdentifierStart, Bool.or_eq_true, isAlpha_iff_isLetter, beq_iff_eq]

theorem isIdentifierPart_iff {c : Char} :
    isIdentifierPart c = true ↔ IsLetter c ∨ IsDigit c ∨ c = '_' := by
  rw [isIdentifierPart, Char.isAlphanum, Bool.or_eq_true, Bool.or_eq_true, isAlpha_iff_isLetter,
    isDigit_iff_isDigit, beq_iff_eq, or_assoc]

theorem isIdentifier_iff_isWord {s : String} : isIdentifier s = true ↔ IsWord s := by
  unfold isIdentifier
  cases hs : s.toList with
  | nil =>
      constructor
      · nofun
      · rintro ⟨⟨c, r, hcons, -⟩, -⟩
        rw [hs] at hcons
        cases hcons
  | cons c r =>
      simp only [Bool.and_eq_true, List.all_eq_true, isIdentifierStart_iff, isIdentifierPart_iff,
        bne_iff_ne]
      constructor
      · rintro ⟨⟨hc, hr⟩, hne⟩
        exact ⟨⟨c, r, hs, hc, hr⟩, hne⟩
      · rintro ⟨⟨c', r', hcons, hc, hr⟩, hne⟩
        rw [hs, List.cons.injEq] at hcons
        obtain ⟨rfl, rfl⟩ := hcons
        exact ⟨⟨hc, hr⟩, hne⟩

/-- What accepted themes have in common and in what they differ; nothing here depends on
their order. -/
structure Consistent (ts : List Theme) : Prop where
  nonempty : ts ≠ []
  displayNames : (ts.map Theme.displayName).Nodup
  identifiers : (ts.map Theme.identifier).Nodup
  words : ∀ t ∈ ts, IsWord t.identifier
  roles : ∀ t ∈ ts, ∀ u ∈ ts, ∀ role, role ∈ t.roleNames ↔ role ∈ u.roleNames
  values : ∀ t ∈ ts, ∀ role value, t.color? role = some value →
    Hex.isValid value = true ∨ isTokenReference value = true

theorem roleNames_eq_iff {t u : Theme} :
    t.roleNames = u.roleNames ↔ ∀ role, role ∈ t.roleNames ↔ role ∈ u.roleNames := by
  constructor
  · intro h role
    rw [h]
  · exact eq_of_increasing t.colors.pairwise_keys u.colors.pairwise_keys

theorem coherent_iff_consistent {ts : List Theme} : Coherent ts ↔ Consistent ts := by
  have hvalues : ∀ t : Theme, (∀ e ∈ t.colors.entries, Validation.isAcceptable e.2 = true) ↔
      ∀ role value, t.color? role = some value →
        Hex.isValid value = true ∨ isTokenReference value = true := by
    intro t
    simp only [Prod.forall, Dict.mem_entries_iff, Validation.isAcceptable, Bool.or_eq_true]
    exact Iff.rfl
  constructor
  · intro h
    exact ⟨h.nonempty, h.displayNames, h.identifiers,
      fun t ht => isIdentifier_iff_isWord.1 (h.isIdentifier t ht),
      fun t ht u hu => roleNames_eq_iff.1 (h.roleNames t ht u hu),
      fun t ht => (hvalues t).1 (h.colors t ht)⟩
  · intro h
    exact ⟨h.nonempty, h.displayNames, h.identifiers,
      fun t ht => isIdentifier_iff_isWord.2 (h.words t ht),
      fun t ht u hu => roleNames_eq_iff.2 (h.roles t ht u hu),
      fun t ht => (hvalues t).2 (h.values t ht)⟩

theorem Consistent.perm {ts us : List Theme} (h : Consistent ts) (hperm : us.Perm ts) :
    Consistent us where
  nonempty := by
    rintro rfl
    exact h.nonempty (List.nil_perm.1 hperm)
  displayNames := (hperm.map _).nodup_iff.2 h.displayNames
  identifiers := (hperm.map _).nodup_iff.2 h.identifiers
  words t ht := h.words t (hperm.mem_iff.1 ht)
  roles t ht u hu := h.roles t (hperm.mem_iff.1 ht) u (hperm.mem_iff.1 hu)
  values t ht := h.values t (hperm.mem_iff.1 ht)

theorem ThemeSet.mem_roleNames_iff {s : ThemeSet} {role : String} :
    role ∈ s.roleNames ↔ ∃ t ∈ s.themes, role ∈ t.roleNames := by
  rw [ThemeSet.roleNames, mem_sortedDistinct, List.mem_flatMap]

theorem Consistent.mem_roleNames {ts : List Theme} (h : Consistent ts) {t : Theme} (ht : t ∈ ts)
    {role : String} : role ∈ (ThemeSet.mk ts).roleNames ↔ role ∈ t.roleNames := by
  rw [ThemeSet.mem_roleNames_iff]
  constructor
  · rintro ⟨u, hu, hrole⟩
    exact (h.roles u hu t ht role).1 hrole
  · exact fun hrole => ⟨t, ht, hrole⟩

theorem Consistent.exists_color {ts : List Theme} (h : Consistent ts) {t : Theme} (ht : t ∈ ts)
    {role : String} (hrole : role ∈ (ThemeSet.mk ts).roleNames) :
    ∃ value, t.color? role = some value :=
  Option.isSome_iff_exists.1 (Dict.get?_isSome_iff.2 ((h.mem_roleNames ht).1 hrole))

end Swatchbook

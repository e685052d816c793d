import Swatchbook.Proofs.Consistency

/-! Whom a rejection blames. Of the requirements on the themes the first that fails is
reported: where several themes or texts are at fault together all of them, in order,
otherwise the first theme at fault. -/
namespace Swatchbook

def IsFirst {α : Type} (p : α → Prop) (xs : List α) (x : α) : Prop :=
  ∃ before after, xs = before ++ x :: after ∧ p x ∧ ∀ y ∈ before, ¬p y

/-- The texts with a property, each once and in increasing order. -/
structure Enumerates (ks : List String) (p : String → Prop) : Prop where
  increasing : ks.Pairwise (· < ·)
  mem_iff : ∀ k, k ∈ ks ↔ p k

/-- The roles of the themes are the same, in whatever order. -/
def SameRoles (t u : Theme) : Prop :=
  ∀ role, role ∈ t.roleNames ↔ role ∈ u.roleNames

/-- The theme has a value for the role that is neither a color nor a reference. -/
def Theme.Misuses (t : Theme) (role value : String) : Prop :=
  t.color? role = some value ∧ ¬(Hex.isValid value = true ∨ isTokenReference value = true)

def Distinct (ts : List Theme) : Prop :=
  (ts.map Theme.displayName).Nodup ∧ (ts.map Theme.identifier).Nodup

/-- What each error says of the themes: which of them, or of their names, are at fault, and
that the requirements before this one are met. -/
inductive ValidationError.Blames : ValidationError → List Theme → Prop
  | noThemes : Blames .noThemes []
  | duplicateNames {ts : List Theme} {names : List String} (hsome : names ≠ [])
      (hnames : Enumerates names fun name => 2 ≤ (ts.map Theme.displayName).count name) :
      Blames (.duplicateNames names) ts
  | duplicateIdentifiers {ts : List Theme} {ids : List String}
      (hnames : (ts.map Theme.displayName).Nodup) (hsome : ids ≠ [])
      (hids : Enumerates ids fun id => 2 ≤ (ts.map Theme.identifier).count id) :
      Blames (.duplicateIdentifiers ids) ts
  | invalidIdentifier {ts : List Theme} {t : Theme} (hdistinct : Distinct ts)
      (ht : IsFirst (fun t => ¬IsWord t.identifier) ts t) :
      Blames (.invalidIdentifier t.displayName t.identifier) ts
  | inconsistentRoles {reference t : Theme} {others : List Theme} {missing extra : List String}
      (hdistinct : Distinct (reference :: others))
      (hwords : ∀ t ∈ reference :: others, IsWord t.identifier)
      (ht : IsFirst (fun t => ¬SameRoles t reference) others t)
      (hmissing : Enumerates missing fun role => role ∈ reference.roleNames ∧ role ∉ t.roleNames)
      (hextra : Enumerates extra fun role => role ∈ t.roleNames ∧ role ∉ reference.roleNames)
      (hsome : ¬(missing = [] ∧ extra = [])) :
      Blames (.inconsistentRoles t.displayName reference.displayName missing extra)
        (reference :: others)
  | invalidColor {ts : List Theme} {t : Theme} {role value : String} (hdistinct : Distinct ts)
      (hwords : ∀ t ∈ ts, IsWord t.identifier) (hroles : ∀ t ∈ ts, ∀ u ∈ ts, SameRoles t u)
      (ht : IsFirst (fun t => ∃ role value, t.Misuses role value) ts t)
      (hvalue : t.Misuses role value)
      (hleast : ∀ other value, t.Misuses other value → role ≤ other) :
      Blames (.invalidColor t.displayName role value) ts

theorem IsFirst.exists_cons {α : Type} {p : α → Prop} {xs : List α} {x : α}
    (h : IsFirst p xs x) : ∃ y ys, xs = y :: ys := by
  obtain ⟨before, after, rfl, -⟩ := h
  exact List.exists_cons_of_ne_nil (List.append_ne_nil_of_right_ne_nil _ nofun)

theorem Enumerates.eq {ks ls : List String} {p : String → Prop} (h : Enumerates ks p)
    (h' : Enumerates ls p) : ks = ls :=
  eq_of_increasing h.increasing h'.increasing fun k => (h.mem_iff k).trans (h'.mem_iff k).symm

theorem Enumerates.eq_nil_iff {ks : List String} {p : String → Prop} (h : Enumerates ks p) :
    ks = [] ↔ ∀ k, ¬p k := by
  rw [List.eq_nil_iff_forall_not_mem]
  simp only [h.mem_iff]

theorem sameRoles_iff {t reference : Theme} {missing extra : List String}
    (hmissing : Enumerates missing fun role => role ∈ reference.roleNames ∧ role ∉ t.roleNames)
    (hextra : Enumerates extra fun role => role ∈ t.roleNames ∧ role ∉ reference.roleNames) :
    SameRoles t reference ↔ missing = [] ∧ extra = [] := by
  rw [hmissing.eq_nil_iff, hextra.eq_nil_iff]
  simp only [not_and_not_right, SameRoles]
  exact ⟨fun h => ⟨fun role => (h role).2, fun role => (h role).1⟩,
    fun h role => ⟨h.2 role, h.1 role⟩⟩

theorem enumerates_duplicates (ks : List String) :
    Enumerates (duplicates ks) fun k => 2 ≤ ks.count k where
  increasing := pairwise_sortedDistinct _
  mem_iff k := by
    rw [duplicates, mem_sortedDistinct, List.mem_filter, decide_eq_true_eq]
    exact and_iff_right_of_imp fun h => List.count_pos_iff.1 (Nat.lt_of_succ_lt h)

theorem enumerates_filter_roleNames (t u : Theme) :
    Enumerates (t.roleNames.filter fun role => !u.roleNames.contains role)
      fun role => role ∈ t.roleNames ∧ role ∉ u.roleNames where
  increasing := t.colors.pairwise_keys.sublist List.filter_sublist
  mem_iff role := by simp

theorem find?_eq_some_iff_isFirst {α : Type} {p : α → Bool} {q : α → Prop}
    (h : ∀ x, p x = true ↔ q x) {xs : List α} {x : α} :
    xs.find? p = some x ↔ IsFirst q xs x := by
  rw [List.find?_eq_some_iff_append, IsFirst]
  simp only [Bool.not_eq_true', ← Bool.not_eq_true, h]
  constructor
  · rintro ⟨hx, before, after, rfl, hbefore⟩
    exact ⟨before, after, rfl, hx, hbefore⟩
  · rintro ⟨before, after, rfl, hx, hbefore⟩
    exact ⟨hx, before, after, rfl, hbefore⟩

namespace Validation

theorem isAcceptable_eq_false_iff {value : String} :
    isAcceptable value = false ↔ ¬(Hex.isValid value = true ∨ isTokenReference value = true) := by
  rw [← Bool.not_eq_true, isAcceptable, Bool.or_eq_true]

theorem identifierFault?_eq_some_iff {ts : List Theme} {e : ValidationError} :
    identifierFault? ts = some e ↔ ∃ t, IsFirst (fun t => ¬IsWord t.identifier) ts t ∧
      .invalidIdentifier t.displayName t.identifier = e := by
  rw [identifierFault?, Option.map_eq_some_iff]
  have hword : ∀ t : Theme, (!isIdentifier t.identifier) = true ↔ ¬IsWord t.identifier := by
    intro t
    rw [Bool.not_eq_true', ← Bool.not_eq_true, isIdentifier_iff_isWord]
  simp only [find?_eq_some_iff_isFirst hword]

theorem roleFault?_eq_some_iff {reference : Theme} {ts : List Theme} {e : ValidationError} :
    roleFault? reference ts = some e ↔ ∃ t, IsFirst (fun t => ¬SameRoles t reference) ts t ∧
      .inconsistentRoles t.displayName reference.displayName
        (reference.roleNames.filter fun role => !t.roleNames.contains role)
        (t.roleNames.filter fun role => !reference.roleNames.contains role) = e := by
  rw [roleFault?, Option.map_eq_some_iff]
  have hroles : ∀ t : Theme, (t.roleNames != reference.roleNames) = true ↔
      ¬SameRoles t reference := by
    intro t
    rw [bne_iff_ne, ne_eq, roleNames_eq_iff, SameRoles]
  simp only [find?_eq_some_iff_isFirst hroles]

theorem misuse_eq_some_iff {t : Theme} {role value : String} :
    t.colors.entries.find? (fun e => !isAcceptable e.2) = some (role, value) ↔
      t.Misuses role value ∧ ∀ other value, t.Misuses other value → role ≤ other := by
  have hrefused : ∀ value, (!isAcceptable value) = true ↔
      ¬(Hex.isValid value = true ∨ isTokenReference value = true) := by
    intro value
    rw [Bool.not_eq_true', isAcceptable_eq_false_iff]
  rw [Dict.find?_entries_eq_some_iff (p := fun value => !isAcceptable value)]
  simp only [hrefused, Theme.Misuses, Theme.color?, and_imp, and_assoc]

theorem misuse_eq_none_iff {t : Theme} :
    t.colors.entries.find? (fun e => !isAcceptable e.2) = none ↔
      ¬∃ role value, t.Misuses role value := by
  constructor
  · rintro hnone ⟨role, value, hvalue, hrefused⟩
    have hnot := List.find?_eq_none.1 hnone (role, value) (Dict.mem_entries_iff.2 hvalue)
    rw [isAcceptable_eq_false_iff.2 hrefused] at hnot
    exact hnot rfl
  · intro hnot
    cases hfind : t.colors.entries.find? fun e => !isAcceptable e.2 with
    | none => rfl
    | some e => exact absurd ⟨e.1, e.2, (misuse_eq_some_iff.1 hfind).1⟩ hnot

theorem colorFault?_eq_some_iff {ts : List Theme} {e : ValidationError} :
    colorFault? ts = some e ↔ ∃ t role value,
      IsFirst (fun t => ∃ role value, t.Misuses role value) ts t ∧ t.Misuses role value ∧
        (∀ other value, t.Misuses other value → role ≤ other) ∧
          .invalidColor t.displayName role value = e := by
  rw [colorFault?, List.findSome?_eq_some_iff]
  simp only [Option.map_eq_some_iff, Option.map_eq_none_iff, misuse_eq_none_iff, Prod.exists,
    misuse_eq_some_iff]
  constructor
  · rintro ⟨before, t, after, hts, ⟨role, value, ⟨hvalue, hleast⟩, he⟩, hbefore⟩
    exact ⟨t, role, value, ⟨before, after, hts, ⟨role, value, hvalue⟩, hbefore⟩, hvalue, hleast, he⟩
  · rintro ⟨t, role, value, ⟨before, after, hts, -, hbefore⟩, hvalue, hleast, he⟩
    exact ⟨before, t, after, hts, ⟨role, value, ⟨hvalue, hleast⟩, he⟩, hbefore⟩

/-- Where names and identifiers are distinct the first of the other faults counts. -/
theorem fault?_eq_some_iff_of_distinct {reference : Theme} {others : List Theme}
    (h : Distinct (reference :: others)) {e : ValidationError} :
    fault? (reference :: others) = some e ↔
      identifierFault? (reference :: others) = some e ∨
        (∀ t ∈ reference :: others, IsWord t.identifier) ∧
          (roleFault? reference others = some e ∨
            (∀ t ∈ reference :: others, ∀ u ∈ reference :: others, SameRoles t u) ∧
              colorFault? (reference :: others) = some e) := by
  have hwords : identifierFault? (reference :: others) = none ↔
      ∀ t ∈ reference :: others, IsWord t.identifier := by
    simp only [identifierFault?_eq_none_iff, isIdentifier_iff_isWord]
  have hroles : roleFault? reference others = none ↔
      ∀ t ∈ reference :: others, ∀ u ∈ reference :: others, SameRoles t u := by
    rw [roleFault?_eq_none_iff, forall_roleNames_iff]
    simp only [roleNames_eq_iff, SameRoles]
  have hnames := duplicates_eq_nil_iff.2 h.1
  have hids := duplicates_eq_nil_iff.2 h.2
  unfold fault?
  simp only [hnames, hids, ne_eq, not_true_eq_false, ↓reduceIte, Option.orElse_eq_orElse,
    Option.orElse_eq_or, Option.or_eq_some_iff, hwords, hroles]

theorem fault?_of_duplicateNames {ts : List Theme}
    (h : duplicates (ts.map Theme.displayName) ≠ []) :
    fault? ts = some (.duplicateNames (duplicates (ts.map Theme.displayName))) := by
  cases ts with
  | nil => exact absurd rfl h
  | cons reference others => exact if_pos h

theorem fault?_of_duplicateIdentifiers {ts : List Theme}
    (hnames : (ts.map Theme.displayName).Nodup) (h : duplicates (ts.map Theme.identifier) ≠ []) :
    fault? ts = some (.duplicateIdentifiers (duplicates (ts.map Theme.identifier))) := by
  cases ts with
  | nil => exact absurd rfl h
  | cons reference others =>
      exact (if_neg (not_not_intro (duplicates_eq_nil_iff.2 hnames))).trans (if_pos h)

theorem blames_of_fault? {ts : List Theme} {e : ValidationError} (h : fault? ts = some e) :
    e.Blames ts := by
  by_cases hnames : duplicates (ts.map Theme.displayName) = []
  · by_cases hids : duplicates (ts.map Theme.identifier) = []
    · have hdistinct : Distinct ts :=
        ⟨duplicates_eq_nil_iff.1 hnames, duplicates_eq_nil_iff.1 hids⟩
      cases ts with
      | nil =>
          cases h
          exact .noThemes
      | cons reference others =>
          rcases (fault?_eq_some_iff_of_distinct hdistinct).1 h with
            hidentifier | ⟨hwords, hrole | ⟨hroles, hcolor⟩⟩
          · obtain ⟨t, ht, rfl⟩ := identifierFault?_eq_some_iff.1 hidentifier
            exact .invalidIdentifier hdistinct ht
          · obtain ⟨t, ht, rfl⟩ := roleFault?_eq_some_iff.1 hrole
            have hmissing := enumerates_filter_roleNames reference t
            have hextra := enumerates_filter_roleNames t reference
            obtain ⟨-, -, -, hdiffer, -⟩ := id ht
            exact .inconsistentRoles hdistinct hwords ht hmissing hextra
              fun hnone => hdiffer ((sameRoles_iff hmissing hextra).2 hnone)
          · obtain ⟨t, role, value, ht, hvalue, hleast, rfl⟩ := colorFault?_eq_some_iff.1 hcolor
            exact .invalidColor hdistinct hwords hroles ht hvalue hleast
    · rw [fault?_of_duplicateIdentifiers (duplicates_eq_nil_iff.1 hnames) hids] at h
      cases h
      exact .duplicateIdentifiers (duplicates_eq_nil_iff.1 hnames) hids (enumerates_duplicates _)
  · rw [fault?_of_duplicateNames hnames] at h
    cases h
    exact .duplicateNames hnames (enumerates_duplicates _)

theorem fault?_of_blames {ts : List Theme} {e : ValidationError} (h : e.Blames ts) :
    fault? ts = some e := by
  cases h with
  | noThemes => rfl
  | duplicateNames hsome hnames =>
      obtain rfl := hnames.eq (enumerates_duplicates _)
      exact fault?_of_duplicateNames hsome
  | duplicateIdentifiers hnames hsome hids =>
      obtain rfl := hids.eq (enumerates_duplicates _)
      exact fault?_of_duplicateIdentifiers hnames hsome
  | @invalidIdentifier ts t hdistinct ht =>
      obtain ⟨reference, others, rfl⟩ := ht.exists_cons
      exact (fault?_eq_some_iff_of_distinct hdistinct).2
        (.inl (identifierFault?_eq_some_iff.2 ⟨t, ht, rfl⟩))
  | @inconsistentRoles reference t others missing extra hdistinct hwords ht hmissing hextra hsome =>
      obtain rfl := hmissing.eq (enumerates_filter_roleNames _ _)
      obtain rfl := hextra.eq (enumerates_filter_roleNames _ _)
      exact (fault?_eq_some_iff_of_distinct hdistinct).2
        (.inr ⟨hwords, .inl (roleFault?_eq_some_iff.2 ⟨t, ht, rfl⟩)⟩)
  | @invalidColor ts t role value hdistinct hwords hroles ht hvalue hleast =>
      obtain ⟨reference, others, rfl⟩ := ht.exists_cons
      have hcolor := colorFault?_eq_some_iff.2 ⟨t, role, value, ht, hvalue, hleast, rfl⟩
      exact (fault?_eq_some_iff_of_distinct hdistinct).2 (.inr ⟨hwords, .inr ⟨hroles, hcolor⟩⟩)

end Validation

/-- Themes are refused with an error exactly when the error blames the right ones. -/
theorem rejection_names_offenders (ts : List Theme) (e : ValidationError) :
    validate ts = .error e ↔ e.Blames ts := by
  have hfault : validate ts = .error e ↔ Validation.fault? ts = some e := by
    rw [validate]
    cases Validation.fault? ts <;> simp
  rw [hfault]
  exact ⟨Validation.blames_of_fault?, Validation.fault?_of_blames⟩

end Swatchbook

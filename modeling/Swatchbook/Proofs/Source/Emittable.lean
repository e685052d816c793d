import Swatchbook.Proofs.Except
import Swatchbook.Proofs.Source.Usable

/-! When code can be made of themes. A plan fails only where a name cannot be made, two
names are the same, or a color is missing or not concrete; of accepted themes no color is
missing. -/
namespace Swatchbook.Source

theorem mem_map_iff_of_forall₂ {α β γ : Type} {R : α → β → Prop} {f : α → γ} {xs : List α}
    {ys : List β} (hf : ∀ x y x' y', R x y → R x' y' → (f x = f x' ↔ y = y'))
    (h : List.Forall₂ R xs ys) {x : α} {y : β} (hxy : R x y) : f x ∈ xs.map f ↔ y ∈ ys := by
  induction h with
  | nil => simp
  | cons hxy' _ ih => rw [List.map_cons, List.mem_cons, List.mem_cons, ih, hf _ _ _ _ hxy hxy']

theorem nodup_iff_of_forall₂ {α β γ : Type} {R : α → β → Prop} {f : α → γ} {xs : List α}
    {ys : List β} (hf : ∀ x y x' y', R x y → R x' y' → (f x = f x' ↔ y = y'))
    (h : List.Forall₂ R xs ys) : (xs.map f).Nodup ↔ ys.Nodup := by
  induction h with
  | nil => simp
  | cons hxy hrest ih =>
      rw [List.map_cons, List.nodup_cons, List.nodup_cons, mem_map_iff_of_forall₂ hf hrest hxy, ih]

theorem exists_forall₂ {α β : Type} {R : α → β → Prop} {xs : List α} (h : ∀ x ∈ xs, ∃ y, R x y) :
    ∃ ys, List.Forall₂ R xs ys := by
  induction xs with
  | nil => exact ⟨[], .nil⟩
  | cons x xs ih =>
      rw [List.forall_mem_cons] at h
      obtain ⟨y, hy⟩ := h.1
      obtain ⟨ys, hys⟩ := ih h.2
      exact ⟨y :: ys, .cons hy hys⟩


theorem nodup_bareProperty_iff {names properties : List String}
    (h : List.Forall₂ (fun name property => propertyName name = .ok property) names properties) :
    (names.map bareProperty).Nodup ↔ properties.Nodup :=
  nodup_iff_of_forall₂ (fun _ _ _ _ hname hname' => bareProperty_eq_iff hname hname') h

theorem exists_mapM_iff {α β ε : Type} {f : α → Except ε β} {xs : List α} :
    (∃ ys, xs.mapM f = .ok ys) ↔ ∀ x ∈ xs, ∃ y, f x = .ok y := by
  induction xs with
  | nil => exact ⟨fun _ => nofun, fun _ => ⟨[], rfl⟩⟩
  | cons x xs ih =>
      rw [List.forall_mem_cons, ← ih, List.mapM_cons]
      constructor
      · rintro ⟨ys, h⟩
        obtain ⟨y, hy, h⟩ := bind_eq_ok_iff.1 h
        obtain ⟨rest, hrest, -⟩ := bind_eq_ok_iff.1 h
        exact ⟨⟨y, hy⟩, rest, hrest⟩
      · rintro ⟨⟨y, hy⟩, rest, hrest⟩
        exact ⟨y :: rest, bind_eq_ok_iff.2 ⟨y, hy, bind_eq_ok_iff.2 ⟨rest, hrest, rfl⟩⟩⟩

theorem exists_of_mapM_eq_error {α β ε : Type} {f : α → Except ε β} {xs : List α} {e : ε}
    (h : xs.mapM f = .error e) : ∃ x ∈ xs, f x = .error e := by
  induction xs with
  | nil => cases h
  | cons x xs ih =>
      rw [List.mapM_cons] at h
      cases hx : f x with
      | error e' =>
          rw [hx] at h
          cases h
          exact ⟨x, List.mem_cons_self .., hx⟩
      | ok y =>
          cases hxs : xs.mapM f with
          | error e' =>
              rw [hx, hxs] at h
              cases h
              obtain ⟨x', hx', he⟩ := ih hxs
              exact ⟨x', List.mem_cons_of_mem _ hx', he⟩
          | ok ys =>
              rw [hx, hxs] at h
              cases h

namespace Plan

theorem exists_settleRoles {names properties : List String} {settled : List Role}
    (h : List.Forall₂ (fun name property => propertyName name = .ok property) names properties)
    (hnodup : (settled.map Role.property ++ properties).Nodup) :
    ∃ roles, settleRoles settled names = .ok roles := by
  induction h generalizing settled with
  | nil => exact ⟨settled, rfl⟩
  | @cons name property names properties hproperty _ ih =>
      have hfresh : settled.find? (fun r => r.property == property) = none := by
        rw [List.find?_eq_none]
        intro r hr heq
        rw [beq_iff_eq] at heq
        exact (List.nodup_append.1 hnodup).2.2 _ (List.mem_map_of_mem hr) property
          (List.mem_cons_self ..) heq
      rw [settleRoles, hproperty]
      simp only [hfresh]
      apply ih
      rwa [List.map_append, List.map_singleton, List.append_assoc, List.singleton_append]

theorem exists_settleEntry {roles : List Role} {taken : List String} {t : Theme} {name variant : String}
    (hname : typeName t.identifier = .ok name) (hfresh : name ∉ reservedTypes ++ taken)
    (hvariant : variantName? t.identifier = some variant)
    (hcolors : ∀ r ∈ roles, ∃ color, pack t r.name = .ok color) :
    ∃ e, settleEntry roles taken t = .ok e ∧ e.typeName = name := by
  obtain ⟨colors, hpacked⟩ := exists_mapM_iff.2 hcolors
  refine ⟨⟨t.displayName, t.identifier, name, variant, colors⟩, ?_, rfl⟩
  rw [settleEntry, hname]
  simp only [List.contains_iff_mem, if_neg hfresh, hvariant, hpacked]
  rfl

theorem exists_settleEntries {roles : List Role} {settled : List Entry} {themes : List Theme}
    {names : List String}
    (h : List.Forall₂ (fun t name => typeName t.identifier = .ok name) themes names)
    (hnodup : (reservedTypes ++ settled.map Entry.typeName ++ names).Nodup)
    (hvariants : ∀ t ∈ themes, ∃ variant, variantName? t.identifier = some variant)
    (hcolors : ∀ t ∈ themes, ∀ r ∈ roles, ∃ color, pack t r.name = .ok color) :
    ∃ entries, settleEntries roles settled themes = .ok entries := by
  induction h generalizing settled with
  | nil => exact ⟨settled, rfl⟩
  | @cons t name themes names hname _ ih =>
      rw [List.forall_mem_cons] at hvariants hcolors
      have hfresh : name ∉ reservedTypes ++ settled.map Entry.typeName := fun hmem =>
        (List.nodup_append.1 hnodup).2.2 name hmem name (List.mem_cons_self ..) rfl
      obtain ⟨variant, hvariant⟩ := hvariants.1
      obtain ⟨e, he, rfl⟩ := exists_settleEntry hname hfresh hvariant hcolors.1
      rw [settleEntries, he]
      apply ih _ hvariants.2 hcolors.2
      rwa [List.map_append, List.map_singleton, List.append_assoc, List.append_assoc,
        List.singleton_append, ← List.append_assoc]

theorem exists_pack_iff {t : Theme} {role : String} :
    (∃ color, pack t role = .ok color) ↔
      ∃ value, t.color? role = some value ∧ Hex.isValid value = true := by
  unfold pack Hex.pack
  cases t.color? role with
  | none => simp
  | some value => by_cases hvalid : Hex.isValid value = true <;> simp [hvalid]

theorem missing_of_settleEntries {roles : List Role} {settled : List Entry} {themes : List Theme}
    {theme role : String} (h : settleEntries roles settled themes = .error (.missingRole theme role)) :
    ∃ t ∈ themes, ∃ r ∈ roles, r.name = role ∧ t.color? role = none := by
  induction themes generalizing settled with
  | nil => cases h
  | cons t rest ih =>
      rw [settleEntries] at h
      split at h
      · rename_i fault hfault
        cases h
        unfold settleEntry at hfault
        split at hfault
        · cases hfault
        · split at hfault
          · cases hfault
          · split at hfault
            · cases hfault
            · cases hcolors : roles.mapM fun r => pack t r.name with
              | ok colors =>
                  rw [hcolors] at hfault
                  cases hfault
              | error e =>
                  rw [hcolors] at hfault
                  cases hfault
                  obtain ⟨r, hr, hpack⟩ := exists_of_mapM_eq_error hcolors
                  unfold pack at hpack
                  split at hpack
                  · rename_i hnone
                    cases hpack
                    exact ⟨t, List.mem_cons_self .., r, hr, rfl, hnone⟩
                  · split at hpack <;> cases hpack
      · obtain ⟨u, hu, hmissing⟩ := ih h
        exact ⟨u, List.mem_cons_of_mem _ hu, hmissing⟩

theorem not_missing_of_settleRoles {settled : List Role} {names : List String} {theme role : String} :
    settleRoles settled names ≠ .error (.missingRole theme role) := by
  intro h
  induction names generalizing settled with
  | nil => cases h
  | cons name rest ih =>
      rw [settleRoles] at h
      split at h
      · cases h
      · split at h
        · cases h
        · exact ih h

end Plan

theorem missing_of_emit {s : ThemeSet} {ns : Namespace} {theme role : String}
    (h : emit s ns = .error (.missingRole theme role)) :
    ∃ t ∈ s.themes, role ∈ s.roleNames ∧ t.color? role = none := by
  unfold emit at h
  cases hplan : Plan.build s ns with
  | ok p =>
      rw [hplan] at h
      cases h
  | error e =>
      rw [hplan] at h
      cases h
      unfold Plan.build at hplan
      cases hroles : Plan.settleRoles [] s.roleNames with
      | error e =>
          rw [hroles] at hplan
          cases hplan
          exact absurd hroles Plan.not_missing_of_settleRoles
      | ok roles =>
          cases hentries : Plan.settleEntries roles [] s.themes with
          | ok entries =>
              rw [hroles] at hplan
              simp only [bind, Except.bind, hentries] at hplan
              cases hplan
          | error e =>
              rw [hroles] at hplan
              simp only [bind, Except.bind, hentries] at hplan
              cases hplan
              obtain ⟨t, ht, r, hr, rfl, hnone⟩ := Plan.missing_of_settleEntries hentries
              obtain ⟨new, rfl, hof⟩ := Plan.settleRoles_eq_ok hroles
              obtain ⟨name, hname, hrole⟩ := exists_of_forall₂ hof hr
              exact ⟨t, ht, hrole.name_eq ▸ hname, hnone⟩

/-- Names can be made of all roles and identifiers, no two of them the same, and all
colors are concrete. -/
structure Emittable (s : ThemeSet) : Prop where
  roles : ∀ role ∈ s.roleNames, StartsWithLetter role ∧
    bareProperty role ∉ ["self", "super", "crate"]
  properties : (s.roleNames.map bareProperty).Nodup
  letters : ∀ t ∈ s.themes, ∃ c, t.identifier.toList.find? (· != '_') = some c ∧ IsLetter c
  types : (s.themes.map fun t => joinedName t.identifier).Nodup
  typesFree : ∀ t ∈ s.themes, joinedName t.identifier ≠ "Self" ∧
    joinedName t.identifier ∉ reservedTypes
  variants : ∀ t ∈ s.themes, t.identifier ∉ ["ALL", "self", "super", "crate", "Self"]
  colors : ∀ t ∈ s.themes, ∀ role value, t.color? role = some value → Hex.isValid value = true

variable {ts : List Theme} {ns : Namespace}

theorem exists_typeName_iff {identifier : String} (h : isIdentifier identifier = true) :
    typeName identifier = .ok (joinedName identifier) ↔
      (∃ c, identifier.toList.find? (· != '_') = some c ∧ IsLetter c) ∧
        joinedName identifier ≠ "Self" := by
  rw [typeName_eq_ok_iff, isIdentifier_joinedName_iff fun c hc => isIdentifierPart_of_isIdentifier h hc]
  exact ⟨fun h => h.2, fun h => ⟨rfl, h⟩⟩

theorem emittable_of_build {p : Plan} (hts : Consistent ts) (h : Plan.build ⟨ts⟩ ns = .ok p) :
    Emittable ⟨ts⟩ := by
  obtain ⟨hproperties, htypes⟩ := Plan.build_nodup h
  obtain ⟨-, hroles, hentries⟩ := Plan.build_eq_ok h
  obtain ⟨-, htypesNodup, hreserved⟩ := List.nodup_append.1 htypes
  have hjoined : p.entries.map Entry.typeName = ts.map fun t => joinedName t.identifier := by
    have hsame : List.Forall₂ (fun t e => joinedName t.identifier = e.typeName) ts p.entries :=
      hentries.imp fun t e he => (typeName_eq_ok he.typeName).1.symm
    rw [← List.forall₂_eq_eq_eq, List.forall₂_map_left_iff, List.forall₂_map_right_iff]
    exact hsame.flip.imp fun e t heq => heq.symm
  have hof : ∀ t ∈ ts, ∃ e ∈ p.entries, EntryOf p.roles t e := by
    intro t ht
    obtain ⟨e, he, hte⟩ := exists_of_forall₂ hentries.flip ht
    exact ⟨e, he, hte⟩
  have hnamed : ∀ role ∈ (ThemeSet.mk ts).roleNames, ∃ r ∈ p.roles, RoleOf role r := by
    intro role hrole
    obtain ⟨r, hr, hof⟩ := exists_of_forall₂ hroles.flip hrole
    exact ⟨r, hr, hof⟩
  refine ⟨?_, ?_, ?_, ?_, ?_, ?_, ?_⟩
  · intro role hrole
    obtain ⟨r, -, hr⟩ := hnamed role hrole
    exact exists_propertyName_iff.1 ⟨r.property, hr.property⟩
  · have hlisted : List.Forall₂ (fun name property => propertyName name = .ok property)
        (ThemeSet.mk ts).roleNames (p.roles.map Role.property) :=
      List.forall₂_map_right_iff.2 (hroles.imp fun name r hr => hr.property)
    exact (nodup_bareProperty_iff hlisted).2 hproperties
  · intro t ht
    obtain ⟨e, -, he⟩ := hof t ht
    have hname := he.typeName
    rw [(typeName_eq_ok hname).1] at hname
    exact ((exists_typeName_iff (isIdentifier_iff_isWord.2 (hts.words t ht))).1 hname).1
  · rw [← hjoined]
    exact htypesNodup
  · intro t ht
    obtain ⟨e, he, hof⟩ := hof t ht
    obtain ⟨heq, -, hself⟩ := typeName_eq_ok hof.typeName
    rw [← heq]
    exact ⟨hself, fun hmem => hreserved _ hmem _ (List.mem_map_of_mem he) rfl⟩
  · intro t ht hmem
    obtain ⟨e, -, he⟩ := hof t ht
    have hvariant := he.variant
    rw [variantName?_eq_none_iff.2 hmem] at hvariant
    cases hvariant
  · intro t ht role value hvalue
    have hrole : role ∈ t.roleNames := Dict.mem_keys_of_get? hvalue
    obtain ⟨r, hr, hrole⟩ := hnamed role ((hts.mem_roleNames ht).2 hrole)
    obtain ⟨e, -, he⟩ := hof t ht
    obtain ⟨color, -, hpack⟩ := exists_of_forall₂ he.colors.flip hr
    obtain ⟨value', hvalue', hvalid⟩ := Plan.exists_pack_iff.1 ⟨color, hpack⟩
    rw [hrole.name_eq, hvalue, Option.some.injEq] at hvalue'
    rwa [hvalue']

theorem exists_build_of_emittable (hts : Consistent ts) (h : Emittable ⟨ts⟩) (ns : Namespace) :
    ∃ p, Plan.build ⟨ts⟩ ns = .ok p := by
  obtain ⟨properties, hproperties⟩ := exists_forall₂
    (R := fun name property => propertyName name = .ok property)
    fun role hrole => exists_propertyName_iff.2 (h.roles role hrole)
  have hnodup := (nodup_bareProperty_iff hproperties).1 h.properties
  obtain ⟨roles, hroles⟩ : ∃ roles, Plan.settleRoles [] (ThemeSet.mk ts).roleNames = .ok roles :=
    Plan.exists_settleRoles hproperties hnodup
  obtain ⟨new, hnew, hof⟩ := Plan.settleRoles_eq_ok hroles
  rw [List.nil_append] at hnew
  subst hnew
  have hnames : List.Forall₂ (fun t name => typeName t.identifier = .ok name) ts
      (ts.map fun t => joinedName t.identifier) := by
    rw [List.forall₂_map_right_iff, List.forall₂_same]
    intro t ht
    exact (exists_typeName_iff (isIdentifier_iff_isWord.2 (hts.words t ht))).2
      ⟨h.letters t ht, (h.typesFree t ht).1⟩
  have hdistinct : (reservedTypes ++ [].map Entry.typeName ++
      ts.map fun t => joinedName t.identifier).Nodup := by
    rw [List.map_nil, List.append_nil, List.nodup_append]
    refine ⟨by decide, h.types, ?_⟩
    intro a ha b hb heq
    obtain ⟨t, ht, rfl⟩ := List.mem_map.1 hb
    exact (h.typesFree t ht).2 (heq ▸ ha)
  have hvariants : ∀ t ∈ ts, ∃ variant, variantName? t.identifier = some variant := by
    intro t ht
    rw [← Option.isSome_iff_exists, Option.isSome_iff_ne_none]
    exact fun hnone => h.variants t ht (variantName?_eq_none_iff.1 hnone)
  have hcolors : ∀ t ∈ ts, ∀ r ∈ roles, ∃ color, Plan.pack t r.name = .ok color := by
    intro t ht r hr
    obtain ⟨role, hrole, hrof⟩ := exists_of_forall₂ hof hr
    obtain ⟨value, hvalue⟩ := hts.exists_color ht hrole
    rw [hrof.name_eq]
    exact Plan.exists_pack_iff.2 ⟨value, hvalue, h.colors t ht role value hvalue⟩
  obtain ⟨entries, hentries⟩ := Plan.exists_settleEntries hnames hdistinct hvariants hcolors
  refine ⟨⟨ns, roles, entries⟩, ?_⟩
  rw [Plan.build, hroles]
  simp only [bind, Except.bind, hentries]
  rfl

/-- Themes are accepted exactly when they are consistent, in whatever order they stand.
Code is made of accepted themes exactly when names can be made for them and their colors
are concrete; a role that some theme does not have is never what stops it. -/
theorem accepted_emit_iff (ts : List Theme) :
    (validate ts = .ok () ↔ Consistent ts) ∧
      (∀ us : List Theme, us.Perm ts → (validate us = .ok () ↔ validate ts = .ok ())) ∧
      (validate ts = .ok () → ∀ ns,
        (∀ theme role, emit ⟨ts⟩ ns ≠ .error (.missingRole theme role)) ∧
        ((∃ files, emit ⟨ts⟩ ns = .ok files) ↔ Emittable ⟨ts⟩)) := by
  have hiff : ∀ us : List Theme, validate us = .ok () ↔ Consistent us :=
    fun us => validate_eq_ok_iff.trans coherent_iff_consistent
  refine ⟨hiff ts, ?_, ?_⟩
  · intro us hperm
    rw [hiff, hiff]
    exact ⟨fun h => h.perm hperm.symm, fun h => h.perm hperm⟩
  · intro hvalid ns
    have hts := (hiff ts).1 hvalid
    constructor
    · intro theme role herror
      obtain ⟨t, ht, hrole, hnone⟩ := missing_of_emit herror
      obtain ⟨value, hvalue⟩ := hts.exists_color ht hrole
      rw [hnone] at hvalue
      cases hvalue
    · constructor
      · rintro ⟨files, hfiles⟩
        obtain ⟨p, hp, -⟩ := emit_eq_ok hfiles
        exact emittable_of_build hts hp
      · intro h
        obtain ⟨p, hp⟩ := exists_build_of_emittable hts h ns
        refine ⟨[colorsFile p, registryFile p], ?_⟩
        rw [emit, hp]
        rfl

def lateAndLoop : List Theme :=
  [⟨"Late", "__late", .ofList [("on-type", "#FFF"), ("Type", "#102030")], none⟩,
    ⟨"Loop", "loop", .ofList [("Type", "#111"), ("on-type", "#80FFFFFF")], none⟩]

theorem lateAndLoop_emittable :
    validate lateAndLoop = .ok () ∧ validate lateAndLoop.reverse = .ok () ∧
      (∃ files, emit ⟨lateAndLoop⟩ ⟨["app"]⟩ = .ok files) ∧ Emittable ⟨lateAndLoop⟩ := by
  obtain ⟨-, hperm, hemit⟩ := accepted_emit_iff lateAndLoop
  have hvalid : validate lateAndLoop = .ok () := by decide +kernel
  have hfiles := exists_of_isOk
    (show (emit ⟨lateAndLoop⟩ ⟨["app"]⟩).isOk = true by decide +kernel)
  exact ⟨hvalid, (hperm _ (List.reverse_perm _)).2 hvalid, hfiles, (hemit hvalid _).2.1 hfiles⟩

end Swatchbook.Source

import Swatchbook.Proofs.Alike
import Swatchbook.Source.Emission

/-! What a plan holds. Its roles are those of the theme set, its entries are those of
the themes, each in order, and every name in it comes from the rule for such names. -/
namespace Swatchbook.Source

structure RoleOf (name : String) (r : Role) : Prop where
  name_eq : r.name = name
  property : propertyName name = .ok r.property

/-- A theme with the names made of its identifier and its colors in the order of the
roles. -/
structure EntryOf (roles : List Role) (t : Theme) (e : Entry) : Prop where
  displayName_eq : e.displayName = t.displayName
  identifier_eq : e.identifier = t.identifier
  typeName : Source.typeName t.identifier = .ok e.typeName
  variant : variantName? t.identifier = some e.variant
  colors : List.Forall₂ (fun r c => Plan.pack t r.name = .ok c) roles e.colors

theorem exists_of_forall₂ {α β : Type} {R : α → β → Prop} {xs : List α} {ys : List β}
    (h : List.Forall₂ R xs ys) {y : β} (hy : y ∈ ys) : ∃ x ∈ xs, R x y := by
  induction h with
  | nil => cases hy
  | cons hxy _ ih =>
      rcases List.mem_cons.1 hy with rfl | hy
      · exact ⟨_, List.mem_cons_self .., hxy⟩
      · obtain ⟨x, hx, hxy⟩ := ih hy
        exact ⟨x, List.mem_cons_of_mem _ hx, hxy⟩

namespace Plan

theorem settleRoles_eq_ok {settled roles : List Role} {names : List String}
    (h : settleRoles settled names = .ok roles) :
    ∃ new, roles = settled ++ new ∧ List.Forall₂ RoleOf names new := by
  induction names generalizing settled with
  | nil =>
      cases h
      exact ⟨[], (List.append_nil _).symm, .nil⟩
  | cons name rest ih =>
      rw [settleRoles] at h
      split at h
      · cases h
      · rename_i property hproperty
        split at h
        · cases h
        · obtain ⟨new, rfl, hnew⟩ := ih h
          refine ⟨⟨name, property⟩ :: new, by simp, .cons ⟨rfl, hproperty⟩ hnew⟩

theorem settleEntry_eq_ok {roles : List Role} {taken : List String} {t : Theme} {e : Entry}
    (h : settleEntry roles taken t = .ok e) :
    EntryOf roles t e ∧ e.typeName ∉ reservedTypes ++ taken := by
  unfold settleEntry at h
  split at h
  · cases h
  · rename_i name hname
    split at h
    · cases h
    · rename_i hfresh
      split at h
      · cases h
      · rename_i variant hvariant
        cases hcolors : roles.mapM fun r => pack t r.name with
        | error fault =>
            rw [hcolors] at h
            cases h
        | ok colors =>
            rw [hcolors] at h
            cases h
            rw [List.contains_iff_mem] at hfresh
            exact ⟨⟨rfl, rfl, hname, hvariant, mapM_eq_ok_iff.1 hcolors⟩, hfresh⟩

theorem settleEntries_eq_ok {roles : List Role} {settled entries : List Entry}
    {themes : List Theme} (h : settleEntries roles settled themes = .ok entries) :
    ∃ new, entries = settled ++ new ∧ List.Forall₂ (EntryOf roles) themes new := by
  induction themes generalizing settled with
  | nil =>
      cases h
      exact ⟨[], (List.append_nil _).symm, .nil⟩
  | cons t rest ih =>
      rw [settleEntries] at h
      split at h
      · cases h
      · rename_i e he
        obtain ⟨new, rfl, hnew⟩ := ih h
        exact ⟨e :: new, by simp, .cons (settleEntry_eq_ok he).1 hnew⟩

theorem settleRoles_nodup {settled roles : List Role} {names : List String}
    (h : settleRoles settled names = .ok roles) (hsettled : (settled.map Role.property).Nodup) :
    (roles.map Role.property).Nodup := by
  induction names generalizing settled with
  | nil =>
      cases h
      exact hsettled
  | cons name rest ih =>
      rw [settleRoles] at h
      split at h
      · cases h
      · rename_i property _
        split at h
        · cases h
        · rename_i hfresh
          apply ih h
          rw [List.find?_eq_none] at hfresh
          rw [List.map_append, List.map_singleton, List.nodup_append]
          refine ⟨hsettled, List.pairwise_singleton .., ?_⟩
          intro a ha b hb heq
          obtain ⟨r, hr, rfl⟩ := List.mem_map.1 ha
          rw [List.mem_singleton.1 hb] at heq
          exact hfresh r hr (beq_iff_eq.2 heq)

theorem settleEntries_nodup {roles : List Role} {settled entries : List Entry}
    {themes : List Theme} (h : settleEntries roles settled themes = .ok entries)
    (hsettled : (reservedTypes ++ settled.map Entry.typeName).Nodup) :
    (reservedTypes ++ entries.map Entry.typeName).Nodup := by
  induction themes generalizing settled with
  | nil =>
      cases h
      exact hsettled
  | cons t rest ih =>
      rw [settleEntries] at h
      split at h
      · cases h
      · rename_i e he
        apply ih h
        rw [List.map_append, List.map_singleton, ← List.append_assoc, List.nodup_append]
        refine ⟨hsettled, List.pairwise_singleton .., ?_⟩
        intro a ha b hb heq
        rw [heq, List.mem_singleton.1 hb] at ha
        exact (settleEntry_eq_ok he).2 ha

theorem build_settled {s : ThemeSet} {ns : Namespace} {p : Plan} (h : build s ns = .ok p) :
    p.ns = ns ∧ settleRoles [] s.roleNames = .ok p.roles ∧
      settleEntries p.roles [] s.themes = .ok p.entries := by
  unfold build at h
  cases hroles : settleRoles [] s.roleNames with
  | error e =>
      rw [hroles] at h
      cases h
  | ok roles =>
      rw [hroles] at h
      cases hentries : settleEntries roles [] s.themes with
      | error e =>
          simp only [bind, Except.bind, hentries] at h
          cases h
      | ok entries =>
          simp only [bind, Except.bind, hentries] at h
          cases h
          exact ⟨rfl, rfl, hentries⟩

theorem build_eq_ok {s : ThemeSet} {ns : Namespace} {p : Plan} (h : build s ns = .ok p) :
    p.ns = ns ∧ List.Forall₂ RoleOf s.roleNames p.roles ∧
      List.Forall₂ (EntryOf p.roles) s.themes p.entries := by
  obtain ⟨hns, hroles, hentries⟩ := build_settled h
  obtain ⟨newRoles, hnewRoles, hof⟩ := settleRoles_eq_ok hroles
  obtain ⟨newEntries, hnewEntries, hofEntries⟩ := settleEntries_eq_ok hentries
  rw [List.nil_append] at hnewRoles hnewEntries
  exact ⟨hns, hnewRoles ▸ hof, hnewEntries ▸ hofEntries⟩

theorem build_nodup {s : ThemeSet} {ns : Namespace} {p : Plan} (h : build s ns = .ok p) :
    (p.roles.map Role.property).Nodup ∧
      (reservedTypes ++ p.entries.map Entry.typeName).Nodup := by
  obtain ⟨-, hroles, hentries⟩ := build_settled h
  exact ⟨settleRoles_nodup hroles List.nodup_nil, settleEntries_nodup hentries (by decide)⟩

end Plan

theorem emit_eq_ok {s : ThemeSet} {ns : Namespace} {files : List SourceFile}
    (h : emit s ns = .ok files) :
    ∃ p, Plan.build s ns = .ok p ∧ files = [colorsFile p, registryFile p] := by
  unfold emit at h
  cases hplan : Plan.build s ns with
  | error e =>
      rw [hplan] at h
      cases h
  | ok p =>
      rw [hplan] at h
      cases h
      exact ⟨p, rfl, rfl⟩

end Swatchbook.Source

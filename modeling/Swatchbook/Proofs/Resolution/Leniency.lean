import Swatchbook.Proofs.Resolution.Journal
import Swatchbook.Proofs.Resolution.Origin

/-! What resolution is lenient about, and that it says so once. A token is evaluated once,
after all it depends on, so the warnings stand in an order of dependency. -/
namespace Swatchbook

def Warning.token : Warning → String
  | keepsReference token _ => token
  | dropsAdjustment token _ => token
  | unknownOperation token _ => token

/-- The warnings that a token set calls for: one for each token that is kept as it is, and one
for each token that would adjust such text, to which its base references lead. -/
inductive Warning.Due (tokens : Dict Token) : Warning → Prop
  | keeps {name text : String} {t : Token} (ht : tokens.get? name = some t)
      (hv : t.value = .verbatim text) : Due tokens (.keepsReference name text)
  | drops {name kept : String} {t : Token} {a : Adjustment} (ht : tokens.get? name = some t)
      (ha : t.adjustment = some a) (hv : ∀ text, t.value ≠ .verbatim text)
      (hk : KeptAs tokens name kept) (hinvalid : Hex.isValid kept = false) :
      Due tokens (.dropsAdjustment name kept)

/-- What there is to say about one token when its dependencies have the values `valueOf`. -/
inductive Token.Remarks (valueOf : String → String) (name : String) (t : Token) : Warning → Prop
  | keeps {text : String} (h : t.value = .verbatim text) :
      Remarks valueOf name t (.keepsReference name text)
  | drops {base : String} {a : Adjustment} (h : t.value.StartsAt valueOf base)
      (ha : t.adjustment = some a) (hb : Hex.isValid base = false) :
      Remarks valueOf name t (.dropsAdjustment name base)

variable {tokens : Dict Token}

namespace Token

variable {t : Token} {valueOf : String → String} {name : String}

theorem Remarks.mem_warnings {w : Warning} (h : t.Remarks valueOf name w) :
    w ∈ (t.evaluate name valueOf).warnings := by
  cases h with
  | keeps h =>
      simp only [Token.evaluate, h]
      exact List.mem_singleton_self _
  | drops h ha hb =>
      simp only [evaluate_of_startsAt name h, ha, hb, Bool.false_eq_true, ↓reduceIte]
      exact List.mem_singleton_self _

theorem Equation.warnings_eq {text : String} (h : t.Equation valueOf text) (name : String) :
    (t.evaluate name valueOf).warnings = [] ∨
      ∃ w, t.Remarks valueOf name w ∧ (t.evaluate name valueOf).warnings = [w] := by
  cases h with
  | verbatim h => exact .inr ⟨_, .keeps h, by simp only [Token.evaluate, h]⟩
  | unadjusted h ha =>
      rw [evaluate_of_startsAt name h, ha]
      exact .inl rfl
  | dropped h ha hb =>
      refine .inr ⟨_, .drops h ha hb, ?_⟩
      simp only [evaluate_of_startsAt name h, ha, hb, Bool.false_eq_true, ↓reduceIte]
  | adjusted h ha hb =>
      simp only [evaluate_of_startsAt name h, ha, hb, ↓reduceIte]
      exact .inl rfl

theorem Equation.mem_warnings_iff {text : String} (h : t.Equation valueOf text) {w : Warning} :
    w ∈ (t.evaluate name valueOf).warnings ↔ t.Remarks valueOf name w := by
  refine ⟨fun hw => ?_, Remarks.mem_warnings⟩
  rcases h.warnings_eq name with hnone | ⟨w', hremark, hone⟩
  · rw [hnone] at hw
    cases hw
  · rw [hone, List.mem_singleton] at hw
    exact hw ▸ hremark

theorem Remarks.token_eq {w : Warning} (h : t.Remarks valueOf name w) : w.token = name := by
  cases h <;> rfl

theorem Equation.warnings_sublist {text : String} (h : t.Equation valueOf text) (name : String) :
    ((t.evaluate name valueOf).warnings.map Warning.token).Sublist [name] := by
  rcases h.warnings_eq name with hnone | ⟨w, hremark, hone⟩
  · rw [hnone]
    exact List.nil_sublist _
  · rw [hone, List.map_singleton, hremark.token_eq]

/-- The remarks on a token are the warnings due for it, when each dependency has its value by
recursion. -/
theorem remarks_iff_due (ht : tokens.get? name = some t)
    (hd : ∀ d, DependsOn tokens name d → Means tokens d (valueOf d)) {w : Warning} :
    t.Remarks valueOf name w ↔ w.Due tokens ∧ w.token = name := by
  constructor
  · intro h
    refine ⟨?_, h.token_eq⟩
    cases h with
    | keeps hv => exact .keeps ht hv
    | @drops base a hbase ha hb =>
        generalize hvalue : t.value = value at hbase
        cases hbase with
        | literal hvalid =>
            rw [(Hex.isNormal_normalize hvalid).isValid] at hb
            cases hb
        | @reference target =>
            have hm := hd target (dependsOn_of_reference ht hvalue)
            have hk : KeptAs tokens target (valueOf target) := by
              refine hm.isNormal_or_keptAs.resolve_left fun hnormal => ?_
              rw [hnormal.isValid] at hb
              cases hb
            refine .drops ht ha (fun text hverbatim => ?_) (.reference ht hvalue hk) hb
            rw [hvalue] at hverbatim
            cases hverbatim
  · rintro ⟨hdue, rfl⟩
    cases hdue with
    | keeps ht' hv =>
        cases ht.symm.trans ht'
        exact .keeps hv
    | @drops name kept t' a ht' ha hv hk hinvalid =>
        cases ht.symm.trans ht'
        cases hk with
        | verbatim ht'' hverbatim =>
            cases ht.symm.trans ht''
            exact absurd hverbatim (hv kept)
        | @reference _ target _ _ ht'' hvalue hk =>
            cases ht.symm.trans ht''
            have hm := hd target (dependsOn_of_reference ht hvalue)
            refine .drops ?_ ha hinvalid
            rw [hvalue, ← hk.eq_of_not_isValid hinvalid hm]
            exact .reference

end Token

theorem Warning.Due.token_mem_keys {w : Warning} (h : w.Due tokens) : w.token ∈ tokens.keys := by
  cases h with
  | keeps ht => exact Dict.mem_keys_of_get? ht
  | drops ht => exact Dict.mem_keys_of_get? ht

namespace Search.Journal

variable {values : List (String × String)} {ws : List Warning}

theorem mem_warnings_iff (h : Journal tokens values ws) {w : Warning} :
    w ∈ ws ↔ w.Due tokens ∧ found values w.token = true := by
  induction h with
  | empty => simp [found]
  | @enter name v t values ws before _ ht hd hv ih =>
      have hmeans : ∀ d, DependsOn tokens name d → Means tokens d (valueOf values d) :=
        fun d hdep => before.means d _ (lookup_of_found (hd d ((dependsOn_iff ht).1 hdep)))
      rw [List.mem_append, ih, hv.mem_warnings_iff, Token.remarks_iff_due ht hmeans, found_cons,
        Bool.or_eq_true, beq_iff_eq, ← and_or_left, or_comm]

theorem tokens_sublist (h : Journal tokens values ws) :
    (ws.map Warning.token).Sublist (values.map Prod.fst).reverse := by
  induction h with
  | empty => exact .slnil
  | @enter name v t values ws _ _ _ _ hv ih =>
      rw [List.map_append, List.map_cons, List.reverse_cons]
      exact ih.append (hv.warnings_sublist name)

theorem warnings_ordered (h : Journal tokens values ws) :
    (ws.map Warning.token).Pairwise fun earlier later =>
      ¬Relation.ReflTransGen (DependsOn tokens) earlier later :=
  (List.pairwise_reverse.2 h.ordered).sublist h.tokens_sublist

end Search.Journal

/-- Every leniency is reported, and once: the warnings are those due, no token has two, and
the warning of a token comes after those of all tokens it leads to. In a set whose values
were told apart by their texts, no text that is kept is a color, so every adjustment of it
counts as dropped. -/
theorem leniencies_reported_once {values : Dict String}
    (h : (resolve tokens).outcome = .ok values) :
    (∀ w, w ∈ (resolve tokens).warnings ↔ w.Due tokens) ∧
    ((resolve tokens).warnings.map Warning.token).Nodup ∧
    (resolve tokens).warnings.Pairwise (fun earlier later =>
      ¬Relation.TransGen (DependsOn tokens) earlier.token later.token) ∧
    (Classified tokens → ∀ name kept, KeptAs tokens name kept → Hex.isValid kept = false) := by
  obtain ⟨last, hjournal, hall⟩ := journal_of_resolve h
  have hordered := hjournal.warnings_ordered
  refine ⟨fun w => ?_, ?_, ?_, fun hc name kept hk => hc.not_isValid_of_keptAs hk⟩
  · rw [hjournal.mem_warnings_iff]
    exact and_iff_left_of_imp fun hdue => hall w.token hdue.token_mem_keys
  · refine hordered.imp fun hleads heq => ?_
    rw [heq] at hleads
    exact hleads .refl
  · exact (List.pairwise_map.1 hordered).imp fun hleads hdepends => hleads hdepends.to_reflTransGen

/-- A zone that is kept as it is, its opacity and all, and an edge that would adjust it by way
of a rim. The edge is visited first. -/
def edgedZone : Dict Token :=
  .ofList [("edge", ⟨.classify "\x7bcolor.rim\x7d", some ⟨.lighten, 0.5, none⟩⟩),
    ("rim", ⟨.classify "\x7bcolor.zone\x7d", none⟩),
    ("zone", ⟨.classify "\x7bspacing.sm\x7d", some ⟨.alpha, 0.5, none⟩⟩)]

def edgedValues : Dict String :=
  .ofList [("edge", "\x7bspacing.sm\x7d"), ("rim", "\x7bspacing.sm\x7d"),
    ("zone", "\x7bspacing.sm\x7d")]

private theorem resolve_edgedZone : (resolve edgedZone).outcome = .ok edgedValues := by
  have hzone : Means edgedZone "zone" "\x7bspacing.sm\x7d" :=
    .of_dependencies (fun _ => "") rfl nofun (.verbatim rfl)
  have hrim : Means edgedZone "rim" "\x7bspacing.sm\x7d" :=
    .of_dependencies (fun _ => "\x7bspacing.sm\x7d") rfl
      (List.forall_mem_singleton.2 hzone) (.unadjusted .reference rfl)
  have hedge : Means edgedZone "edge" "\x7bspacing.sm\x7d" :=
    .of_dependencies (fun _ => "\x7bspacing.sm\x7d") rfl
      (List.forall_mem_singleton.2 hrim) (.dropped .reference rfl rfl)
  refine resolve_ofList rfl ?_
  simp only [List.forall_mem_cons, List.not_mem_nil, false_implies, implies_true, and_true]
  exact ⟨hedge, hrim, hzone⟩

theorem edgedZone_reported_once :
    (resolve edgedZone).outcome = .ok edgedValues ∧
      .keepsReference "zone" "\x7bspacing.sm\x7d" ∈ (resolve edgedZone).warnings ∧
      .dropsAdjustment "edge" "\x7bspacing.sm\x7d" ∈ (resolve edgedZone).warnings ∧
      ((resolve edgedZone).warnings.map Warning.token).Nodup ∧
      (resolve edgedZone).warnings.Pairwise (fun earlier later =>
        ¬Relation.TransGen (DependsOn edgedZone) earlier.token later.token) := by
  obtain ⟨hdue, hnodup, hordered, -⟩ := leniencies_reported_once resolve_edgedZone
  have hzone : KeptAs edgedZone "zone" "\x7bspacing.sm\x7d" := .verbatim rfl rfl
  have hrim : KeptAs edgedZone "rim" "\x7bspacing.sm\x7d" := .reference rfl rfl hzone
  refine ⟨resolve_edgedZone, (hdue _).2 (.keeps rfl rfl), (hdue _).2 ?_, hnodup, hordered⟩
  exact .drops rfl rfl nofun (.reference rfl rfl hrim) rfl

end Swatchbook

import Mathlib.Data.Set.Basic
import Swatchbook.Proofs.Resolution.Origin

/-! What a token resolves to is settled by the tokens it leads to. Whatever else stands in
the set, and wherever the search begins, its value is the same. -/
namespace Swatchbook

/-- With each of these tokens, those it depends on are among them too. -/
def DependencyClosed (tokens : Dict Token) (D : Set String) : Prop :=
  ∀ a ∈ D, ∀ b, DependsOn tokens a b → b ∈ D

variable {tokens others : Dict Token} {values otherValues : Dict String} {D : Set String}

/-- A value by recursion never leaves a closed set of tokens. -/
theorem Means.of_agree (hclosed : DependencyClosed tokens D)
    (hsame : ∀ n ∈ D, others.get? n = tokens.get? n) {name text : String}
    (h : Means tokens name text) (hname : name ∈ D) : Means others name text := by
  induction h with
  | @intro name text t valueOf ht hd hv ih =>
      refine .of_dependencies valueOf ((hsame name hname).trans ht) (fun d hmem => ?_) hv
      have hdep := (dependsOn_iff ht).2 hmem
      exact ih d hdep (hclosed name hname d hdep)

theorem get?_eq_of_agree (h : (resolve tokens).outcome = .ok values)
    (h' : (resolve others).outcome = .ok otherValues) (hclosed : DependencyClosed tokens D)
    (hsame : ∀ n ∈ D, others.get? n = tokens.get? n) {name : String} (hname : name ∈ D) :
    otherValues.get? name = values.get? name := by
  obtain ⟨hkeys, hmeans⟩ := means_of_resolve h
  obtain ⟨hkeys', hmeans'⟩ := means_of_resolve h'
  by_cases hk : name ∈ tokens.keys
  · obtain ⟨text, hvalue, hm⟩ := hmeans name hk
    have hother := hm.of_agree hclosed hsame hname
    obtain ⟨text', hvalue', hm'⟩ := hmeans' name hother.mem_keys
    rw [hvalue', hvalue, hm'.unique hother]
  · have hk' : name ∉ others.keys := by
      rwa [← Dict.get?_eq_none_iff, hsame name hname, Dict.get?_eq_none_iff]
    rw [Dict.get?_eq_none_iff.2 (hkeys'.symm ▸ hk'), Dict.get?_eq_none_iff.2 (hkeys.symm ▸ hk)]

theorem resolve_restrict [DecidablePred (· ∈ D)] (h : (resolve tokens).outcome = .ok values)
    (hclosed : DependencyClosed tokens D) :
    (resolve (tokens.restrict (· ∈ D))).outcome = .ok (values.restrict (· ∈ D)) := by
  obtain ⟨hkeys, hmeans⟩ := means_of_resolve h
  have hsame : ∀ n ∈ D, (tokens.restrict (· ∈ D)).get? n = tokens.get? n := by
    intro n hn
    rw [Dict.get?_restrict, if_pos (decide_eq_true hn)]
  refine resolve_of_means (by rw [Dict.keys_restrict, Dict.keys_restrict, hkeys]) ?_
  intro name hname
  rw [Dict.keys_restrict, List.mem_filter, decide_eq_true_eq] at hname
  obtain ⟨hk, hin⟩ := hname
  obtain ⟨text, hvalue, hm⟩ := hmeans name hk
  refine ⟨text, ?_, hm.of_agree hclosed hsame hin⟩
  rw [Dict.get?_restrict, if_pos (decide_eq_true hin), hvalue]

/-- Resolution is local: sets that hold the same tokens under the names of a closed part
give the same values there, and the part by itself resolves to just its share of the values
of the whole. -/
theorem resolution_local [DecidablePred (· ∈ D)] (h : (resolve tokens).outcome = .ok values)
    (hclosed : DependencyClosed tokens D) :
    (∀ others otherValues, (∀ n ∈ D, others.get? n = tokens.get? n) →
      (resolve others).outcome = .ok otherValues →
        ∀ n ∈ D, otherValues.get? n = values.get? n) ∧
    (resolve (tokens.restrict (· ∈ D))).outcome = .ok (values.restrict (· ∈ D)) :=
  ⟨fun _ _ hsame h' _ hn => get?_eq_of_agree h h' hclosed hsame hn, resolve_restrict h hclosed⟩

def veiledPart : Set String :=
  {n | n ∈ ["ink", "pane", "veil"]}

instance : DecidablePred (· ∈ veiledPart) :=
  fun n => inferInstanceAs (Decidable (n ∈ ["ink", "pane", "veil"]))

/-- The veils once more, among tokens that are reached before them and the gap as a color. -/
def hungVeils : Dict Token :=
  .ofList [("awning", ⟨.classify "\x7bcolor.pane\x7d", none⟩),
    ("gap", ⟨.classify "#fff", none⟩),
    ("ink", ⟨.classify "#abc", none⟩),
    ("veil", ⟨.classify "\x7bcolor.ink\x7d", some ⟨.alpha, 0.5, none⟩⟩),
    ("pane", ⟨.classify "\x7bcolor.veil\x7d", none⟩)]

def hungValues : Dict String :=
  .ofList [("awning", "#80AABBCC"), ("gap", "#FFFFFF"), ("ink", "#AABBCC"), ("pane", "#80AABBCC"),
    ("veil", "#80AABBCC")]

private theorem dependencyClosed_veiledPart : DependencyClosed veils veiledPart := by
  have hpart : ∀ a ∈ ["ink", "pane", "veil"], ∃ t, veils.get? a = some t ∧
      ∀ b ∈ t.dependencies, b ∈ ["ink", "pane", "veil"] := by
    simp only [List.forall_mem_cons, List.not_mem_nil, false_implies, implies_true, and_true]
    exact ⟨⟨_, rfl, by decide⟩, ⟨_, rfl, by decide⟩, ⟨_, rfl, by decide⟩⟩
  intro a ha b hab
  obtain ⟨t, ht, hd⟩ := hpart a ha
  exact hd b ((dependsOn_iff ht).1 hab)

private theorem resolve_hungVeils : (resolve hungVeils).outcome = .ok hungValues := by
  have hgap : Means hungVeils "gap" "#FFFFFF" :=
    .of_dependencies (fun _ => "") rfl nofun (.unadjusted (.literal rfl) rfl)
  have hink : Means hungVeils "ink" "#AABBCC" :=
    .of_dependencies (fun _ => "") rfl nofun (.unadjusted (.literal rfl) rfl)
  have hveil : Means hungVeils "veil" "#80AABBCC" :=
    .of_dependencies (fun _ => "#AABBCC") rfl
      (List.forall_mem_singleton.2 hink) (.adjusted .reference rfl rfl rfl .alpha)
  have hpane : Means hungVeils "pane" "#80AABBCC" :=
    .of_dependencies (fun _ => "#80AABBCC") rfl
      (List.forall_mem_singleton.2 hveil) (.unadjusted .reference rfl)
  have hawning : Means hungVeils "awning" "#80AABBCC" :=
    .of_dependencies (fun _ => "#80AABBCC") rfl
      (List.forall_mem_singleton.2 hpane) (.unadjusted .reference rfl)
  refine resolve_ofList rfl ?_
  simp only [List.forall_mem_cons, List.not_mem_nil, false_implies, implies_true, and_true]
  exact ⟨hawning, hgap, hink, hpane, hveil⟩

theorem veils_hung_elsewhere :
    (resolve veils).outcome = .ok veilValues ∧ DependencyClosed veils veiledPart ∧
      (resolve hungVeils).outcome = .ok hungValues ∧
      (∀ n ∈ veiledPart, hungVeils.get? n = veils.get? n) ∧
      (∀ n ∈ veiledPart, hungValues.get? n = veilValues.get? n) ∧
      hungValues.get? "gap" ≠ veilValues.get? "gap" ∧
      (resolve (veils.restrict (· ∈ veiledPart))).outcome =
        .ok (veilValues.restrict (· ∈ veiledPart)) := by
  have hsame : ∀ n ∈ veiledPart, hungVeils.get? n = veils.get? n := by
    have hpart : ∀ n ∈ ["ink", "pane", "veil"], ∃ t, hungVeils.get? n = some t ∧
        veils.get? n = some t := by
      simp only [List.forall_mem_cons, List.not_mem_nil, false_implies, implies_true, and_true]
      exact ⟨⟨_, rfl, rfl⟩, ⟨_, rfl, rfl⟩, ⟨_, rfl, rfl⟩⟩
    intro n hn
    obtain ⟨t, hhung, hveil⟩ := hpart n hn
    rw [hhung, hveil]
  obtain ⟨hagree, hpart⟩ := resolution_local resolve_veils dependencyClosed_veiledPart
  exact ⟨resolve_veils, dependencyClosed_veiledPart, resolve_hungVeils, hsame,
    hagree hungVeils hungValues hsame resolve_hungVeils, by decide, hpart⟩

end Swatchbook

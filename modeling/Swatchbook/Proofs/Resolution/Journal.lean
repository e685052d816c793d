import Swatchbook.Proofs.Resolution.Outcome

/-! The journal of a search: the values it has found and the warnings issued for them. A
token is entered once, when everything it depends on has been entered, so the journal lists
tokens in an order of dependency, wherever the searches began. -/
namespace Swatchbook

namespace Search

variable {tokens : Dict Token}

/-- Values, latest first, and the warnings issued for them, in the order in which they were
issued. -/
inductive Journal (tokens : Dict Token) : List (String × String) → List Warning → Prop
  | empty : Journal tokens [] []
  | enter {name v : String} {t : Token} {values : List (String × String)} {ws : List Warning}
      (before : Journal tokens values ws) (hnew : found values name = false)
      (ht : tokens.get? name = some t) (hd : ∀ d ∈ t.dependencies, found values d = true)
      (hv : t.Equation (valueOf values) v) :
      Journal tokens ((name, v) :: values) (ws ++ (t.evaluate name (valueOf values)).warnings)

variable {values : List (String × String)} {ws : List Warning}

theorem found_iff_mem {n : String} : found values n = true ↔ n ∈ values.map Prod.fst :=
  Dict.lookup_isSome_iff

theorem Journal.means (h : Journal tokens values ws) :
    ∀ n v, values.lookup n = some v → Means tokens n v := by
  induction h with
  | empty => nofun
  | enter _ _ ht hd hv ih => exact means_cons ih ht hd hv

theorem Journal.found_of_dependsOn (h : Journal tokens values ws) {a b : String}
    (ha : found values a = true) (hab : DependsOn tokens a b) : found values b = true := by
  induction h with
  | empty => cases ha
  | enter _ _ ht hd _ ih =>
      rw [found_cons, Bool.or_eq_true, beq_iff_eq] at ha ⊢
      rcases ha with rfl | ha
      · exact .inr (hd b ((dependsOn_iff ht).1 hab))
      · exact .inr (ih ha)

theorem Journal.found_of_reflTransGen (h : Journal tokens values ws) {a b : String}
    (ha : found values a = true) (hab : Relation.ReflTransGen (DependsOn tokens) a b) :
    found values b = true := by
  induction hab with
  | refl => exact ha
  | tail _ hbc ih => exact h.found_of_dependsOn ih hbc

/-- A token does not lead to one entered later, and so not back to itself either. -/
theorem Journal.ordered (h : Journal tokens values ws) :
    (values.map Prod.fst).Pairwise fun later earlier =>
      ¬Relation.ReflTransGen (DependsOn tokens) earlier later := by
  induction h with
  | empty => exact .nil
  | enter before hnew _ _ _ ih =>
      refine List.pairwise_cons.2 ⟨fun earlier hearlier hleads => ?_, ih⟩
      rw [before.found_of_reflTransGen (found_iff_mem.2 hearlier) hleads] at hnew
      cases hnew

theorem Journal.step {name : String} {rest : List String} {next : Search} {new : List Warning}
    (h : Journal tokens values ws) (hk : name ∈ tokens.keys)
    (hstep : Search.step tokens name rest values = .goOn next new) :
    Journal tokens next.values (ws ++ new) := by
  have hsteps := steps_step hk rest values
  rw [hstep] at hsteps
  cases hsteps with
  | settled => rwa [List.append_nil]
  | visit => rwa [List.append_nil]
  | value hnew ht hd hv => exact h.enter hnew ht hd hv

/-- A search goes on with the journal it finds. -/
theorem Journal.run {s : Search} {last : List (String × String)} (hs : Inv tokens s)
    (h : Journal tokens s.values ws) (hrun : (run tokens s).outcome = .ok last) :
    Journal tokens last (ws ++ (run tokens s).warnings) := by
  induction s using run.induct tokens generalizing ws with
  | case1 s hstack =>
      rw [run_of_stack_eq_nil hstack] at hrun ⊢
      cases hrun
      rwa [Logged.warnings_pure, List.append_nil]
  | case2 s name rest hstack e new hstep =>
      rw [run_of_step hstack, hstep] at hrun
      cases hrun
  | case3 s name rest hstack next new hstep ih =>
      rw [run_of_step hstack, hstep] at hrun ⊢
      obtain ⟨stack, start⟩ := s
      cases hstack
      have hnext := h.step (hs.known name List.mem_cons_self) hstep
      have hlast := ih (hs.step hstep) hnext hrun
      rwa [List.append_assoc] at hlast

theorem Journal.runAll {names : List String} {last : List (String × String)}
    (hn : ∀ n ∈ names, n ∈ tokens.keys) (h : Journal tokens values ws)
    (hrun : (runAll tokens names values).outcome = .ok last) :
    Journal tokens last (ws ++ (runAll tokens names values).warnings) := by
  induction names generalizing values ws with
  | nil =>
      cases hrun
      rw [Search.runAll, List.foldlM_nil, Logged.warnings_pure, List.append_nil]
      exact h
  | cons name names ih =>
      obtain ⟨hk, hn⟩ := List.forall_mem_cons.1 hn
      rw [Search.runAll, List.foldlM_cons] at hrun ⊢
      cases hfirst : (Search.run tokens ⟨[name], values⟩).outcome with
      | error e =>
          rw [Logged.outcome_bind_of_error hfirst] at hrun
          cases hrun
      | ok next =>
          rw [Logged.outcome_bind_of_ok hfirst] at hrun
          rw [Logged.warnings_bind_of_ok hfirst, ← List.append_assoc]
          exact ih hn (Journal.run (inv_root hk h.means) h hfirst) hrun

end Search

theorem journal_of_resolve {tokens : Dict Token} {values : Dict String}
    (h : (resolve tokens).outcome = .ok values) :
    ∃ last, Search.Journal tokens last (resolve tokens).warnings ∧
      ∀ name ∈ tokens.keys, Search.found last name = true := by
  rw [resolve_eq] at h ⊢
  cases hall : (Search.runAll tokens tokens.keys []).outcome with
  | error e =>
      rw [Logged.outcome_bind_of_error hall] at h
      cases h
  | ok last =>
      rw [Logged.warnings_bind_of_ok hall, Logged.warnings_pure, List.append_nil]
      exact ⟨last, Search.Journal.runAll (fun _ hn => hn) .empty hall,
        (Search.runAll_completes (fun _ hn => hn) (by simp) hall).finds⟩

end Swatchbook

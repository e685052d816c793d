import Swatchbook.Proofs.Resolution.Marks
import Swatchbook.Proofs.Resolution.Origin

/-! The search with marks does, step for step, what the search without them does. A mark tells
whether a token has a value, is on the stack or is neither, so both take the same branch each
time, and since no fallback of the first is used, both come to the same result. -/
namespace Swatchbook

namespace Logged

/-- Both fail with the same error, or both succeed with results that are related. The warnings
are the same. -/
inductive Rel {ε α β : Type} (r : α → β → Prop) : Logged ε α → Logged ε β → Prop
  | ok {a : α} {b : β} (h : r a b) (ws : List Warning) : Rel r ⟨.ok a, ws⟩ ⟨.ok b, ws⟩
  | error (e : ε) (ws : List Warning) : Rel r ⟨.error e, ws⟩ ⟨.error e, ws⟩

namespace Rel

variable {ε α β γ δ : Type} {r : α → β → Prop} {q : γ → δ → Prop} {x : Logged ε α} {y : Logged ε β}

theorem after (h : Rel r x y) (ws : List Warning) :
    Rel r ⟨x.outcome, ws ++ x.warnings⟩ ⟨y.outcome, ws ++ y.warnings⟩ := by
  cases h with
  | ok h ws' => exact .ok h (ws ++ ws')
  | error e ws' => exact .error e (ws ++ ws')

theorem bind (h : Rel r x y) {f : α → Logged ε γ} {g : β → Logged ε δ}
    (hf : ∀ a b, r a b → Rel q (f a) (g b)) : Rel q (x >>= f) (y >>= g) := by
  cases h with
  | ok h ws => exact (hf _ _ h).after ws
  | error e ws => exact .error e ws

theorem exists_of_ok (h : Rel r x y) {a : α} (hx : x.outcome = .ok a) :
    ∃ b, y.outcome = .ok b ∧ r a b := by
  cases h with
  | ok h ws =>
      cases hx
      exact ⟨_, rfl, h⟩
  | error e ws => cases hx

end Rel

end Logged

namespace MarkedSearch

variable {tokens : Dict Token} {s : MarkedSearch} {m : Search}

/-- Two searches that stand at the same point. -/
structure Agrees (s : MarkedSearch) (m : Search) : Prop where
  stack : m.stack = s.stack
  values : ∀ n, m.values.lookup n = s.slot n

theorem Agrees.valueOf_eq (h : Agrees s m) : s.valueOf = Search.valueOf m.values := by
  funext n
  rw [valueOf, Search.valueOf, h.values]

theorem Sound.found_iff (hs : Sound tokens s) (h : Agrees s m) (n : String) :
    Search.found m.values n = true ↔ s.mark n = .done := by
  rw [hs.valued, Search.found, h.values, Option.isSome_iff_exists]

/-! ### One step -/

theorem exists_place {n : String} (h : n ∈ s.stack) : ∃ i, s.place? n = some i :=
  Option.isSome_iff_exists.1 (List.isSome_idxOf?.2 (List.mem_reverse.2 h))

theorem chain_eq {target : String} (hnodup : s.stack.Nodup) (h : target ∈ s.stack) :
    s.chain target = Search.chain s.stack target := by
  obtain ⟨outer, hstack⟩ := Search.append_of_takeWhile h
  generalize hinner : s.stack.takeWhile (· != target) = inner at hstack
  have hreverse : s.stack.reverse = outer.reverse ++ target :: inner.reverse := by
    rw [hstack, List.reverse_append, List.reverse_cons, List.append_assoc, List.singleton_append]
  -- The token stands on the stack once, so from the outer end too it is met where it was split.
  have houter : outer.reverse.idxOf? target = none := by
    rw [hstack] at hnodup
    have hnot := (List.nodup_cons.1 (List.nodup_append.1 hnodup).2.1).1
    exact List.idxOf?_eq_none_iff.2 fun hmem => hnot (List.mem_reverse.1 hmem)
  have hplace : s.place? target = some outer.reverse.length := by
    unfold List.idxOf? at houter
    rw [place?, hreverse, List.idxOf?, List.findIdx?_append, houter, List.findIdx?_cons, beq_self_eq_true]
    simp
  rw [chain, hplace, hreverse, Option.getD_some, List.drop_left, Search.chain, hinner]

section Innermost

variable {name : String} {rest : List String}

theorem need_eq (hs : Sound tokens s) (h : Agrees s m) (hstack : s.stack = name :: rest)
    (hnot : s.mark name ≠ .done) (token : String) (targets : List String) :
    need tokens (s.visit name) token targets = Search.need tokens m token targets := by
  induction targets with
  | nil => rfl
  | cons target targets ih =>
      -- The two tests of the search without marks are those for `done` and for `visiting`.
      have hdone := (mark_visit_eq_done_iff hnot target).trans (hs.found_iff h target).symm
      have hvisiting := hs.mark_visit_iff hstack target
      rw [need, Search.need, h.stack]
      split
      · cases hmark : (s.visit name).mark target with
        | done =>
            rw [if_pos (hdone.1 hmark)]
            exact ih
        | visiting =>
            have hmem := hvisiting.1 hmark
            rw [if_neg (fun hfound => by simp [hdone.2 hfound] at hmark),
              if_pos (List.contains_iff_mem.2 hmem), ← chain_eq hs.nodup hmem]
            rfl
        | pending =>
            rw [if_neg (fun hfound => by simp [hdone.2 hfound] at hmark),
              if_neg (fun hmem => by simp [hvisiting.2 (List.contains_iff_mem.1 hmem)] at hmark)]
      · rfl

/-- Steps to the same point, or with the same error. -/
inductive SameStep : Step → Search.Step → Prop
  | goOn {next : MarkedSearch} {next' : Search} (h : Agrees next next') (ws : List Warning) :
      SameStep (.goOn next ws) (.goOn next' ws)
  | failed (e : ResolveError) (ws : List Warning) : SameStep (.failed e ws) (.failed e ws)

theorem sameStep (hs : Sound tokens s) (h : Agrees s m) (hstack : s.stack = name :: rest) :
    SameStep (step tokens s) (Search.step tokens name rest m.values) := by
  have hm : m = ⟨name :: rest, m.values⟩ := by rw [← hstack, ← h.stack]
  have hleave : Agrees { s with stack := rest } ⟨rest, m.values⟩ := ⟨rfl, h.values⟩
  unfold step Search.step
  simp only [hstack]
  by_cases hdone : s.mark name = .done
  · rw [if_pos hdone, if_pos ((hs.found_iff h name).2 hdone)]
    exact .goOn hleave []
  · rw [if_neg hdone, if_neg fun hfound => hdone ((hs.found_iff h name).1 hfound)]
    cases tokens.get? name with
    | none => exact .goOn hleave []
    | some t =>
        dsimp only
        rw [need_eq hs h hstack hdone, ← hm, h.valueOf_eq]
        cases Search.need tokens m name t.dependencies with
        | failure e => exact .failed e []
        | visit target =>
            have hvisit : Agrees ((s.visit name).push target) ⟨target :: name :: rest, m.values⟩ :=
              ⟨congrArg (target :: ·) hstack.symm, h.values⟩
            exact .goOn hvisit []
        | nothing =>
            dsimp only
            cases (t.evaluate name (Search.valueOf m.values)).outcome with
            | error e => exact .failed e _
            | ok v =>
                refine .goOn ⟨rfl, fun n => ?_⟩ _
                rw [Dict.lookup_cons_eq, slot_settle, h.values]

end Innermost

/-! ### Whole searches -/

/-- What a search leaves behind at its end. -/
structure Leaves (tokens : Dict Token) (last : MarkedSearch) (values : List (String × String)) :
    Prop where
  reached : Reached tokens last
  agrees : Agrees last ⟨[], values⟩

theorem step_of_stack_eq_nil (h : s.stack = []) : step tokens s = .ended := by
  rw [step, h]

theorem run_agrees (hs : Reached tokens s) (h : Agrees s m) :
    (run tokens s).Rel (Leaves tokens) (Search.run tokens m) := by
  -- Only the search with marks has to get lighter: the other takes the same steps.
  induction s using (measure (weight tokens)).wf.induction generalizing m with
  | _ s ih =>
      rw [run_eq]
      cases hstack : s.stack with
      | nil =>
          rw [step_of_stack_eq_nil hstack, Search.run_of_stack_eq_nil (h.stack.trans hstack)]
          exact .ok ⟨hs, ⟨hstack.symm, h.values⟩⟩ []
      | cons name rest =>
          have hsame := sameStep (sound_of_reached hs) h hstack
          rw [Search.run_of_step (h.stack.trans hstack)]
          generalize hstep : step tokens s = here at hsame ⊢
          generalize Search.step tokens name rest m.values = there at hsame ⊢
          cases hsame with
          | goOn hnext ws => exact (ih _ (weight_lt hstep) (hs.step hstep) hnext).after ws
          | failed e ws => exact .error e ws

theorem runAll_agrees {names : List String} {values : List (String × String)}
    (hn : ∀ n ∈ names, n ∈ tokens.keys) (h : Leaves tokens s values) :
    (runAll tokens names s).Rel (Leaves tokens) (Search.runAll tokens names values) := by
  induction names generalizing s values with
  | nil => exact .ok h []
  | cons name names ih =>
      obtain ⟨hk, hn⟩ := List.forall_mem_cons.1 hn
      have hroot : Reached tokens { s with stack := [name] } := .root h.reached h.agrees.stack.symm hk
      have hagrees : Agrees { s with stack := [name] } ⟨[name], values⟩ := ⟨rfl, h.agrees.values⟩
      rw [runAll, Search.runAll, List.foldlM_cons, List.foldlM_cons]
      exact (run_agrees hroot hagrees).bind fun _ _ hleaves => ih hn hleaves

theorem runAll_start (tokens : Dict Token) :
    (runAll tokens tokens.keys start).Rel (Leaves tokens) (Search.runAll tokens tokens.keys []) :=
  runAll_agrees (fun _ hn => hn) ⟨.start, ⟨rfl, fun _ => rfl⟩⟩

theorem collect_eq {f : String → String} (h : ∀ n ∈ tokens.keys, s.slot n = some (f n)) :
    collect tokens s = tokens.mapWithKey fun n _ => f n := by
  have hentries : tokens.keys.filterMap (fun n => (s.slot n).map fun v => (n, v)) =
      tokens.keys.map fun n => (n, f n) := by
    rw [← List.filterMap_eq_map]
    refine List.filterMap_congr fun n hn => ?_
    rw [h n hn]
    rfl
  rw [collect, hentries, ← Dict.entries_mapWithKey, Dict.ofList_entries]

theorem collect_of_leaves {last : MarkedSearch} {values : List (String × String)}
    (h : Leaves tokens last values)
    (hall : (Search.runAll tokens tokens.keys []).outcome = .ok values) :
    collect tokens last = tokens.mapWithKey fun n _ => Search.valueOf values n := by
  have hcompletes := Search.runAll_completes (fun _ hn => hn) (by simp) hall
  refine collect_eq fun n hn => ?_
  rw [← h.agrees.values, Search.lookup_of_found (hcompletes.finds n hn)]

theorem resolve_eq_resolve (tokens : Dict Token) : resolve tokens = Swatchbook.resolve tokens := by
  have hrel := runAll_start tokens
  have hcollect := @collect_of_leaves tokens
  rw [resolve, resolve_eq]
  generalize runAll tokens tokens.keys start = x at hrel
  generalize Search.runAll tokens tokens.keys [] = y at hrel hcollect
  cases hrel with
  | error e ws => rfl
  | ok h ws =>
      change (⟨.ok (collect tokens _), ws ++ []⟩ : Logged ResolveError (Dict String)) = _
      rw [hcollect h rfl]
      rfl

/-! ### The fallbacks -/

theorem exists_slot_of_need {name : String} {t : Token} (hs : Sound tokens s)
    (hnot : s.mark name ≠ .done)
    (hneed : need tokens (s.visit name) name t.dependencies = .nothing) :
    ∀ d ∈ t.dependencies, ∃ v, s.slot d = some v := by
  intro d hd
  rw [← hs.valued, ← mark_visit_eq_done_iff hnot]
  exact need_eq_nothing hneed d hd

/-- What the search reads for a token without a value makes no difference. -/
theorem evaluate_of_slots {t : Token} (h : ∀ d ∈ t.dependencies, ∃ v, s.slot d = some v)
    (name : String) (fallback : String → String) :
    t.evaluate name s.valueOf = t.evaluate name fun d => (s.slot d).getD (fallback d) := by
  refine Token.evaluate_congr (fun d hd => ?_) name
  obtain ⟨v, hv⟩ := h d hd
  rw [valueOf, hv, Option.getD_some, Option.getD_some]

theorem reached_of_runAll {last : MarkedSearch}
    (h : (runAll tokens tokens.keys start).outcome = .ok last) :
    Reached tokens last ∧ (collect tokens last).keys = tokens.keys := by
  obtain ⟨values, hall, hleaves⟩ := (runAll_start tokens).exists_of_ok h
  rw [collect_of_leaves hleaves hall, Dict.keys_mapWithKey]
  exact ⟨hleaves.reached, rfl⟩

/-- A search for one token after the other comes to an end, its marks are true in each state,
and no fallback is ever used: a value that is read is there, a token that closes a cycle is found
on the stack, and a token is left out of the result only if the search fails. The result is that
of the search without marks. -/
theorem search_needs_no_fallback (tokens : Dict Token) :
    (WellFounded fun next s => ∃ ws, step tokens s = .goOn next ws) ∧
    (∀ s, Reached tokens s → Sound tokens s ∧ s.stack.length ≤ tokens.keys.length) ∧
    (∀ s name rest, Reached tokens s → s.stack = name :: rest → s.mark name ≠ .done →
      (∀ t, tokens.get? name = some t →
        need tokens (s.visit name) name t.dependencies = .nothing →
          (∀ d ∈ t.dependencies, ∃ v, s.slot d = some v) ∧
          ∀ fallback : String → String, t.evaluate name s.valueOf =
            t.evaluate name fun d => (s.slot d).getD (fallback d)) ∧
      ∀ d, (s.visit name).mark d = .visiting → ∃ i, (s.visit name).place? d = some i) ∧
    (∀ last, (runAll tokens tokens.keys start).outcome = .ok last →
      Reached tokens last ∧ (collect tokens last).keys = tokens.keys) ∧
    resolve tokens = Swatchbook.resolve tokens := by
  refine ⟨?_, fun s h => ?_, fun s name rest h hstack hnot => ⟨fun t ht hneed => ?_, fun d hd => ?_⟩,
    fun last h => reached_of_runAll h, resolve_eq_resolve tokens⟩
  · exact Subrelation.wf (fun ⟨_, hstep⟩ => weight_lt hstep) (measure (weight tokens)).wf
  · have hs := sound_of_reached h
    exact ⟨hs, hs.nodup.length_le_of_subset hs.known⟩
  · have hslots := exists_slot_of_need (sound_of_reached h) hnot hneed
    exact ⟨hslots, evaluate_of_slots hslots name⟩
  · exact exists_place (((sound_of_reached h).mark_visit_iff hstack d).1 hd)

def inkSearch : MarkedSearch :=
  ({ start with stack := ["pane"] } : MarkedSearch) |>.visit "pane" |>.push "veil"
    |>.visit "veil" |>.push "ink"

def veilSearch : MarkedSearch :=
  inkSearch.settle "ink" "#AABBCC" ["veil", "pane"]

private theorem reached_veilSearch : Reached veils veilSearch := by
  have hpane : Reached veils { start with stack := ["pane"] } := .root .start rfl (by decide)
  have hink : Reached veils inkSearch := .step (.step hpane rfl) rfl
  have hstep : step veils inkSearch = .goOn veilSearch [] := rfl
  exact hink.step hstep

private theorem exists_runAll_of_resolve {values : Dict String}
    (h : (resolve tokens).outcome = .ok values) :
    ∃ last, (runAll tokens tokens.keys start).outcome = .ok last := by
  rw [resolve] at h
  cases hall : (runAll tokens tokens.keys start).outcome with
  | ok last => exact ⟨last, rfl⟩
  | error e =>
      rw [Logged.outcome_bind_of_error hall] at h
      cases h

theorem veilSearch_needs_no_fallback :
    Reached veils veilSearch ∧ veilSearch.stack = ["veil", "pane"] ∧
      veilSearch.mark "veil" ≠ .done ∧
      (∃ t, veils.get? "veil" = some t ∧ t.dependencies = ["ink"] ∧
        need veils (veilSearch.visit "veil") "veil" t.dependencies = .nothing ∧
        ∀ d ∈ t.dependencies, ∃ v, veilSearch.slot d = some v) ∧
      (veilSearch.visit "veil").mark "pane" = .visiting ∧
      (∃ i, (veilSearch.visit "veil").place? "pane" = some i) ∧
      ∃ last, (runAll veils veils.keys start).outcome = .ok last ∧
        (collect veils last).keys = veils.keys := by
  have hnot : veilSearch.mark "veil" ≠ .done := by decide
  obtain ⟨-, -, hreads, hends, hresolve⟩ := search_needs_no_fallback veils
  obtain ⟨hslots, hplaces⟩ := hreads veilSearch "veil" ["pane"] reached_veilSearch rfl hnot
  obtain ⟨last, hlast⟩ := exists_runAll_of_resolve (hresolve ▸ resolve_veils)
  exact ⟨reached_veilSearch, rfl, hnot, ⟨_, rfl, rfl, rfl, (hslots _ rfl rfl).1⟩, rfl,
    hplaces "pane" rfl, last, hlast, (hends last hlast).2⟩

end MarkedSearch

end Swatchbook

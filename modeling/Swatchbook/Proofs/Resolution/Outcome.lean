import Swatchbook.Proofs.Dict
import Swatchbook.Proofs.Resolution.Invariant

/-! Resolution as a whole: it has a result exactly for the token sets that can be
resolved, the result is the one solution of all equations, and every error is
true of the token set. -/
namespace Swatchbook

variable {tokens : Dict Token}

namespace Search

theorem append_of_takeWhile {stack : List String} {name : String} (h : name ∈ stack) :
    ∃ outer, stack = stack.takeWhile (· != name) ++ name :: outer := by
  induction stack with
  | nil => cases h
  | cons k r ih =>
      by_cases hk : k = name
      · subst hk
        exact ⟨r, by simp⟩
      · obtain ⟨outer, houter⟩ := ih ((List.mem_cons.1 h).resolve_left (Ne.symm hk))
        have hb : (k != name) = true := by simpa using hk
        refine ⟨outer, ?_⟩
        rw [List.takeWhile_cons, if_pos hb, List.cons_append, ← houter]

theorem circular_truthful {name target : String} {rest : List String}
    {values : List (String × String)} (hs : Inv tokens ⟨name :: rest, values⟩)
    (hd : DependsOn tokens name target) (ht : target ∈ name :: rest) :
    (ResolveError.circular target (chain (name :: rest) target)).Truthful tokens := by
  obtain ⟨outer, hstack⟩ := append_of_takeWhile ht
  generalize hinner : (name :: rest).takeWhile (· != target) = inner at hstack
  have hchain : chain (name :: rest) target = target :: inner.reverse ++ [target] := by
    rw [chain, hinner]
  have hsplit : name :: rest = (inner ++ [target]) ++ outer := by simpa using hstack
  have hreverse : target :: inner.reverse = (inner ++ [target]).reverse := by simp
  have hnodup : (inner ++ [target]).Nodup := by
    have := hs.nodup
    rw [hsplit] at this
    exact (List.nodup_append.1 this).1
  have hpath : (target :: inner.reverse).IsChain (DependsOn tokens) := by
    have := hs.path
    rw [hsplit] at this
    rw [hreverse, List.isChain_reverse]
    exact this.left_of_append
  -- The innermost token ends the path, and it is the one whose dependency closes the cycle.
  have hlast : (target :: inner.reverse).getLast? = some name := by
    have hhead : (inner ++ [target]).head? = some name := by
      have := congrArg List.head? hsplit
      rw [List.head?_append_of_ne_nil _ (by simp)] at this
      exact this.symm
    rw [hreverse, List.getLast?_reverse, hhead]
  rw [hchain]
  refine ⟨by simp, by simp, List.getLast?_concat, ?_, ?_, ?_⟩
  · rw [List.dropLast_concat, hreverse]
    exact (List.reverse_perm _).nodup_iff.2 hnodup
  · rw [List.dropLast_concat, hreverse]
    intro n hn
    refine hs.known n ?_
    rw [hsplit]
    exact List.mem_append_left _ (List.mem_reverse.1 hn)
  · refine hpath.append (.singleton _) fun x hx y hy => ?_
    rw [hlast] at hx
    cases hx
    cases hy
    exact hd

theorem step_truthful {name : String} {rest : List String} {values : List (String × String)}
    {e : ResolveError} {ws : List Warning} (hs : Inv tokens ⟨name :: rest, values⟩)
    (h : step tokens name rest values = .failed e ws) : e.Truthful tokens := by
  have hsteps := steps_step (hs.known name List.mem_cons_self) rest values
  rw [h] at hsteps
  cases hsteps with
  | unknown hd hk => exact ⟨hd, hk⟩
  | circular hd ht => exact circular_truthful hs hd ht
  | @rejected t text ht hd hr => exact ⟨t, _, ht, hs.means_of_dependsOn ht hd, hr⟩

theorem run_of_stack_eq_nil {s : Search} (h : s.stack = []) :
    run tokens s = pure s.values := by
  rw [run]
  split
  · rfl
  · simp_all

theorem run_of_step {s : Search} {name : String} {rest : List String} (h : s.stack = name :: rest) :
    run tokens s =
      match step tokens name rest s.values with
      | .failed e ws => ⟨.error e, ws⟩
      | .goOn next ws => ⟨(run tokens next).outcome, ws ++ (run tokens next).warnings⟩ := by
  rw [run]
  split
  · simp_all
  · rename_i name' rest' h'
    rw [h] at h'
    cases h'
    split <;> simp_all

theorem run_truthful {s : Search} {e : ResolveError} (hs : Inv tokens s)
    (h : (run tokens s).outcome = .error e) : e.Truthful tokens := by
  induction s using run.induct tokens with
  | case1 s hstack =>
      rw [run_of_stack_eq_nil hstack] at h
      cases h
  | case2 s name rest hstack e' ws hstep =>
      rw [run_of_step hstack, hstep] at h
      cases h
      obtain ⟨stack, values⟩ := s
      cases hstack
      exact step_truthful hs hstep
  | case3 s name rest hstack next ws hstep ih =>
      rw [run_of_step hstack, hstep] at h
      obtain ⟨stack, values⟩ := s
      cases hstack
      exact ih (hs.step hstep) h

structure Completes (tokens : Dict Token) (s : Search) (values : List (String × String)) : Prop where
  means : ∀ n v, values.lookup n = some v → Means tokens n v
  keeps : ∀ n, found s.values n = true → found values n = true
  finds : ∀ n ∈ s.stack, found values n = true

theorem run_completes {s : Search} {values : List (String × String)} (hs : Inv tokens s)
    (h : (run tokens s).outcome = .ok values) : Completes tokens s values := by
  induction s using run.induct tokens with
  | case1 s hstack =>
      rw [run_of_stack_eq_nil hstack] at h
      cases h
      refine ⟨hs.means, fun _ hn => hn, ?_⟩
      rw [hstack]
      simp
  | case2 s name rest hstack e' ws hstep =>
      rw [run_of_step hstack, hstep] at h
      cases h
  | case3 s name rest hstack next ws hstep ih =>
      rw [run_of_step hstack, hstep] at h
      obtain ⟨stack, start⟩ := s
      cases hstack
      obtain ⟨hkeeps, hleft⟩ := step_progress (hs.known name List.mem_cons_self) hstep
      have hnext := ih (hs.step hstep) h
      refine ⟨hnext.means, fun n hn => hnext.keeps n (hkeeps n hn), fun n hn => ?_⟩
      rcases hleft n hn with hstack | hfound
      · exact hnext.finds n hstack
      · exact hnext.keeps n hfound

def runAll (tokens : Dict Token) (names : List String) (values : List (String × String)) :
    Logged ResolveError (List (String × String)) :=
  names.foldlM (fun values name => run tokens ⟨[name], values⟩) values

theorem runAll_truthful {names : List String} {values : List (String × String)} {e : ResolveError}
    (hn : ∀ n ∈ names, n ∈ tokens.keys) (hm : ∀ n v, values.lookup n = some v → Means tokens n v)
    (h : (runAll tokens names values).outcome = .error e) : e.Truthful tokens := by
  induction names generalizing values with
  | nil => cases h
  | cons name names ih =>
      obtain ⟨hk, hn⟩ := List.forall_mem_cons.1 hn
      have hs := inv_root hk hm
      rw [runAll, List.foldlM_cons] at h
      cases hrun : (run tokens ⟨[name], values⟩).outcome with
      | error e' =>
          rw [Logged.outcome_bind_of_error hrun] at h
          cases h
          exact run_truthful hs hrun
      | ok next =>
          rw [Logged.outcome_bind_of_ok hrun] at h
          exact ih hn (run_completes hs hrun).means h

theorem runAll_completes {names : List String} {values last : List (String × String)}
    (hn : ∀ n ∈ names, n ∈ tokens.keys) (hm : ∀ n v, values.lookup n = some v → Means tokens n v)
    (h : (runAll tokens names values).outcome = .ok last) : Completes tokens ⟨names, values⟩ last := by
  induction names generalizing values with
  | nil =>
      cases h
      exact ⟨hm, fun _ hn => hn, by simp⟩
  | cons name names ih =>
      obtain ⟨hk, hn⟩ := List.forall_mem_cons.1 hn
      have hs := inv_root hk hm
      rw [runAll, List.foldlM_cons] at h
      cases hrun : (run tokens ⟨[name], values⟩).outcome with
      | error e' =>
          rw [Logged.outcome_bind_of_error hrun] at h
          cases h
      | ok next =>
          rw [Logged.outcome_bind_of_ok hrun] at h
          have hfirst := run_completes hs hrun
          have hrest := ih hn hfirst.means h
          refine ⟨hrest.means, fun n hn => hrest.keeps n (hfirst.keeps n hn), ?_⟩
          refine List.forall_mem_cons.2 ⟨hrest.keeps name (hfirst.finds name ?_), hrest.finds⟩
          simp

end Search

theorem resolve_eq (tokens : Dict Token) :
    resolve tokens = Search.runAll tokens tokens.keys [] >>= fun values =>
      pure (tokens.mapWithKey fun name _ => Search.valueOf values name) :=
  rfl

theorem means_of_resolve {values : Dict String} (h : (resolve tokens).outcome = .ok values) :
    values.keys = tokens.keys ∧ ∀ name ∈ tokens.keys, ∃ text,
      values.get? name = some text ∧ Means tokens name text := by
  rw [resolve_eq] at h
  cases hall : (Search.runAll tokens tokens.keys []).outcome with
  | error e =>
      rw [Logged.outcome_bind_of_error hall] at h
      cases h
  | ok last =>
      rw [Logged.outcome_bind_of_ok hall] at h
      cases h
      have hlast := Search.runAll_completes (fun _ hn => hn) (by simp) hall
      refine ⟨Dict.keys_mapWithKey .., fun name hname => ?_⟩
      obtain ⟨t, ht⟩ := Option.isSome_iff_exists.1 (Dict.get?_isSome_iff.2 hname)
      have hlookup := Search.lookup_of_found (hlast.finds name hname)
      refine ⟨_, ?_, hlast.means name _ hlookup⟩
      rw [Dict.get?_mapWithKey, ht]
      rfl

theorem resolvable_of_means (h : ∀ name ∈ tokens.keys, ∃ text, Means tokens name text) :
    Resolvable tokens where
  known a b hab := by
    obtain ⟨_, ha⟩ := h a hab.mem_keys
    obtain ⟨_, hb⟩ := ha.of_dependsOn hab
    exact hb.mem_keys
  acyclic a hcycle := by
    obtain ⟨b, hab, _⟩ := Relation.TransGen.head'_iff.1 hcycle
    obtain ⟨_, ha⟩ := h a hab.mem_keys
    exact not_transGen_of_acc ha.acc hcycle
  colored name t valueOf ht hd text hr := by
    obtain ⟨_, ⟨t', valueOf', ht', hd', hv⟩⟩ := h name (Dict.mem_keys_of_get? ht)
    rw [ht] at ht'
    cases ht'
    refine (hv.congr fun d hmem => ?_).not_rejects hr
    have hdep := (dependsOn_iff ht).2 hmem
    exact (hd' d hdep).unique (hd d hdep)

theorem transGen_of_isChain {α : Type} {r : α → α → Prop} {a : α} {chain : List α}
    (hlength : 2 ≤ chain.length) (hhead : chain.head? = some a) (hlast : chain.getLast? = some a)
    (h : chain.IsChain r) : Relation.TransGen r a a := by
  match chain, hlength with
  | x :: y :: rest, _ =>
      cases hhead
      have hrest : Relation.ReflTransGen r y a :=
        List.relationReflTransGen_of_exists_isChain_cons rest h.of_cons (by
          rw [List.getLast?_cons_cons, List.getLast?_eq_getLast_of_ne_nil (by simp)] at hlast
          exact Option.some.inj hlast)
      exact .head' (List.isChain_cons_cons.1 h).1 hrest

theorem ResolveError.Truthful.not_resolvable {e : ResolveError} (h : e.Truthful tokens) :
    ¬Resolvable tokens := by
  intro hr
  cases e with
  | circular token chain =>
      obtain ⟨hlength, hhead, hlast, _, _, hpath⟩ := h
      exact hr.acyclic token (transGen_of_isChain hlength hhead hlast hpath)
  | unknown token target => exact h.2 (hr.known _ _ h.1)
  | invalidColor token cause =>
      obtain ⟨t, valueOf, ht, hd, hrejects⟩ := h
      exact hr.colored token t valueOf ht hd cause.text hrejects

theorem solves_of_means {values : Dict String} (hkeys : values.keys = tokens.keys)
    (hmeans : ∀ name ∈ tokens.keys, ∃ text,
      values.get? name = some text ∧ Means tokens name text) : Solves tokens values where
  keys := hkeys
  equation name t ht := by
    obtain ⟨text, hvalue, hm⟩ := hmeans name (Dict.mem_keys_of_get? ht)
    obtain ⟨t', valueOf, ht', hd, hv⟩ := hm
    rw [ht] at ht'
    cases ht'
    refine ⟨valueOf, text, fun d hdep => ?_, hvalue, hv⟩
    obtain ⟨text', hvalue', hm'⟩ := hmeans d (hd d hdep).mem_keys
    rw [hvalue', hm'.unique (hd d hdep)]

theorem Solves.eq_of_means {values others : Dict String} (hkeys : values.keys = tokens.keys)
    (hmeans : ∀ name ∈ tokens.keys, ∃ text,
      values.get? name = some text ∧ Means tokens name text) (ho : Solves tokens others) :
    others = values := by
  refine Dict.ext_get? fun name => ?_
  by_cases hname : name ∈ tokens.keys
  · obtain ⟨text, hvalue, hm⟩ := hmeans name hname
    rw [hvalue, ho.get?_of_means hm]
  · have hnone (d : Dict String) (hd : d.keys = tokens.keys) : d.get? name = none := by
      rw [← Option.not_isSome_iff_eq_none, Dict.get?_isSome_iff, hd]
      exact hname
    rw [hnone others ho.keys, hnone values hkeys]

/-- Values for exactly the tokens of a set, each the value of its token by recursion, are
what resolution gives. -/
theorem resolve_of_means {values : Dict String} (hkeys : values.keys = tokens.keys)
    (hmeans : ∀ name ∈ tokens.keys, ∃ text,
      values.get? name = some text ∧ Means tokens name text) :
    (resolve tokens).outcome = .ok values := by
  cases hresolve : (resolve tokens).outcome with
  | ok others =>
      obtain ⟨hkeys', hmeans'⟩ := means_of_resolve hresolve
      rw [(solves_of_means hkeys' hmeans').eq_of_means hkeys hmeans]
  | error e =>
      have hresolvable : Resolvable tokens := resolvable_of_means fun name hname => by
        obtain ⟨text, -, hm⟩ := hmeans name hname
        exact ⟨text, hm⟩
      rw [resolve_eq] at hresolve
      cases hall : (Search.runAll tokens tokens.keys []).outcome with
      | ok last =>
          rw [Logged.outcome_bind_of_ok hall] at hresolve
          cases hresolve
      | error e' =>
          have htrue := Search.runAll_truthful (fun _ hn => hn) (by simp) hall
          exact absurd hresolvable htrue.not_resolvable

theorem resolve_ofList {rows : List (String × String)}
    (hkeys : (Dict.ofList rows).keys = tokens.keys)
    (hmeans : ∀ row ∈ rows, Means tokens row.1 row.2) :
    (resolve tokens).outcome = .ok (.ofList rows) := by
  refine resolve_of_means hkeys fun name hname => ?_
  have hsome : ((Dict.ofList rows).get? name).isSome = true :=
    Dict.get?_isSome_iff.2 (hkeys ▸ hname)
  obtain ⟨text, hvalue⟩ := Option.isSome_iff_exists.1 hsome
  exact ⟨text, hvalue, hmeans _ (Dict.mem_of_get?_ofList hvalue)⟩

/-- Resolution succeeds exactly when all dependencies are known, none is circular
and no color is invalid; what it gives is the only solution of the equations. -/
theorem resolve_eq_ok_iff_resolvable (tokens : Dict Token) :
    ((∃ values, (resolve tokens).outcome = .ok values) ↔ Resolvable tokens) ∧
      ∀ values, (resolve tokens).outcome = .ok values →
        Solves tokens values ∧ ∀ others, Solves tokens others → others = values := by
  refine ⟨⟨?_, fun hr => ?_⟩, fun values h => ?_⟩
  · rintro ⟨values, h⟩
    refine resolvable_of_means fun name hname => ?_
    obtain ⟨text, _, hm⟩ := (means_of_resolve h).2 name hname
    exact ⟨text, hm⟩
  · rw [resolve_eq]
    cases hall : (Search.runAll tokens tokens.keys []).outcome with
    | ok last => exact ⟨_, Logged.outcome_bind_of_ok hall _⟩
    | error e =>
        have htrue := Search.runAll_truthful (fun _ hn => hn) (by simp) hall
        exact absurd hr htrue.not_resolvable
  · obtain ⟨hkeys, hmeans⟩ := means_of_resolve h
    exact ⟨solves_of_means hkeys hmeans, fun others ho => ho.eq_of_means hkeys hmeans⟩

/-- Whatever error resolution ends with is true of the token set. -/
theorem resolve_error_truthful {tokens : Dict Token} {e : ResolveError}
    (h : (resolve tokens).outcome = .error e) : e.Truthful tokens := by
  rw [resolve_eq] at h
  cases hall : (Search.runAll tokens tokens.keys []).outcome with
  | error e' =>
      rw [Logged.outcome_bind_of_error hall] at h
      cases h
      exact Search.runAll_truthful (fun _ hn => hn) (by simp) hall
  | ok last =>
      rw [Logged.outcome_bind_of_ok hall] at h
      cases h

def mixedLoop : Dict Token :=
  .ofList [("a", ⟨.reference "b", none⟩), ("c", ⟨.reference "b", none⟩),
    ("b", ⟨.literal "#000000", some ⟨.mix (.reference "c"), 0.5, none⟩⟩)]

private theorem resolve_mixedLoop :
    (resolve mixedLoop).outcome = .error (.circular "b" ["b", "c", "b"]) := by
  have hkeys : mixedLoop.keys = ["a", "b", "c"] := rfl
  have hvisitB : Search.step mixedLoop "a" [] [] = .goOn ⟨["b", "a"], []⟩ [] := rfl
  have hvisitC : Search.step mixedLoop "b" ["a"] [] = .goOn ⟨["c", "b", "a"], []⟩ [] := rfl
  have hcycle : Search.step mixedLoop "c" ["b", "a"] [] =
      .failed (.circular "b" ["b", "c", "b"]) [] := rfl
  have hrun : (Search.run mixedLoop ⟨["a"], []⟩).outcome =
      .error (.circular "b" ["b", "c", "b"]) := by
    rw [Search.run_of_step rfl, hvisitB]
    dsimp only
    rw [Search.run_of_step rfl, hvisitC]
    dsimp only
    rw [Search.run_of_step rfl, hcycle]
  rw [resolve_eq, hkeys]
  exact Logged.outcome_bind_of_error (Logged.outcome_bind_of_error hrun _) _

theorem mixedLoop_error_truthful :
    (resolve mixedLoop).outcome = .error (.circular "b" ["b", "c", "b"]) ∧
      (ResolveError.circular "b" ["b", "c", "b"]).Truthful mixedLoop :=
  ⟨resolve_mixedLoop, resolve_error_truthful resolve_mixedLoop⟩

end Swatchbook

import Swatchbook.Proofs.Resolution.Recursion

/-! The invariant of the search: its stack is a simple path of dependencies, and
every value found is the value by recursion. Each step keeps the invariant or
fails with an error that is true of the token set. -/
namespace Swatchbook.Search

variable {tokens : Dict Token}

/-- Everything that a step can do when the innermost token is `name`. -/
inductive Steps (tokens : Dict Token) (name : String) (rest : List String)
    (values : List (String × String)) : Step → Prop
  | settled (h : found values name = true) : Steps tokens name rest values (.goOn ⟨rest, values⟩ [])
  | visit {target : String} (h : found values name = false) (hd : DependsOn tokens name target)
      (hk : target ∈ tokens.keys) (hv : found values target = false) (hs : target ∉ name :: rest) :
      Steps tokens name rest values (.goOn ⟨target :: name :: rest, values⟩ [])
  | value {t : Token} {v : String} (h : found values name = false) (ht : tokens.get? name = some t)
      (hd : ∀ d ∈ t.dependencies, found values d = true) (hv : t.Equation (valueOf values) v) :
      Steps tokens name rest values
        (.goOn ⟨rest, (name, v) :: values⟩ (t.evaluate name (valueOf values)).warnings)
  | unknown {target : String} (hd : DependsOn tokens name target) (hk : target ∉ tokens.keys) :
      Steps tokens name rest values (.failed (.unknown name target) [])
  | circular {target : String} (hd : DependsOn tokens name target) (hs : target ∈ name :: rest) :
      Steps tokens name rest values
        (.failed (.circular target (chain (name :: rest) target)) [])
  | rejected {t : Token} {text : String} (ht : tokens.get? name = some t)
      (hd : ∀ d ∈ t.dependencies, found values d = true) (hr : t.Rejects (valueOf values) text) :
      Steps tokens name rest values (.failed (.invalidColor name ⟨text⟩)
        (t.evaluate name (valueOf values)).warnings)

theorem need_eq_nothing {s : Search} {token : String} {targets : List String}
    (h : need tokens s token targets = .nothing) : ∀ d ∈ targets, found s.values d = true := by
  induction targets with
  | nil => simp
  | cons t r ih =>
      rw [need] at h
      split at h
      · split at h
        · rename_i hfound
          exact List.forall_mem_cons.2 ⟨hfound, ih h⟩
        · split at h <;> cases h
      · cases h

theorem need_visit_mem {s : Search} {token name : String} {targets : List String}
    (h : need tokens s token targets = .visit name) : name ∈ targets := by
  induction targets with
  | nil => cases h
  | cons t r ih =>
      rw [need] at h
      split at h
      · split at h
        · exact List.mem_cons_of_mem _ (ih h)
        · split at h
          · cases h
          · cases h
            exact List.mem_cons_self
      · cases h

theorem need_failure {s : Search} {token : String} {targets : List String} {e : ResolveError}
    (h : need tokens s token targets = .failure e) :
    ∃ d ∈ targets, (d ∉ tokens.keys ∧ e = .unknown token d) ∨
      (d ∈ s.stack ∧ e = .circular d (chain s.stack d)) := by
  induction targets with
  | nil => cases h
  | cons t r ih =>
      rw [need] at h
      split at h
      · split at h
        · obtain ⟨d, hd, he⟩ := ih h
          exact ⟨d, List.mem_cons_of_mem _ hd, he⟩
        · split at h
          · rename_i hstack
            cases h
            exact ⟨t, List.mem_cons_self, .inr ⟨by simpa using hstack, rfl⟩⟩
          · cases h
      · rename_i hkey
        cases h
        exact ⟨t, List.mem_cons_self, .inl ⟨fun hk => hkey (Dict.get?_isSome_iff.2 hk), rfl⟩⟩

theorem steps_step {name : String} (hk : name ∈ tokens.keys) (rest : List String)
    (values : List (String × String)) :
    Steps tokens name rest values (step tokens name rest values) := by
  obtain ⟨t, ht⟩ := Option.isSome_iff_exists.1 (Dict.get?_isSome_iff.2 hk)
  unfold step
  cases hfound : found values name with
  | true => exact .settled hfound
  | false =>
      simp only [Bool.false_eq_true, ↓reduceIte, ht]
      cases hneed : need tokens ⟨name :: rest, values⟩ name t.dependencies with
      | failure e =>
          obtain ⟨d, hd, ⟨hkey, rfl⟩ | ⟨hstack, rfl⟩⟩ := need_failure hneed
          · exact .unknown ((dependsOn_iff ht).2 hd) hkey
          · exact .circular ((dependsOn_iff ht).2 hd) hstack
      | visit target =>
          obtain ⟨hkey, hnone, hstack⟩ := need_visit hneed
          have hd := (dependsOn_iff ht).2 (need_visit_mem hneed)
          exact .visit hfound hd hkey hnone (by simpa using hstack)
      | nothing =>
          have hd := need_eq_nothing hneed
          cases hvalue : (t.evaluate name (valueOf values)).outcome with
          | ok v =>
              exact .value hfound ht hd (Token.evaluate_eq_ok_iff.1 hvalue)
          | error e =>
              obtain ⟨text, hr, rfl⟩ := Token.evaluate_eq_error_iff.1 hvalue
              exact .rejected ht hd hr

/-- What holds of every state of a search. -/
structure Inv (tokens : Dict Token) (s : Search) : Prop where
  nodup : s.stack.Nodup
  known : ∀ n ∈ s.stack, n ∈ tokens.keys
  path : s.stack.IsChain fun inner outer => DependsOn tokens outer inner
  means : ∀ n v, s.values.lookup n = some v → Means tokens n v

theorem lookup_of_found {values : List (String × String)} {n : String}
    (h : found values n = true) : values.lookup n = some (valueOf values n) := by
  obtain ⟨v, hv⟩ := Option.isSome_iff_exists.1 h
  rw [valueOf, hv]
  rfl

theorem inv_root {name : String} {values : List (String × String)} (hk : name ∈ tokens.keys)
    (hm : ∀ n v, values.lookup n = some v → Means tokens n v) : Inv tokens ⟨[name], values⟩ where
  nodup := by simp
  known := by simpa using hk
  path := .singleton _
  means := hm

variable {name : String} {rest : List String} {values : List (String × String)}

theorem Inv.means_of_dependsOn (hs : Inv tokens ⟨name :: rest, values⟩) {t : Token}
    (ht : tokens.get? name = some t) (hd : ∀ d ∈ t.dependencies, found values d = true) (d : String)
    (h : DependsOn tokens name d) : Means tokens d (valueOf values d) :=
  hs.means d _ (lookup_of_found (hd d ((dependsOn_iff ht).1 h)))

theorem means_cons {t : Token} {v : String}
    (hm : ∀ n w, values.lookup n = some w → Means tokens n w) (ht : tokens.get? name = some t)
    (hd : ∀ d ∈ t.dependencies, found values d = true) (hv : t.Equation (valueOf values) v)
    (n w : String) (hw : ((name, v) :: values).lookup n = some w) : Means tokens n w := by
  rw [Dict.lookup_cons_eq] at hw
  split at hw
  · rename_i hn
    cases hw
    subst hn
    exact .of_dependencies _ ht (fun d hmem => hm d _ (lookup_of_found (hd d hmem))) hv
  · exact hm n w hw

theorem Inv.step {next : Search} {ws : List Warning} (hs : Inv tokens ⟨name :: rest, values⟩)
    (h : Search.step tokens name rest values = .goOn next ws) : Inv tokens next := by
  have hk := hs.known name List.mem_cons_self
  have hsteps := steps_step hk rest values
  rw [h] at hsteps
  have hrest : ∀ n ∈ rest, n ∈ tokens.keys := fun n hn => hs.known n (List.mem_cons_of_mem _ hn)
  cases hsteps with
  | settled _ => exact ⟨hs.nodup.of_cons, hrest, hs.path.of_cons, hs.means⟩
  | visit _ hd hkey _ hstack =>
      exact ⟨List.nodup_cons.2 ⟨hstack, hs.nodup⟩, List.forall_mem_cons.2 ⟨hkey, hs.known⟩,
        hs.path.cons_cons hd, hs.means⟩
  | value _ ht hd hv =>
      exact ⟨hs.nodup.of_cons, hrest, hs.path.of_cons, means_cons hs.means ht hd hv⟩

/-- A step loses no value, and every token it takes off the stack has one. -/
theorem step_progress {next : Search} {ws : List Warning} (hk : name ∈ tokens.keys)
    (h : step tokens name rest values = .goOn next ws) :
    (∀ n, found values n = true → found next.values n = true) ∧
      ∀ n ∈ name :: rest, n ∈ next.stack ∨ found next.values n = true := by
  have hsteps := steps_step hk rest values
  rw [h] at hsteps
  cases hsteps with
  | settled hfound =>
      exact ⟨fun _ hn => hn, List.forall_mem_cons.2 ⟨.inr hfound, fun _ hn => .inl hn⟩⟩
  | visit _ _ _ _ _ => exact ⟨fun _ hn => hn, fun _ hn => .inl (List.mem_cons_of_mem _ hn)⟩
  | value _ _ _ _ =>
      refine ⟨fun n hn => ?_, List.forall_mem_cons.2 ⟨.inr ?_, fun _ hn => .inl hn⟩⟩
      · rw [found_cons, hn, Bool.or_true]
      · rw [found_cons, beq_self_eq_true, Bool.true_or]

end Swatchbook.Search

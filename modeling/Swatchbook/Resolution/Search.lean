import Swatchbook.Resolution.Evaluate
/-!
Resolution of a token set by depth-first search. The tokens that wait for a dependency stand on a
stack, innermost first; a token is given its value once all its dependencies have theirs. A dependency
that is itself on the stack closes a cycle.

The search ends because each step either gives a token its value, or moves a token that had no value
and was not on the stack onto it, or drops a token that has its value already.
-/
namespace Swatchbook

/-- The tokens under way, innermost first, and the values found so far, latest first. -/
structure Search where
  stack : List String
  values : List (String × String)

namespace Search

def valueOf (values : List (String × String)) (name : String) : String :=
  (values.lookup name).getD ""

def found (values : List (String × String)) (name : String) : Bool :=
  (values.lookup name).isSome

theorem found_cons (n v : String) (values : List (String × String)) (k : String) :
    found ((n, v) :: values) k = (k == n || found values k) := by
  rw [found, List.lookup_cons]
  cases hk : k == n <;> simp [found]

/-- What has to happen before the innermost token can be evaluated. -/
inductive Need where
  | nothing
  | visit (name : String)
  | failure (error : ResolveError)

def chain (stack : List String) (name : String) : List String :=
  name :: (stack.takeWhile (· != name)).reverse ++ [name]

def need (tokens : Dict Token) (s : Search) (token : String) : List String → Need
  | [] => .nothing
  | target :: rest =>
    if tokens.contains target then
      if found s.values target then need tokens s token rest
      else if s.stack.contains target then .failure (.circular target (chain s.stack target))
      else .visit target
    else .failure (.unknown token target)

inductive Step where
  | goOn (next : Search) (warnings : List Warning)
  | failed (error : ResolveError) (warnings : List Warning)

def step (tokens : Dict Token) (name : String) (rest : List String)
    (values : List (String × String)) : Step :=
  if found values name then .goOn ⟨rest, values⟩ []
  else
    match tokens.get? name with
    | none => .goOn ⟨rest, values⟩ []
    | some token =>
      match need tokens ⟨name :: rest, values⟩ name token.dependencies with
      | .failure e => .failed e []
      | .visit target => .goOn ⟨target :: name :: rest, values⟩ []
      | .nothing =>
        let value := token.evaluate name (valueOf values)
        match value.outcome with
        | .error e => .failed e value.warnings
        | .ok v => .goOn ⟨rest, (name, v) :: values⟩ value.warnings

def unvalued (tokens : Dict Token) (s : Search) : Nat :=
  tokens.keys.countP fun k => !found s.values k

def untouched (tokens : Dict Token) (s : Search) : Nat :=
  tokens.keys.countP fun k => !found s.values k && !s.stack.contains k

theorem countP_lt_countP {p q : String → Bool} {l : List String}
    (h : ∀ k ∈ l, p k = true → q k = true) {a : String} (ha : a ∈ l) (hq : q a = true)
    (hp : p a = false) : l.countP p < l.countP q := by
  induction l with
  | nil => simp at ha
  | cons k r ih =>
    have hle : r.countP p ≤ r.countP q :=
      List.countP_mono_left fun x hx => h x (List.mem_cons_of_mem _ hx)
    rw [List.countP_cons, List.countP_cons]
    rcases List.mem_cons.1 ha with rfl | ha
    · simp [hp, hq]; omega
    · have := ih (fun x hx => h x (List.mem_cons_of_mem _ hx)) ha
      have := h k (List.mem_cons_self ..)
      cases hk : p k with
      | false =>
        rw [if_neg Bool.false_ne_true]
        omega
      | true =>
        rw [this hk]
        omega

theorem need_visit {tokens : Dict Token} {s : Search} {token : String} {targets : List String}
    {name : String} (h : need tokens s token targets = .visit name) :
    name ∈ tokens.keys ∧ found s.values name = false ∧ s.stack.contains name = false := by
  induction targets with
  | nil => simp [need] at h
  | cons t r ih =>
    rw [need] at h
    split at h
    · next ht =>
      split at h
      · exact ih h
      · next hv =>
        split at h
        · simp at h
        · next hs =>
          cases h
          exact ⟨Dict.get?_isSome_iff.1 ht, by simpa using hv, by simpa using hs⟩
    · simp at h

/-- The order in which steps decrease. -/
def measure (tokens : Dict Token) (s : Search) : Nat × Nat × Nat :=
  (unvalued tokens s, untouched tokens s, s.stack.length)

theorem measure_pop {tokens : Dict Token} {name : String} {rest : List String}
    {values : List (String × String)}
    (h : name ∈ tokens.keys → found values name = true) :
    Prod.Lex (· < ·) (Prod.Lex (· < ·) (· < ·)) (measure tokens ⟨rest, values⟩)
      (measure tokens ⟨name :: rest, values⟩) := by
  have he : untouched tokens ⟨rest, values⟩ = untouched tokens ⟨name :: rest, values⟩ := by
    refine List.countP_congr fun k hk => ?_
    by_cases hn : k = name
    · subst hn
      simp [h hk]
    · simp [hn]
  rw [measure, measure, he]
  exact .right _ (.right _ (by simp))

theorem step_measure {tokens : Dict Token} {name : String} {rest : List String}
    {values : List (String × String)} {next : Search} {ws : List Warning}
    (h : step tokens name rest values = .goOn next ws) :
    Prod.Lex (· < ·) (Prod.Lex (· < ·) (· < ·)) (measure tokens next)
      (measure tokens ⟨name :: rest, values⟩) := by
  rw [step] at h
  split at h
  · next hv =>
    cases h
    exact measure_pop fun _ => hv
  · next hv =>
    split at h
    · next hn =>
      cases h
      refine measure_pop fun hk => ?_
      rw [← Dict.get?_isSome_iff, hn] at hk
      exact absurd hk (by simp)
    · next token ht =>
      have hkey : name ∈ tokens.keys := Dict.get?_isSome_iff.1 (by simp [ht])
      split at h
      · simp at h
      · next target hneed =>
        cases h
        obtain ⟨hk, hnone, hstack⟩ := need_visit hneed
        refine .right _ (.left _ _ (countP_lt_countP (a := target) (fun k _ hp => ?_) hk ?_ ?_))
        · simp_all
        · simp_all
        · simp
      · simp only at h
        split at h
        · simp at h
        · cases h
          refine .left _ _ (countP_lt_countP (a := name) (fun k _ hp => ?_) hkey ?_ ?_)
          · simp_all [found_cons]
          · simp_all
          · simp [found_cons]

def run (tokens : Dict Token) (s : Search) : Logged ResolveError (List (String × String)) :=
  match _hs : s.stack with
  | [] => pure s.values
  | name :: rest =>
    match _h : step tokens name rest s.values with
    | .failed e ws => ⟨.error e, ws⟩
    | .goOn next ws =>
      let result := run tokens next
      ⟨result.outcome, ws ++ result.warnings⟩
termination_by measure tokens s
decreasing_by
  have := step_measure _h
  rwa [← _hs] at this

end Search

/-- Follows every reference and applies every adjustment: the values of all tokens, or the first
error met when the tokens are taken in the order of their names. -/
def resolve (tokens : Dict Token) : Logged ResolveError (Dict String) := do
  let values ← tokens.keys.foldlM (fun values name => Search.run tokens ⟨[name], values⟩) []
  return tokens.mapWithKey fun name _ => Search.valueOf values name

end Swatchbook

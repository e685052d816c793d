import Swatchbook.Proofs.Resolution.Outcome

/-! A search that writes down how far it has come with each token: no token is marked at first,
one that is under way is marked as visited, and one with a value as done. A token on the stack
is looked at again each time another that it waited for is done. The search has fallbacks: a
slot without a value is read as empty text, a token that is not on the stack is taken to stand
at its outer end, and a token without a value is left out of the result. -/
namespace Swatchbook

inductive Mark where
  | pending
  | visiting
  | done
deriving DecidableEq

/-- The tokens under way, innermost first, with a mark and a slot for a value for each token. -/
structure MarkedSearch where
  stack : List String
  mark : String → Mark
  slot : String → Option String

namespace MarkedSearch

def start : MarkedSearch :=
  ⟨[], fun _ => .pending, fun _ => none⟩

def visit (s : MarkedSearch) (name : String) : MarkedSearch :=
  { s with mark := fun n => if n = name then .visiting else s.mark n }

def push (s : MarkedSearch) (name : String) : MarkedSearch :=
  { s with stack := name :: s.stack }

/-- Gives the innermost token its value and takes it off the stack. -/
def settle (s : MarkedSearch) (name value : String) (rest : List String) : MarkedSearch :=
  ⟨rest, fun n => if n = name then .done else s.mark n,
    fun n => if n = name then some value else s.slot n⟩

def valueOf (s : MarkedSearch) (name : String) : String :=
  (s.slot name).getD ""

def place? (s : MarkedSearch) (name : String) : Option Nat :=
  s.stack.reverse.idxOf? name

/-- The stack in reading order from a token on, and that token once more. -/
def chain (s : MarkedSearch) (name : String) : List String :=
  s.stack.reverse.drop ((s.place? name).getD 0) ++ [name]

/-- The first obstacle among the dependencies of `token`. -/
def need (tokens : Dict Token) (s : MarkedSearch) (token : String) : List String → Search.Need
  | [] => .nothing
  | target :: rest =>
    if tokens.contains target then
      match s.mark target with
      | .done => need tokens s token rest
      | .pending => .visit target
      | .visiting => .failure (.circular target (s.chain target))
    else .failure (.unknown token target)

inductive Step where
  | ended
  | goOn (next : MarkedSearch) (warnings : List Warning)
  | failed (error : ResolveError) (warnings : List Warning)

def step (tokens : Dict Token) (s : MarkedSearch) : Step :=
  match s.stack with
  | [] => .ended
  | name :: rest =>
    if s.mark name = .done then .goOn { s with stack := rest } []
    else
      match tokens.get? name with
      | none => .goOn { s with stack := rest } []
      | some token =>
        match need tokens (s.visit name) name token.dependencies with
        | .failure e => .failed e []
        | .visit target => .goOn ((s.visit name).push target) []
        | .nothing =>
          let value := token.evaluate name s.valueOf
          match value.outcome with
          | .error e => .failed e value.warnings
          | .ok v => .goOn (s.settle name v rest) value.warnings

/-! ### What a step can do -/

/-- Where a search goes on from a state whose innermost token is `name`: it leaves a token that
is done, it waits for a dependency without a mark, or it gives the token a value. -/
inductive Goes (tokens : Dict Token) (s : MarkedSearch) (name : String) (rest : List String) :
    MarkedSearch → Prop
  | leave (h : s.mark name = .done ∨ tokens.get? name = none) :
      Goes tokens s name rest { s with stack := rest }
  | wait {t : Token} {target : String} (h : s.mark name ≠ .done) (ht : tokens.get? name = some t)
      (hd : target ∈ t.dependencies) (hk : target ∈ tokens.keys)
      (hp : (s.visit name).mark target = .pending) :
      Goes tokens s name rest ((s.visit name).push target)
  | settle {t : Token} {v : String} (h : s.mark name ≠ .done) (ht : tokens.get? name = some t)
      (hd : ∀ d ∈ t.dependencies, (s.visit name).mark d = .done) :
      Goes tokens s name rest (s.settle name v rest)

variable {tokens : Dict Token} {s : MarkedSearch}

theorem need_eq_nothing {token : String} {targets : List String}
    (h : need tokens s token targets = .nothing) : ∀ d ∈ targets, s.mark d = .done := by
  induction targets with
  | nil => nofun
  | cons t r ih =>
      rw [need] at h
      split at h
      · cases hmark : s.mark t with
        | done =>
            rw [hmark] at h
            exact List.forall_mem_cons.2 ⟨hmark, ih h⟩
        | pending | visiting =>
            rw [hmark] at h
            cases h
      · cases h

theorem need_visit {token name : String} {targets : List String}
    (h : need tokens s token targets = .visit name) :
    name ∈ targets ∧ name ∈ tokens.keys ∧ s.mark name = .pending := by
  induction targets with
  | nil => cases h
  | cons t r ih =>
      rw [need] at h
      split at h
      · rename_i hk
        cases hmark : s.mark t with
        | done =>
            rw [hmark] at h
            exact (ih h).imp_left (List.mem_cons_of_mem _)
        | pending =>
            rw [hmark] at h
            cases h
            exact ⟨List.mem_cons_self, Dict.get?_isSome_iff.1 hk, hmark⟩
        | visiting =>
            rw [hmark] at h
            cases h
      · cases h

theorem goes_of_step {next : MarkedSearch} {ws : List Warning} (h : step tokens s = .goOn next ws) :
    ∃ name rest, s.stack = name :: rest ∧ Goes tokens s name rest next := by
  unfold step at h
  cases hstack : s.stack with
  | nil =>
      rw [hstack] at h
      cases h
  | cons name rest =>
      refine ⟨name, rest, rfl, ?_⟩
      simp only [hstack] at h
      split at h
      · rename_i hdone
        cases h
        exact .leave (.inl hdone)
      · rename_i hdone
        split at h
        · rename_i hnone
          cases h
          exact .leave (.inr hnone)
        · rename_i t ht
          split at h
          · cases h
          · rename_i target hneed
            cases h
            obtain ⟨hd, hk, hp⟩ := need_visit hneed
            exact .wait hdone ht hd hk hp
          · rename_i hneed
            split at h
            · cases h
            · cases h
              exact .settle hdone ht (need_eq_nothing hneed)

/-! ### The end of a search -/

def undone (tokens : Dict Token) (s : MarkedSearch) : Nat :=
  tokens.keys.countP fun n => s.mark n != .done

def unmarked (tokens : Dict Token) (s : MarkedSearch) : Nat :=
  tokens.keys.countP fun n => s.mark n == .pending

/-- Whether the innermost token is looked at for the first time, as one or zero. -/
def fresh (tokens : Dict Token) (s : MarkedSearch) : Nat :=
  match s.stack with
  | [] => 0
  | name :: _ => if tokens.contains name && s.mark name == .pending then 1 else 0

/-- What a step takes something away from. The stack grows when a token waits, but then the
next one to be looked at is fresh, and a fresh one that waits gets a mark. -/
def weight (tokens : Dict Token) (s : MarkedSearch) : Nat :=
  undone tokens s + 2 * unmarked tokens s + s.stack.length + (2 - 2 * fresh tokens s)

theorem countP_mark_le {name : String} {p : Mark → Bool} {m : Mark}
    (h : p m = true → p (s.mark name) = true) :
    tokens.keys.countP (fun n => p (if n = name then m else s.mark n)) ≤
      tokens.keys.countP fun n => p (s.mark n) := by
  refine List.countP_mono_left fun n _ hn => ?_
  by_cases heq : n = name
  · rw [if_pos heq] at hn
    exact heq ▸ h hn
  · rwa [if_neg heq] at hn

theorem countP_mark_lt {name : String} {p : Mark → Bool} {m : Mark} (hk : name ∈ tokens.keys)
    (hold : p (s.mark name) = true) (hnew : p m = false) :
    tokens.keys.countP (fun n => p (if n = name then m else s.mark n)) <
      tokens.keys.countP fun n => p (s.mark n) := by
  refine Search.countP_lt_countP (fun n _ hn => ?_) hk hold ?_
  · by_cases heq : n = name
    · rwa [heq]
    · rwa [if_neg heq] at hn
  · rw [if_pos rfl, hnew]

theorem fresh_le_one (tokens : Dict Token) (s : MarkedSearch) : fresh tokens s ≤ 1 := by
  unfold fresh
  split
  · exact Nat.zero_le 1
  · split
    · exact Nat.le_refl 1
    · exact Nat.zero_le 1

/-- A fresh token gets its mark from any step that does not leave it. -/
theorem unmarked_add_fresh_le {name : String} {rest : List String} (hstack : s.stack = name :: rest)
    {m : Mark} (hm : (m == .pending) = false) :
    tokens.keys.countP (fun n => (if n = name then m else s.mark n) == .pending) + fresh tokens s ≤
      unmarked tokens s := by
  rw [fresh, hstack]
  dsimp only
  split
  · rename_i hfresh
    rw [Bool.and_eq_true] at hfresh
    exact countP_mark_lt (p := (· == .pending)) (Dict.get?_isSome_iff.1 hfresh.1) hfresh.2 hm
  · refine countP_mark_le (p := (· == .pending)) fun h => ?_
    rw [hm] at h
    cases h

theorem weight_lt {next : MarkedSearch} {ws : List Warning} (h : step tokens s = .goOn next ws) :
    weight tokens next < weight tokens s := by
  obtain ⟨name, rest, hstack, hgoes⟩ := goes_of_step h
  have hlength : s.stack.length = rest.length + 1 := by rw [hstack, List.length_cons]
  have hfresh := fresh_le_one tokens s
  cases hgoes with
  | leave hleave =>
      -- A token that is left was not fresh, so the last summand does not grow.
      have hold : fresh tokens s = 0 := by
        rw [fresh, hstack]
        rcases hleave with hdone | hnone
        · simp [hdone]
        · simp [Dict.contains, hnone]
      change undone tokens s + 2 * unmarked tokens s + rest.length + (2 - _) < _
      unfold weight
      omega
  | @wait t target hdone ht hd hk hp =>
      -- The longer stack is paid for by the mark of `name` if that was fresh, else by the fresh
      -- token on top.
      have hnew : fresh tokens ((s.visit name).push target) = 1 :=
        if_pos (Bool.and_eq_true_iff.2 ⟨Dict.get?_isSome_iff.2 hk, beq_iff_eq.2 hp⟩)
      have hundone : undone tokens (s.visit name) ≤ undone tokens s :=
        countP_mark_le (p := (· != .done)) fun _ => bne_iff_ne.2 hdone
      have hunmarked : unmarked tokens (s.visit name) + fresh tokens s ≤ unmarked tokens s :=
        unmarked_add_fresh_le hstack rfl
      change undone tokens (s.visit name) + 2 * unmarked tokens (s.visit name) +
        (s.stack.length + 1) + (2 - 2 * fresh tokens ((s.visit name).push target)) < _
      unfold weight
      omega
  | @settle t v hdone ht hd =>
      have hundone : undone tokens (s.settle name v rest) < undone tokens s :=
        countP_mark_lt (p := (· != .done)) (Dict.mem_keys_of_get? ht) (bne_iff_ne.2 hdone) rfl
      have hunmarked : unmarked tokens (s.settle name v rest) + fresh tokens s ≤ unmarked tokens s :=
        unmarked_add_fresh_le hstack rfl
      change undone tokens (s.settle name v rest) + 2 * unmarked tokens (s.settle name v rest) +
        rest.length + (2 - _) < _
      unfold weight
      omega

def run (tokens : Dict Token) (s : MarkedSearch) : Logged ResolveError MarkedSearch :=
  match _h : step tokens s with
  | .ended => pure s
  | .failed e ws => ⟨.error e, ws⟩
  | .goOn next ws =>
    let result := run tokens next
    ⟨result.outcome, ws ++ result.warnings⟩
termination_by weight tokens s
decreasing_by exact weight_lt _h

theorem run_eq (tokens : Dict Token) (s : MarkedSearch) :
    run tokens s =
      match step tokens s with
      | .ended => pure s
      | .failed e ws => ⟨.error e, ws⟩
      | .goOn next ws => ⟨(run tokens next).outcome, ws ++ (run tokens next).warnings⟩ := by
  rw [run]
  split <;> simp_all

/-- The searches of several tokens in turn, each with the marks and values left by those before. -/
def runAll (tokens : Dict Token) (names : List String) (s : MarkedSearch) :
    Logged ResolveError MarkedSearch :=
  names.foldlM (fun s name => run tokens { s with stack := [name] }) s

/-- The tokens that have a value. -/
def collect (tokens : Dict Token) (s : MarkedSearch) : Dict String :=
  .ofList (tokens.keys.filterMap fun name => (s.slot name).map fun value => (name, value))

def resolve (tokens : Dict Token) : Logged ResolveError (Dict String) := do
  let last ← runAll tokens tokens.keys start
  return collect tokens last

end MarkedSearch

end Swatchbook

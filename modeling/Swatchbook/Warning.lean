import Swatchbook.Text.Quoted
/-!
Warnings, and computations that issue them. A computation keeps the warnings it issued before it
failed, so a failure carries them too.
-/
namespace Swatchbook

inductive Warning where
  | keepsReference (token text : String)
  | dropsAdjustment (token base : String)
  | unknownOperation (token operation : String)
deriving DecidableEq, Repr

def Warning.message : Warning → String
  | keepsReference token text => "token `" ++ token ++ "` keeps unresolved reference " ++ text
  | dropsAdjustment token base =>
    "token `" ++ token ++ "` drops its modifier on unresolved value " ++ base
  | unknownOperation token operation =>
    "color token `" ++ token ++ "`: unknown modifier " ++ Text.quote operation ++ ", ignored"

/-- An outcome with the warnings issued on the way to it, in order. -/
structure Logged (ε α : Type) where
  outcome : Except ε α
  warnings : List Warning := []

namespace Logged

variable {ε ε' α β : Type}

instance : Monad (Logged ε) where
  pure a := ⟨.ok a, []⟩
  bind x f :=
    match x.outcome with
    | .error e => ⟨.error e, x.warnings⟩
    | .ok a => ⟨(f a).outcome, x.warnings ++ (f a).warnings⟩

@[simp] theorem outcome_pure (a : α) : (pure a : Logged ε α).outcome = .ok a :=
  rfl

theorem outcome_bind_of_ok {x : Logged ε α} {a : α} (h : x.outcome = .ok a) (f : α → Logged ε β) :
    (x >>= f).outcome = (f a).outcome := by
  simp only [bind, h]

@[simp] theorem warnings_pure (a : α) : (pure a : Logged ε α).warnings = [] :=
  rfl

theorem warnings_bind_of_ok {x : Logged ε α} {a : α} (h : x.outcome = .ok a) (f : α → Logged ε β) :
    (x >>= f).warnings = x.warnings ++ (f a).warnings := by
  simp only [bind, h]

theorem outcome_bind_of_error {x : Logged ε α} {e : ε} (h : x.outcome = .error e)
    (f : α → Logged ε β) : (x >>= f).outcome = .error e := by
  simp only [bind, h]

def fail (e : ε) : Logged ε α :=
  ⟨.error e, []⟩

def lift (x : Except ε α) : Logged ε α :=
  ⟨x, []⟩

def mapError (f : ε → ε') (x : Logged ε α) : Logged ε' α :=
  ⟨x.outcome.mapError f, x.warnings⟩

/-- The outcome as a value: from here on nothing has failed. -/
def attempt (x : Logged ε α) : Logged ε' (Except ε α) :=
  ⟨.ok x.outcome, x.warnings⟩

@[simp] theorem outcome_fail (e : ε) : (fail e : Logged ε α).outcome = .error e :=
  rfl

@[simp] theorem outcome_lift (x : Except ε α) : (lift x).outcome = x :=
  rfl

@[simp] theorem outcome_mapError (f : ε → ε') (x : Logged ε α) :
    (x.mapError f).outcome = x.outcome.mapError f :=
  rfl

@[simp] theorem outcome_attempt (x : Logged ε α) :
    (x.attempt : Logged ε' (Except ε α)).outcome = .ok x.outcome :=
  rfl

theorem outcome_bind (x : Logged ε α) (f : α → Logged ε β) :
    (x >>= f).outcome = x.outcome.bind fun a => (f a).outcome := by
  cases h : x.outcome with
  | error e => exact outcome_bind_of_error h f
  | ok a => exact outcome_bind_of_ok h f

theorem outcome_map (x : Logged ε α) (f : α → β) : (f <$> x).outcome = x.outcome.map f := by
  cases h : x.outcome <;> simp only [Functor.map, h] <;> rfl

end Logged

end Swatchbook

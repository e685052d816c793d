import Mathlib.Data.List.Chain
import Swatchbook.Resolution.Search

/-! What a token set means, without any order of evaluation. Every token sets an
equation for its value in terms of the values of the tokens it depends on; a
token has a value when its equation can be solved from the leaves up. -/
namespace Swatchbook

/-- The color of `a` starts from that of `b`, or `b` is mixed in. -/
def DependsOn (tokens : Dict Token) (a b : String) : Prop :=
  ∃ t, tokens.get? a = some t ∧ (t.base? = some b ∨ t.mixed? = some b)

def Hex.IsOpaque (s : String) : Prop :=
  ((Hex.bare s.toList).length = 3 ∨ (Hex.bare s.toList).length = 6) ∧
    (Hex.bare s.toList).all isHexDigit = true

def Hex.HasOpacity (s : String) : Prop :=
  Hex.isValid s = true ∧ s.toList.length = 9

/-- The text that a token starts from: a color in normal form, or the value of
another token. -/
inductive ColorValue.StartsAt (valueOf : String → String) : ColorValue → String → Prop
  | literal {text : String} (h : Hex.isValid text = true) :
      StartsAt valueOf (.literal text) (Hex.normalize text)
  | reference {name : String} : StartsAt valueOf (.reference name) (valueOf name)

/-- What an operation makes of a color. -/
inductive Operation.Yields (valueOf : String → String) (c : Rgb) (amount : Float) :
    Operation → String → Prop
  | lighten : Yields valueOf c amount .lighten (c.lighten amount).toHex
  | darken : Yields valueOf c amount .darken (c.darken amount).toHex
  | alpha : Yields valueOf c amount .alpha (c.withAlpha amount)
  | mix {other : ColorValue} {d : Rgb} (h : Hex.read (other.textWith valueOf) = .ok d) :
      Yields valueOf c amount (.mix other) (c.blend d amount).toHex

/-- The equation of a token: which text is its value when its dependencies have
the values `valueOf`. -/
inductive Token.Equation (valueOf : String → String) (t : Token) : String → Prop
  | verbatim {text : String} (h : t.value = .verbatim text) : Equation valueOf t text
  | unadjusted {base : String} (h : t.value.StartsAt valueOf base) (ha : t.adjustment = none) :
      Equation valueOf t base
  | dropped {base : String} {a : Adjustment} (h : t.value.StartsAt valueOf base)
      (ha : t.adjustment = some a) (hb : Hex.isValid base = false) : Equation valueOf t base
  | adjusted {base text : String} {a : Adjustment} {c : Rgb} (h : t.value.StartsAt valueOf base)
      (ha : t.adjustment = some a) (hb : Hex.isValid base = true) (hc : Hex.read base = .ok c)
      (hv : a.operation.Yields valueOf c a.amount text) : Equation valueOf t text

/-- The texts to blame when the equation of a token has no solution: its own
literal, a start that cannot be adjusted, or the color to be mixed in. -/
inductive Token.Rejects (valueOf : String → String) (t : Token) : String → Prop
  | literal {text : String} (h : t.value = .literal text) (hv : Hex.isValid text = false) :
      Rejects valueOf t text
  | opacity {base : String} {a : Adjustment} (h : t.value.StartsAt valueOf base)
      (ha : t.adjustment = some a) (hb : Hex.HasOpacity base) : Rejects valueOf t base
  | mixed {base : String} {a : Adjustment} {other : ColorValue}
      (h : t.value.StartsAt valueOf base) (ha : t.adjustment = some a)
      (hb : Hex.isValid base = true) (ho : ¬Hex.HasOpacity base)
      (hm : a.operation = .mix other) (hc : ¬Hex.IsOpaque (other.textWith valueOf)) :
      Rejects valueOf t (other.textWith valueOf)

/-- The token `name` has the value `text` by recursion along dependencies. -/
inductive Means (tokens : Dict Token) : String → String → Prop
  | intro {name text : String} (t : Token) (valueOf : String → String)
      (ht : tokens.get? name = some t)
      (hd : ∀ d, DependsOn tokens name d → Means tokens d (valueOf d))
      (hv : t.Equation valueOf text) : Means tokens name text

/-- Values for exactly the tokens of a set that satisfy all their equations. -/
structure Solves (tokens : Dict Token) (values : Dict String) : Prop where
  keys : values.keys = tokens.keys
  equation : ∀ name t, tokens.get? name = some t → ∃ valueOf text,
    (∀ d, DependsOn tokens name d → values.get? d = some (valueOf d)) ∧
      values.get? name = some text ∧ t.Equation valueOf text

/-- What a token set needs to have a value for every token. -/
structure Resolvable (tokens : Dict Token) : Prop where
  known : ∀ a b, DependsOn tokens a b → b ∈ tokens.keys
  acyclic : ∀ a, ¬Relation.TransGen (DependsOn tokens) a a
  colored : ∀ name t valueOf, tokens.get? name = some t →
    (∀ d, DependsOn tokens name d → Means tokens d (valueOf d)) →
      ∀ text, ¬t.Rejects valueOf text

def ResolveError.Truthful (tokens : Dict Token) : ResolveError → Prop
  | .circular token chain =>
      2 ≤ chain.length ∧ chain.head? = some token ∧ chain.getLast? = some token ∧
        chain.dropLast.Nodup ∧ (∀ n ∈ chain.dropLast, n ∈ tokens.keys) ∧
          chain.IsChain (DependsOn tokens)
  | .unknown token target => DependsOn tokens token target ∧ target ∉ tokens.keys
  | .invalidColor token cause =>
      ∃ t valueOf, tokens.get? token = some t ∧
        (∀ d, DependsOn tokens token d → Means tokens d (valueOf d)) ∧
          t.Rejects valueOf cause.text

theorem Token.mem_dependencies (t : Token) (d : String) :
    d ∈ t.dependencies ↔ t.base? = some d ∨ t.mixed? = some d := by
  simp [Token.dependencies]

theorem dependsOn_iff {tokens : Dict Token} {a b : String} {t : Token}
    (ht : tokens.get? a = some t) : DependsOn tokens a b ↔ b ∈ t.dependencies := by
  rw [t.mem_dependencies]
  constructor
  · rintro ⟨u, hu, h⟩
    rw [ht] at hu
    cases hu
    exact h
  · exact fun h => ⟨t, ht, h⟩

theorem dependsOn_of_reference {tokens : Dict Token} {name target : String} {t : Token}
    (ht : tokens.get? name = some t) (hv : t.value = .reference target) :
    DependsOn tokens name target :=
  ⟨t, ht, .inl (by rw [Token.base?, hv]; rfl)⟩

theorem DependsOn.mem_keys {tokens : Dict Token} {a b : String} (h : DependsOn tokens a b) :
    a ∈ tokens.keys := by
  obtain ⟨t, ht, _⟩ := h
  exact Dict.mem_keys_of_get? ht

end Swatchbook

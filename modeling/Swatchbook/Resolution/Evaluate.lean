import Swatchbook.Dict
import Swatchbook.Token
import Swatchbook.Warning
/-!
The value of one token, given the values of the tokens it depends on, and what can be wrong with a
token set.
-/
namespace Swatchbook

inductive ResolveError where
  /-- `chain` leads from `token` along dependencies back to `token`. -/
  | circular (token : String) (chain : List String)
  | unknown (token target : String)
  | invalidColor (token : String) (cause : ColorError)
deriving DecidableEq, Repr

def ResolveError.message : ResolveError → String
  | circular token chain =>
    "circular reference at `" ++ token ++ "`: " ++ " -> ".intercalate chain
  | unknown token target => "token `" ++ token ++ "` references unknown token `" ++ target ++ "`"
  | invalidColor token cause => "token `" ++ token ++ "`: " ++ cause.message

def ColorValue.textWith (valueOf : String → String) : ColorValue → String
  | reference name => valueOf name
  | verbatim text => text
  | literal text => text

def Adjustment.apply (a : Adjustment) (valueOf : String → String) (base : String) :
    Except ColorError String :=
  (Hex.read base).bind fun c =>
    match a.operation with
    | .lighten => .ok (c.lighten a.amount).toHex
    | .darken => .ok (c.darken a.amount).toHex
    | .alpha => .ok (c.withAlpha a.amount)
    | .mix other => (c.mix (other.textWith valueOf) a.amount).map Rgb.toHex

/-- The color a token starts from: verbatim text never gets here. -/
def ColorValue.baseWith (valueOf : String → String) : ColorValue → Except ColorError String
  | reference name => .ok (valueOf name)
  | verbatim text => .ok text
  | literal text => if Hex.isValid text then .ok (Hex.normalize text) else .error ⟨text⟩

/-- The value of the token `name`, where `valueOf` holds the values of its dependencies. Verbatim text
is final; an adjustment is dropped when the token starts from text that is no color. -/
def Token.evaluate (t : Token) (name : String) (valueOf : String → String) :
    Logged ResolveError String :=
  match t.value with
  | .verbatim text => ⟨.ok text, [.keepsReference name text]⟩
  | value =>
    match value.baseWith valueOf with
    | .error e => .fail (.invalidColor name e)
    | .ok base =>
      match t.adjustment with
      | none => pure base
      | some a =>
        if Hex.isValid base then .lift ((a.apply valueOf base).mapError (.invalidColor name))
        else ⟨.ok base, [.dropsAdjustment name base]⟩

end Swatchbook

import Swatchbook.Color.Blend
import Swatchbook.Text.Piece
/-!
Color tokens before resolution: what a token's value says, and how the color is adjusted afterwards.
-/
namespace Swatchbook

/-- The value of a token, by the form of its text: `{color.name}`, any other text in braces, which is
kept as it is, or a text that has to be a color. -/
inductive ColorValue where
  | reference (name : String)
  | verbatim (text : String)
  | literal (text : String)
deriving DecidableEq, Repr

/-- What stands between an opening brace at the start and a closing brace at the end. -/
def inBraces? (s : String) : Option (List Char) :=
  match s.toList with
  | '\x7b' :: r => if r.getLast? = some '\x7d' then some r.dropLast else none
  | _ => none

namespace ColorValue

def classify (s : String) : ColorValue :=
  match inBraces? s with
  | none => literal s
  | some inner =>
    match Text.cut? '.' inner with
    | some (group, name) =>
      if group = "color".toList ∧ name ≠ [] then reference (String.ofList name) else verbatim s
    | none => verbatim s

def target? : ColorValue → Option String
  | reference name => some name
  | _ => none

end ColorValue

def isTokenReference (s : String) : Bool :=
  match inBraces? s with
  | some inner => inner.contains '.'
  | none => false

def sameIgnoringCase (a b : String) : Bool :=
  a.toList.map Char.toLower == b.toList.map Char.toLower

inductive TokenKind where
  | color
  | other (name : String)
deriving DecidableEq, Repr

/-- A token without a declared type is a color. -/
def TokenKind.ofName : Option String → TokenKind
  | none => color
  | some n => if sameIgnoringCase n "color" then color else other n

inductive Operation where
  | lighten
  | darken
  | alpha
  | mix (color : ColorValue)
deriving DecidableEq, Repr

namespace Operation

def mixed? : Operation → Option ColorValue
  | mix color => some color
  | _ => none

def mixColorMissing : String :=
  "mix modifier requires a color"

inductive Lookup where
  | known (operation : Operation)
  | unknown
  | incomplete
deriving DecidableEq

def named (name : String) (color : Option String) : Lookup :=
  match String.ofList (name.toList.map Char.toLower) with
  | "lighten" => .known lighten
  | "darken" => .known darken
  | "alpha" => .known alpha
  | "mix" => match color with
    | some c => .known (mix (ColorValue.classify c))
    | none => .incomplete
  | _ => .unknown

end Operation

/-- An operation with its amount. The color space is carried and has no effect. -/
structure Adjustment where
  operation : Operation
  amount : Float
  space : Option String := none

structure Token where
  value : ColorValue
  adjustment : Option Adjustment := none

namespace Token

def base? (t : Token) : Option String :=
  t.value.target?

def mixed? (t : Token) : Option String :=
  t.adjustment.bind fun a => a.operation.mixed?.bind ColorValue.target?

/-- The tokens this one depends on: where it starts from, then what is mixed in. -/
def dependencies (t : Token) : List String :=
  t.base?.toList ++ t.mixed?.toList

end Token

end Swatchbook

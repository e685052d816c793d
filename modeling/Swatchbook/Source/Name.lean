import Swatchbook.Identifier
import Swatchbook.Source.Keyword
import Swatchbook.Text.Case
import Swatchbook.Text.Piece
/-!
Names in the emitted code: a property for each role, and a type and an enum variant for each theme.
-/
namespace Swatchbook.Source

inductive PropertyFault where
  | noAlphanumeric
  | leadingDigit
  | reserved
deriving DecidableEq, Repr

def PropertyFault.message : PropertyFault → String
  | noAlphanumeric => "no alphanumeric characters"
  | leadingDigit => "starts with a digit"
  | reserved => "reserved keyword"

/-- The letters and digits of a role, the first in lower case; raw where it is spelled like a
keyword. -/
def propertyName (role : String) : Except PropertyFault String :=
  match role.toList.filter Char.isAlphanum with
  | [] => .error .noAlphanumeric
  | c :: r =>
    if c.isDigit then .error .leadingDigit
    else match rawName? (String.ofList (c.toLower :: r)) with
      | some name => .ok name
      | none => .error .reserved

/-- The parts of an identifier between underscores, each with a capital at its start and otherwise in
lower case, put together. -/
def joinedName (identifier : String) : String :=
  String.ofList (((Text.pieces '_' (Text.lowerText identifier.toList)).map Text.capitalize).flatten)

def typeName (identifier : String) : Except String String :=
  let name := joinedName identifier
  if isIdentifier name && name != "Self" then .ok name else .error name

/-- Names of types that the emitted files declare or use. -/
def reservedTypes : List String :=
  ["Color", "ThemeColors", "ThemeId", "ThemeInfo", "ThemePalette", "ThemeRegistry", "Sync"]

/-- The identifier as a variant of the enum of all themes, which has a constant of its own. -/
def variantName? (identifier : String) : Option String :=
  (rawName? identifier).filter (· != "ALL")

end Swatchbook.Source

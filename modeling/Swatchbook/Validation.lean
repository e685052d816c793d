import Swatchbook.Identifier
import Swatchbook.Theme
import Swatchbook.Token
/-!
What a list of themes must satisfy before code is made of it: there are themes, names and identifiers
are distinct, identifiers are well formed, all themes have the roles of the first, and every value is
a color or a reference. The first requirement that fails, in this order, is reported.
-/
namespace Swatchbook

inductive ValidationError where
  | noThemes
  | duplicateNames (names : List String)
  | duplicateIdentifiers (identifiers : List String)
  | invalidIdentifier (theme identifier : String)
  | inconsistentRoles (theme reference : String) (missing extra : List String)
  | invalidColor (theme role value : String)
deriving DecidableEq, Repr

def ValidationError.message : ValidationError → String
  | noThemes => "no themes found"
  | duplicateNames names => "duplicate theme names: " ++ ", ".intercalate names
  | duplicateIdentifiers ids => "duplicate theme identifiers: " ++ ", ".intercalate ids
  | invalidIdentifier theme identifier =>
    "theme `" ++ theme ++ "`: identifier " ++ Text.quote identifier ++ " is not a valid identifier"
  | inconsistentRoles theme reference missing extra =>
    "theme `" ++ theme ++ "` has different color roles than `" ++ reference ++ "` (missing: [" ++
      ", ".intercalate missing ++ "], extra: [" ++ ", ".intercalate extra ++ "])"
  | invalidColor theme role value =>
    "theme `" ++ theme ++ "`: role `" ++ role ++ "` has invalid color value " ++ Text.quote value

def duplicates (ks : List String) : List String :=
  sortedDistinct (ks.filter fun k => 1 < ks.count k)

namespace Validation

def identifierFault? (ts : List Theme) : Option ValidationError :=
  (ts.find? fun t => !isIdentifier t.identifier).map fun t =>
    .invalidIdentifier t.displayName t.identifier

/-- The first theme whose roles are not those of `reference`. -/
def roleFault? (reference : Theme) (ts : List Theme) : Option ValidationError :=
  (ts.find? fun t => t.roleNames != reference.roleNames).map fun t =>
    .inconsistentRoles t.displayName reference.displayName
      (reference.roleNames.filter fun r => !t.roleNames.contains r)
      (t.roleNames.filter fun r => !reference.roleNames.contains r)

def isAcceptable (value : String) : Bool :=
  Hex.isValid value || isTokenReference value

/-- The first value, theme by theme and role by role, that is neither a color nor a reference. -/
def colorFault? (ts : List Theme) : Option ValidationError :=
  ts.findSome? fun t =>
    (t.colors.entries.find? fun e => !isAcceptable e.2).map fun e =>
      .invalidColor t.displayName e.1 e.2

def fault? (ts : List Theme) : Option ValidationError :=
  match ts with
  | [] => some .noThemes
  | reference :: others =>
    let names := duplicates (ts.map Theme.displayName)
    let ids := duplicates (ts.map Theme.identifier)
    if names ≠ [] then some (.duplicateNames names)
    else if ids ≠ [] then some (.duplicateIdentifiers ids)
    else identifierFault? ts <|> roleFault? reference others <|> colorFault? ts

end Validation

def validate (ts : List Theme) : Except ValidationError Unit :=
  match Validation.fault? ts with
  | some e => .error e
  | none => .ok ()

end Swatchbook

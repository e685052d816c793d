import Swatchbook.Color.Hex
import Swatchbook.Source.Name
import Swatchbook.Source.Namespace
import Swatchbook.Theme
/-!
What is going to be emitted: every name and every color, settled before a line is written. A plan
exists only if all names are usable and distinct and every theme has a concrete color for every role.
-/
namespace Swatchbook.Source

inductive EmitError where
  | invalidNamespace (cause : NamespaceError)
  | invalidRole (role : String) (fault : PropertyFault)
  | roleCollision (first second property : String)
  | invalidType (identifier name : String)
  | typeCollision (identifier name : String)
  | invalidVariant (identifier : String)
  | missingRole (theme role : String)
  | unresolvedColor (theme role value : String)
deriving DecidableEq, Repr

def EmitError.message : EmitError → String
  | invalidNamespace cause => cause.message
  | invalidRole role fault =>
    "color role " ++ Text.quote role ++ " cannot be used as a property name: " ++ fault.message
  | roleCollision first second property =>
    "color roles " ++ Text.quote first ++ " and " ++ Text.quote second ++ " both become property `" ++
      property ++ "`"
  | invalidType identifier name =>
    "theme identifier " ++ Text.quote identifier ++ " cannot be used as a type name (" ++
      Text.quote name ++ ")"
  | typeCollision identifier name =>
    "theme identifier " ++ Text.quote identifier ++ " maps to type `" ++ name ++
      "`, which is already taken"
  | invalidVariant identifier =>
    "theme identifier " ++ Text.quote identifier ++ " cannot be used as an enum variant"
  | missingRole theme role => "theme `" ++ theme ++ "`: role `" ++ role ++ "` has no color"
  | unresolvedColor theme role value =>
    "theme `" ++ theme ++ "`: role `" ++ role ++ "` value " ++ Text.quote value ++
      " is not a concrete color"

structure Role where
  name : String
  property : String
deriving DecidableEq, Repr

/-- A theme with its names and one packed color for each role, in the order of the roles. -/
structure Entry where
  displayName : String
  identifier : String
  typeName : String
  variant : String
  colors : List UInt32
deriving DecidableEq, Repr

structure Plan where
  ns : Namespace
  roles : List Role
  entries : List Entry
deriving DecidableEq, Repr

namespace Plan

def settleRoles (done : List Role) : List String → Except EmitError (List Role)
  | [] => .ok done
  | name :: rest =>
    match propertyName name with
    | .error fault => .error (.invalidRole name fault)
    | .ok property =>
      match done.find? fun r => r.property == property with
      | some r => .error (.roleCollision r.name name property)
      | none => settleRoles (done ++ [⟨name, property⟩]) rest

def pack (t : Theme) (role : String) : Except EmitError UInt32 :=
  match t.color? role with
  | none => .error (.missingRole t.displayName role)
  | some value =>
    match Hex.pack value with
    | .ok n => .ok n
    | .error _ => .error (.unresolvedColor t.displayName role value)

/-- The entry of one theme, where `taken` are the type names of those before it. -/
def settleEntry (rs : List Role) (taken : List String) (t : Theme) : Except EmitError Entry :=
  match Source.typeName t.identifier with
  | .error name => .error (.invalidType t.identifier name)
  | .ok name =>
    if (reservedTypes ++ taken).contains name then .error (.typeCollision t.identifier name)
    else
      match variantName? t.identifier with
      | none => .error (.invalidVariant t.identifier)
      | some variant =>
        (rs.mapM fun r => pack t r.name).map fun colors =>
          ⟨t.displayName, t.identifier, name, variant, colors⟩

def settleEntries (rs : List Role) (done : List Entry) : List Theme → Except EmitError (List Entry)
  | [] => .ok done
  | t :: rest =>
    match settleEntry rs (done.map Entry.typeName) t with
    | .error e => .error e
    | .ok e => settleEntries rs (done ++ [e]) rest

def build (s : ThemeSet) (ns : Namespace) : Except EmitError Plan := do
  let rs ← settleRoles [] s.roleNames
  let es ← settleEntries rs [] s.themes
  return ⟨ns, rs, es⟩

end Plan

end Swatchbook.Source

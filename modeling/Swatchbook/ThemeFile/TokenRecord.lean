import Swatchbook.Json.Shape
import Swatchbook.Resolution.Evaluate
/-!
The records inside a token set, read from decoded values: the fields of a token, its extensions with
the adjustment they may hold, and the declaration of a theme.

A token's fields have two names each, one with a dollar sign and one without; where both are given, the
first decides.
-/
namespace Swatchbook.TokenRecord

open Json (Mismatch Shape)

def asText : Json → Except Mismatch String
  | .text s => .ok s
  | v => .error (.wrongKind v "a string")

def orNull {α : Type} (read : Json → Except Mismatch α) : Json → Except Mismatch (Option α)
  | .null => .ok none
  | v => (read v).map some

def absent (v : Json) (field : String) (index : Nat) (record : String) : Mismatch :=
  match v with
  | .array _ => .wrongLength index record
  | _ => .missing field

inductive Amount where
  | number (x : Float)
  | text (s : String)

def readAmount : Json → Except Mismatch Amount
  | .number n => .ok (.number (n.value?.getD 0))
  | .text s => .ok (.text s)
  | _ => .error (.noVariant "Amount")

structure Modify where
  type : String
  value : Amount
  color : Option String
  space : Option String

namespace Modify

inductive Field where
  | type
  | value
  | color
  | space

structure Fields where
  type : Option String := none
  value : Option Amount := none
  color : Option (Option String) := none
  space : Option (Option String) := none

def shape : Shape Field Json Mismatch Fields where
  fields := [.type, .value, .color, .space]
  label
    | .type => "type"
    | .value => "value"
    | .color => "color"
    | .space => "space"
  named
    | "type" => some .type
    | "value" | "amount" => some .value
    | "color" | "mixColor" => some .color
    | "space" | "colorSpace" => some .space
    | _ => none
  given s
    | .type => s.type.isSome
    | .value => s.value.isSome
    | .color => s.color.isSome
    | .space => s.space.isSome
  read s f v :=
    match f with
    | .type => (asText v).map fun v => { s with type := some v }
    | .value => (readAmount v).map fun v => { s with value := some v }
    | .color => (orNull asText v).map fun v => { s with color := some v }
    | .space => (orNull asText v).map fun v => { s with space := some v }

def read (v : Json) : Except Mismatch Modify := do
  let s ← shape.fromJson "ModifySpec" {} v
  match s.type, s.value with
  | some type, some value => .ok ⟨type, value, s.color.join, s.space.join⟩
  | none, _ => .error (absent v "type" 0 "struct ModifySpec with 4 elements")
  | _, none => .error (absent v "value" 1 "struct ModifySpec with 4 elements")

end Modify

def studioShape : Shape Unit Json Mismatch (Option (Option Modify)) where
  fields := [()]
  label _ := "modify"
  named
    | "modify" => some ()
    | _ => none
  given s _ := s.isSome
  read _ _ v := (orNull Modify.read v).map some

def readStudio (v : Json) : Except Mismatch (Option Modify) :=
  (studioShape.fromJson "StudioExtensions" none v).map Option.join

inductive ExtensionField where
  | modify
  | studio

structure ExtensionFields where
  modify : Option (Option Modify) := none
  studio : Option (Option (Option Modify)) := none

def extensionShape : Shape ExtensionField Json Mismatch ExtensionFields where
  fields := [.modify, .studio]
  label
    | .modify => "modify"
    | .studio => "studio.tokens"
  named
    | "modify" => some .modify
    | "studio.tokens" => some .studio
    | _ => none
  given s
    | .modify => s.modify.isSome
    | .studio => s.studio.isSome
  read s f v :=
    match f with
    | .modify => (orNull Modify.read v).map fun v => { s with modify := some v }
    | .studio => (orNull readStudio v).map fun v => { s with studio := some v }

/-- The adjustment that extensions hold: directly, or else for one tool. -/
def readExtensions (v : Json) : Except Mismatch (Option Modify) := do
  let s ← extensionShape.fromJson "Extensions" {} v
  return s.modify.join <|> s.studio.join.join

inductive Field where
  | standardValue
  | plainValue
  | standardType
  | plainType
  | standardExtensions
  | plainExtensions

structure Fields where
  standardValue : Option (Option Json) := none
  plainValue : Option (Option Json) := none
  standardType : Option (Option String) := none
  plainType : Option (Option String) := none
  standardExtensions : Option (Option (Option Modify)) := none
  plainExtensions : Option (Option (Option Modify)) := none

def shape : Shape Field Json Mismatch Fields where
  fields := [.standardValue, .plainValue, .standardType, .plainType, .standardExtensions,
    .plainExtensions]
  label
    | .standardValue => "$value"
    | .plainValue => "value"
    | .standardType => "$type"
    | .plainType => "type"
    | .standardExtensions => "$extensions"
    | .plainExtensions => "extensions"
  named
    | "$value" => some .standardValue
    | "value" => some .plainValue
    | "$type" => some .standardType
    | "type" => some .plainType
    | "$extensions" => some .standardExtensions
    | "extensions" => some .plainExtensions
    | _ => none
  given s
    | .standardValue => s.standardValue.isSome
    | .plainValue => s.plainValue.isSome
    | .standardType => s.standardType.isSome
    | .plainType => s.plainType.isSome
    | .standardExtensions => s.standardExtensions.isSome
    | .plainExtensions => s.plainExtensions.isSome
  read s f v :=
    match f with
    | .standardValue => (orNull .ok v).map fun v => { s with standardValue := some v }
    | .plainValue => (orNull .ok v).map fun v => { s with plainValue := some v }
    | .standardType => (orNull asText v).map fun v => { s with standardType := some v }
    | .plainType => (orNull asText v).map fun v => { s with plainType := some v }
    | .standardExtensions =>
      (orNull readExtensions v).map fun v => { s with standardExtensions := some v }
    | .plainExtensions =>
      (orNull readExtensions v).map fun v => { s with plainExtensions := some v }

namespace Fields

def value? (s : Fields) : Option Json :=
  s.standardValue.join <|> s.plainValue.join

def type? (s : Fields) : Option String :=
  s.standardType.join <|> s.plainType.join

def modify? (s : Fields) : Option Modify :=
  (s.standardExtensions.join <|> s.plainExtensions.join).join

end Fields

def readFields (members : List (String × Json)) : Except Mismatch Fields :=
  shape.jsonMembers {} members

structure Declaration where
  name : Option String
  identifier : Option String
  id : Option String
deriving DecidableEq, Repr

namespace Declaration

inductive Field where
  | name
  | identifier
  | id

structure Fields where
  name : Option (Option String) := none
  identifier : Option (Option String) := none
  id : Option (Option String) := none

def shape : Shape Field Json Mismatch Fields where
  fields := [.name, .identifier, .id]
  label
    | .name => "name"
    | .identifier => "enumName"
    | .id => "id"
  named
    | "name" | "displayName" => some .name
    | "enumName" | "identifier" => some .identifier
    | "id" => some .id
    | _ => none
  given s
    | .name => s.name.isSome
    | .identifier => s.identifier.isSome
    | .id => s.id.isSome
  read s f v :=
    match f with
    | .name => (orNull asText v).map fun v => { s with name := some v }
    | .identifier => (orNull asText v).map fun v => { s with identifier := some v }
    | .id => (orNull asText v).map fun v => { s with id := some v }

def read (v : Json) : Except Mismatch Declaration := do
  let s ← shape.fromJson "ThemeDecl" {} v
  return ⟨s.name.join, s.identifier.join, s.id.join⟩

end Declaration

inductive Declarations where
  | keyed (declarations : Dict Declaration)
  | listed (declarations : List Declaration)

/-- Declarations in an object stand under their keys, those in an array in a row. -/
def readDeclarations : Json → Except Mismatch Declarations
  | .object members => do
    let es ← members.mapM fun (k, v) => (Declaration.read v).map fun d => (k, d)
    return .keyed (Dict.ofList es)
  | .array items => do
    let ds ← items.mapM Declaration.read
    return .listed ds
  | _ => .error (.noVariant "ThemeDecls")

end Swatchbook.TokenRecord

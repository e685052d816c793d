import Swatchbook.Json.Value
import Swatchbook.Text.Quoted
/-!
Records in JSON. A record is an object in which each field stands under its name, or under another name
it also goes by, and whose other members do not count; or it is an array of the fields in their order,
where fields at the end may be left out. A field must not be given twice under its names.

The same shape is read from a text as it comes (`fromDraft`, whose first problem in the order of the
text decides) and from a decoded value (`fromJson`).
-/
namespace Swatchbook.Json

inductive Mismatch where
  | wrongKind (found : Json) (expected : String)
  | missing (field : String)
  | repeated (field : String)
  | wrongLength (length : Nat) (expected : String)
  | noVariant (type : String)
deriving Inhabited

def found : Json → String
  | .null => "null"
  | .bool b => "boolean `" ++ toString b ++ "`"
  | .number n => n.found
  | .text s => "string " ++ Text.quote s
  | .array _ => "sequence"
  | .object _ => "map"

def Mismatch.message : Mismatch → String
  | wrongKind v expected => "invalid type: " ++ found v ++ ", expected " ++ expected
  | missing field => "missing field `" ++ field ++ "`"
  | repeated field => "duplicate field `" ++ field ++ "`"
  | wrongLength length expected =>
    "invalid length " ++ toString length ++ ", expected " ++ expected
  | noVariant type => "data did not match any variant of untagged enum " ++ type

/-- A record that is built up in `σ` from values of type `δ`: its fields in their order, and the label
by which each is reported. -/
structure Shape (φ δ ε σ : Type) where
  fields : List φ
  label : φ → String
  named : String → Option φ
  given : σ → φ → Bool
  read : σ → φ → δ → Except ε σ

namespace Shape

variable {φ σ : Type}

def draftMembers (sh : Shape φ Draft Flaw σ) (s : σ) :
    List (Lexeme × Draft) → Except Flaw σ
  | [] => .ok s
  | (key, d) :: r => do
    let k ← key.text
    match sh.named k with
    | none =>
      d.skip
      sh.draftMembers s r
    | some f =>
      if sh.given s f then .error .mismatched
      else
        let s ← sh.read s f d
        sh.draftMembers s r

def draftItems (sh : Shape φ Draft Flaw σ) (s : σ) : List φ → List Draft → Except Flaw σ
  | _, [] => .ok s
  | [], _ :: _ => .error .malformed
  | f :: fs, d :: r => do
    let s ← sh.read s f d
    sh.draftItems s fs r

def fromDraft (sh : Shape φ Draft Flaw σ) (start : σ) : Draft → Except Flaw σ
  | .object members stop => do
    let s ← sh.draftMembers start members
    atEnd stop
    return s
  | .array items stop => do
    let s ← sh.draftItems start sh.fields items
    atEnd stop
    return s
  | d => .error d.unwanted

def jsonMembers (sh : Shape φ Json Mismatch σ) (s : σ) :
    List (String × Json) → Except Mismatch σ
  | [] => .ok s
  | (k, v) :: r =>
    match sh.named k with
    | none => sh.jsonMembers s r
    | some f =>
      if sh.given s f then .error (.repeated (sh.label f))
      else do
        let s ← sh.read s f v
        sh.jsonMembers s r

def jsonItems (sh : Shape φ Json Mismatch σ) (s : σ) : List φ → List Json → Except Mismatch σ
  | f :: fs, v :: r => do
    let s ← sh.read s f v
    sh.jsonItems s fs r
  | _, _ => .ok s

def fromJson (sh : Shape φ Json Mismatch σ) (name : String) (start : σ) :
    Json → Except Mismatch σ
  | .object members => sh.jsonMembers start members
  | .array items => do
    let s ← sh.jsonItems start sh.fields items
    if sh.fields.length < items.length then
      .error (.wrongLength items.length "fewer elements in array")
    else .ok s
  | v => .error (.wrongKind v ("struct " ++ name))

end Shape

end Swatchbook.Json

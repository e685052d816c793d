import Swatchbook.Json.Printer
import Swatchbook.Json.Shape
import Swatchbook.Naming
import Swatchbook.Text.Blank
import Swatchbook.Theme
/-!
Flat theme files: one theme with its name, its identifier and its colors, which are taken as they are.
Beside it stands the record form in which a resolved theme is written.
-/
namespace Swatchbook

open Json (Draft Flaw Shape Reading)

structure FlatTheme where
  name : String
  identifier : Option String
  colors : Dict String
deriving DecidableEq

inductive FlatError where
  | json (flaw : Flaw)
  | emptyName
deriving DecidableEq, Repr

def FlatError.message : FlatError → String
  | json flaw => "invalid JSON: " ++ flaw.message
  | emptyName => "theme name is empty"

namespace FlatTheme

inductive Field where
  | name
  | identifier
  | colors

structure Fields where
  name : Option String := none
  identifier : Option (Option String) := none
  colors : Option (Dict String) := none

def shape : Shape Field Draft Flaw Fields where
  fields := [.name, .identifier, .colors]
  label
    | .name => "name"
    | .identifier => "enumName"
    | .colors => "colors"
  named
    | "name" => some .name
    | "enumName" | "identifier" => some .identifier
    | "colors" => some .colors
    | _ => none
  given s
    | .name => s.name.isSome
    | .identifier => s.identifier.isSome
    | .colors => s.colors.isSome
  read s f d :=
    match f with
    | .name => d.asText.map fun v => { s with name := some v }
    | .identifier => (d.orNull Draft.asText).map fun v => { s with identifier := some v }
    | .colors => d.asTexts.map fun v => { s with colors := some (Dict.ofList v) }

def ofFields (s : Fields) : Except Flaw FlatTheme :=
  match s.name, s.colors with
  | some name, some colors => .ok ⟨name, s.identifier.join, colors⟩
  | _, _ => .error .mismatched

def ofReading (r : Reading) : Except Flaw FlatTheme := do
  let s ← shape.fromDraft {} r.root
  let t ← ofFields s
  if r.trailing then .error .malformed else .ok t

/-- A name of blanks only is none. -/
def read (r : Reading) : Except FlatError FlatTheme :=
  match ofReading r with
  | .error f => .error (.json f)
  | .ok t => if (Text.trim t.name.toList).isEmpty then .error .emptyName else .ok t

/-- The theme, its identifier made from its name if it has none. -/
def toTheme (t : FlatTheme) : Theme where
  displayName := t.name
  identifier := t.identifier.getD (Naming.identifier t.name)
  colors := t.colors

end FlatTheme

namespace Theme

inductive Field where
  | displayName
  | identifier
  | colors
  | source

structure Fields where
  displayName : Option String := none
  identifier : Option String := none
  colors : Option (Dict String) := none
  source : Option (Option String) := none

def shape : Shape Field Draft Flaw Fields where
  fields := [.displayName, .identifier, .colors, .source]
  label
    | .displayName => "display_name"
    | .identifier => "identifier"
    | .colors => "colors"
    | .source => "source"
  named
    | "display_name" => some .displayName
    | "identifier" => some .identifier
    | "colors" => some .colors
    | "source" => some .source
    | _ => none
  given s
    | .displayName => s.displayName.isSome
    | .identifier => s.identifier.isSome
    | .colors => s.colors.isSome
    | .source => s.source.isSome
  read s f d :=
    match f with
    | .displayName => d.asText.map fun v => { s with displayName := some v }
    | .identifier => d.asText.map fun v => { s with identifier := some v }
    | .colors => d.asTexts.map fun v => { s with colors := some (Dict.ofList v) }
    | .source => (d.orNull Draft.asText).map fun v => { s with source := some v }

def ofFields (s : Fields) : Except Flaw Theme :=
  match s.displayName, s.identifier, s.colors with
  | some displayName, some identifier, some colors =>
    .ok { displayName, identifier, colors, source := s.source.join }
  | _, _, _ => .error .mismatched

/-- The theme that a whole text is the record of. -/
def read (r : Reading) : Except Flaw Theme := do
  let s ← shape.fromDraft {} r.root
  let t ← ofFields s
  if r.trailing then .error .malformed else .ok t

def toPrintable (t : Theme) : Json.Printable :=
  .object ([("display_name", .text t.displayName), ("identifier", .text t.identifier),
    ("colors", .object (t.colors.entries.map fun e => (e.1, .text e.2)))] ++
    t.source.toList.map fun s => ("source", .text s))

def toJson (t : Theme) : String :=
  String.ofList (t.toPrintable.pretty 0 ++ ['\n'])

end Theme

def ThemeSet.toJson (s : ThemeSet) : String :=
  String.ofList (Json.Printable.array (s.themes.map Theme.toPrintable)).compact

end Swatchbook

import Swatchbook.Json.Scan
import Swatchbook.ThemeFile.Flat
import Swatchbook.ThemeFile.TokenSet
/-!
Theme files of either form. The form is guessed from the keys of the text; a text that does not fit the
guess is tried as the other form, so that both failures are known when neither fits.
-/
namespace Swatchbook

open Json (Reading)

inductive FileForm where
  | tokenSet
  | flat
deriving DecidableEq, Repr

/-- An object with `colors` and without `color` seems flat, everything else a token set. -/
def FileForm.detect (r : Reading) : FileForm :=
  match r.decode with
  | .ok (.object members) =>
    if (members.lookup "colors").isSome && (members.lookup "color").isNone then .flat else .tokenSet
  | _ => .tokenSet

inductive ThemeFile where
  | tokenSet (file : TokenSet)
  | flat (file : FlatTheme)

inductive FileError where
  /-- Neither form fits. -/
  | shape (file : String) (tokenSet : TokenSetError) (flat : FlatError)
  | resolve (file : String) (cause : ResolveError)

def FileError.message : FileError → String
  | shape file tokenSet flat =>
    file ++ ": not a theme file\n  as token set: " ++ tokenSet.message ++ "\n  as legacy theme: " ++
      flat.message
  | resolve file cause => file ++ ": " ++ cause.message

namespace ThemeFile

/-- Reads a text in the form it seems to have, and failing that in the other. A token set stands in for
a broken flat file only if it declares something. -/
def read (r : Reading) : Logged (TokenSetError × FlatError) ThemeFile :=
  match FileForm.detect r with
  | .tokenSet => do
    match ← (TokenSet.read r).attempt with
    | .ok s => return .tokenSet s
    | .error e =>
      match FlatTheme.read r with
      | .ok t => return .flat t
      | .error e' => .fail (e, e')
  | .flat =>
    match FlatTheme.read r with
    | .ok t => pure (.flat t)
    | .error e' => do
      match ← (TokenSet.read r).attempt with
      | .ok s => if s.declaresTokens then return .tokenSet s else .fail (.notATokenSet, e')
      | .error e => .fail (e, e')

def themesNamed (f : ThemeFile) (stem : String) : Logged ResolveError (List Theme) :=
  match f with
  | .tokenSet s => s.themesNamed stem
  | .flat t => pure [t.toTheme]

def themes (fileName : String) (contents : List UInt8) : Logged FileError (List Theme) := do
  let file ← (read (Json.scan contents)).mapError fun (e, e') => .shape fileName e e'
  let themes ← (file.themesNamed (Naming.fileStem fileName)).mapError (.resolve fileName)
  return themes.map fun t => { t with source := some fileName }

end ThemeFile

end Swatchbook

import Swatchbook.Files.System
import Swatchbook.ThemeFile.Basic
/-!
The themes of a directory: those of its theme files, taken in the order of their names.
-/
namespace Swatchbook

inductive FolderError where
  | unlistable (path : String) (fault : FileFault)
  | unreadable (path : String) (fault : FileFault)
  | file (cause : FileError)

namespace ThemeFolder

/-- Whether a name is that of a theme file: its extension is `json` in any case. -/
def isThemeFileName (name : String) : Bool :=
  match Path.extension? name with
  | some e => sameIgnoringCase e "json"
  | none => false

variable {m : Type → Type} [Monad m] [FileSystem m]

def themeFiles (dir : String) : List String → m (List String)
  | [] => return []
  | name :: rest => do
    let others ← themeFiles dir rest
    if isThemeFileName name && (← FileSystem.isFile (Path.join dir name)) then
      return name :: others
    else return others

def readFiles (dir : String) : List String → ExceptT FolderError m (List Theme)
  | [] => return []
  | name :: rest => do
    match ← FileSystem.read (m := m) (Path.join dir name) with
    | .error e => throw (.unreadable (Path.join dir name) e)
    | .ok contents =>
      match (ThemeFile.themes name contents).outcome with
      | .error e => throw (.file e)
      | .ok themes => return themes ++ (← readFiles dir rest)

def read (dir : String) : ExceptT FolderError m (List Theme) := do
  match ← FileSystem.list (m := m) dir with
  | .error e => throw (.unlistable dir e)
  | .ok names => readFiles dir (sortedDistinct (← themeFiles (m := m) dir names))

end ThemeFolder

end Swatchbook

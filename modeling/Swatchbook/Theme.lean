import Swatchbook.Dict
/-!
Themes: a name for people, an identifier for code, and a color text for each role. A theme set keeps
its themes in the order in which they were given.
-/
namespace Swatchbook

structure Theme where
  displayName : String
  identifier : String
  colors : Dict String
  source : Option String := none
deriving DecidableEq

namespace Theme

def roleNames (t : Theme) : List String :=
  t.colors.keys

def color? (t : Theme) (role : String) : Option String :=
  t.colors.get? role

end Theme

structure ThemeSet where
  themes : List Theme
deriving DecidableEq

structure UnknownTheme where
  identifier : String
  known : List String
deriving DecidableEq, Repr

def UnknownTheme.message (e : UnknownTheme) : String :=
  "unknown theme identifier: " ++ e.identifier ++ " (known: " ++ ", ".intercalate e.known ++ ")"

namespace ThemeSet

def identifiers (s : ThemeSet) : List String :=
  s.themes.map Theme.identifier

def roleNames (s : ThemeSet) : List String :=
  sortedDistinct (s.themes.flatMap Theme.roleNames)

def find (s : ThemeSet) (identifier : String) : Except UnknownTheme Theme :=
  match s.themes.find? fun t => t.identifier == identifier with
  | some t => .ok t
  | none => .error ⟨identifier, s.identifiers⟩

end ThemeSet

end Swatchbook

import Swatchbook.Theme
/-!
Themes as text for people. A column is as wide as the longest encoding of its entries takes bytes, and
is filled up to that many characters.
-/
namespace Swatchbook.Listing

def pad (width : Nat) (s : String) : String :=
  s ++ String.ofList (List.replicate (width - s.length) ' ')

def width (entries : List String) : Nat :=
  (entries.map String.utf8ByteSize).foldl max 0

def summary (s : ThemeSet) : String :=
  let w := width s.identifiers
  let lines := s.themes.map fun t =>
    pad w t.identifier ++ "  " ++ t.displayName ++
      (match t.source with
        | some source => "  (" ++ source ++ ")"
        | none => "") ++ "\n"
  String.join lines ++ toString s.themes.length ++ " theme(s), " ++ toString s.roleNames.length ++
    " color role(s)\n"

def table (t : Theme) : String :=
  let w := width t.roleNames
  t.displayName ++ " (" ++ t.identifier ++ ")\n" ++
    String.join (t.colors.entries.map fun e => "  " ++ pad w e.1 ++ "  " ++ e.2 ++ "\n")

end Swatchbook.Listing

import Swatchbook.Text.Case
import Swatchbook.Text.Piece
/-!
Names for themes that do not bring their own, made from the name of their file or from each other.
-/
namespace Swatchbook.Naming

def dropEnding? (ending s : List Char) : Option (List Char) :=
  if (s.drop (s.length - ending.length)).map Char.toLower = ending then
    some (s.take (s.length - ending.length))
  else none

def fileStem (fileName : String) : String :=
  let s := fileName.toList
  let s := (dropEnding? ".json".toList s).getD s
  String.ofList ((dropEnding? ".tokens".toList s).getD s)

/-- Hyphens become spaces, and every word between them starts in upper case. -/
def displayName (stem : String) : String :=
  String.ofList (Text.join [' '] ((Text.pieces '-' stem.toList).map Text.capitalize))

def identifierChar (c : Char) : Char :=
  if c.isUpper || c.isDigit then c else '_'

/-- Upper case, with an underscore for everything but letters and digits, and one in front of a first
digit or of nothing. -/
def identifier (name : String) : String :=
  let cs := (name.toList.flatMap Text.upper).map identifierChar
  String.ofList (match cs with
    | [] => ['_']
    | c :: r => if c.isDigit then '_' :: c :: r else c :: r)

end Swatchbook.Naming

/-!
Identifiers: an ASCII letter or underscore, then letters, digits and underscores; an underscore alone
is none.
-/
namespace Swatchbook

def isIdentifierStart (c : Char) : Bool :=
  c.isAlpha || c == '_'

def isIdentifierPart (c : Char) : Bool :=
  c.isAlphanum || c == '_'

def isIdentifier (s : String) : Bool :=
  match s.toList with
  | [] => false
  | c :: r => isIdentifierStart c && r.all isIdentifierPart && s != "_"

end Swatchbook

import Swatchbook.Identifier
import Swatchbook.Source.Keyword
import Swatchbook.Text.Blank
import Swatchbook.Text.Piece
import Swatchbook.Text.Quoted
/-!
Module paths: names between `::`, or all between dots. A path may start at the root of the crate.
-/
namespace Swatchbook.Source

structure Namespace where
  segments : List String
deriving DecidableEq, Repr

inductive NamespaceFault where
  | empty
  | notAnIdentifier (segment : String)
  | keyword (segment : String)
deriving DecidableEq, Repr

structure NamespaceError where
  text : String
  fault : NamespaceFault
deriving DecidableEq, Repr

def NamespaceFault.message : NamespaceFault → String
  | empty => "empty module path"
  | notAnIdentifier segment => "`" ++ segment ++ "` is not an identifier"
  | keyword segment => "`" ++ segment ++ "` is a keyword"

def NamespaceError.message (e : NamespaceError) : String :=
  "invalid namespace " ++ Text.quote e.text ++ ": " ++ e.fault.message

namespace Namespace

def segmentFault? (s : String) : Option NamespaceFault :=
  if !isIdentifier s then some (.notAnIdentifier s)
  else if keywords.contains s || pathKeywords.contains s then some (.keyword s)
  else none

/-- The path without blanks around it and without one mention of the crate in front. -/
def body (s : String) : List Char :=
  let cs := Text.trim s.toList
  ("crate::".toList.isPrefixOf? cs).getD cs

/-- The segments of a path; dots separate them only where no two colons do. -/
def split (cs : List Char) : List String :=
  (if Text.hasPair ':' cs then Text.piecesAtPairs ':' cs else Text.pieces '.' cs).map String.ofList

def parse (s : String) : Except NamespaceError Namespace :=
  let cs := body s
  if cs.isEmpty then .error ⟨s, .empty⟩
  else match (split cs).findSome? segmentFault? with
    | some f => .error ⟨s, f⟩
    | none => .ok ⟨split cs⟩

def toText (n : Namespace) : String :=
  "::".intercalate n.segments

end Namespace

end Swatchbook.Source

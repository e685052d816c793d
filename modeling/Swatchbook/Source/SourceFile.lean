import Swatchbook.Source.Plan
/-!
The emitted files as lists of lines. No line holds a line break: what a user wrote stands inside quotes,
in a name made of letters, digits and underscores, or in a comment from which breaks are taken out.
-/
namespace Swatchbook.Source

structure SourceFile where
  name : String
  lines : List String
deriving DecidableEq, Repr

/-- The text of a file: every line ends in a line feed. -/
def SourceFile.contents (f : SourceFile) : String :=
  String.join (f.lines.map (· ++ "\n"))

/-- Text for the rest of a comment line: breaks become spaces. -/
def commentText (s : String) : String :=
  String.ofList (s.toList.map fun c => if c = '\r' ∨ c = '\n' then ' ' else c)

def docLine (indent text : String) : String :=
  indent ++ "/// " ++ commentText text

def colorValue (n : UInt32) : String :=
  "Color(0x" ++ String.ofList (hexWord n) ++ ")"

def headLines (p : Plan) : List String :=
  ["// @generated by themegen. Do not edit by hand.", "// Namespace: " ++ p.ns.toText, ""]

def deriveLine : String :=
  "#[derive(Debug, Clone, Copy, PartialEq, Eq, Hash)]"

end Swatchbook.Source

/-!
The words of the emitted language that cannot name things, and those that can when marked as raw.
-/
namespace Swatchbook.Source

/-- Keywords, in use or kept for later. A name spelled like one must be written raw. -/
def keywords : List String :=
  ["abstract", "as", "async", "await", "become", "box", "break", "const", "continue", "do", "dyn",
    "else", "enum", "extern", "false", "final", "fn", "for", "gen", "if", "impl", "in", "let", "loop",
    "macro", "match", "mod", "move", "mut", "override", "priv", "pub", "ref", "return", "static",
    "struct", "trait", "true", "try", "type", "typeof", "unsafe", "unsized", "use", "virtual", "where",
    "while", "yield"]

/-- Keywords that have no raw form. -/
def pathKeywords : List String :=
  ["crate", "self", "super", "Self"]

def rawName? (name : String) : Option String :=
  if pathKeywords.contains name then none
  else if keywords.contains name then some ("r#" ++ name)
  else some name

end Swatchbook.Source

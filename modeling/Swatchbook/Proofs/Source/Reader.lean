import Swatchbook.Proofs.Source.Lines
import Swatchbook.Proofs.Source.Literal

/-! The two emitted files read back. A reader looks for the lines that open and close
each part of a file and takes apart the lines between them; it knows nothing of the
themes the file was made from. -/
namespace Swatchbook.Source

structure InfoText where
  variant : String
  displayName : String
  typeName : String
  palette : List (String × UInt32)
deriving DecidableEq

structure RegistryText where
  segments : List String
  variants : List String
  allCount : Nat
  all : List String
  identifiers : List (String × String)
  displayNames : List (String × String)
  themeCount : Nat
  themes : List InfoText
deriving DecidableEq

/-- A theme's type: the name of its declaration, the name it implements the trait for,
and its methods with the colors they return. -/
structure TypeText where
  declared : String
  implementing : String
  methods : List (String × UInt32)
deriving DecidableEq

structure ColorsText where
  properties : List String
  types : List TypeText
deriving DecidableEq

def isDoc (line : String) : Bool :=
  "    ///".toList.isPrefixOf line.toList

def readSegments (path : String) : List String :=
  (Text.piecesAtPairs ':' path.toList).map String.ofList

def readColor (text : String) : Option UInt32 :=
  (between "Color(0x" ")" text).bind fun digits => Text.readWord digits.toList

def readEnum (ls : List String) : Option (List String × List String) := do
  let (_, ls) ← after (exactly "pub enum ThemeId \x7b") ls
  let (body, ls) ← upTo "\x7d" ls
  let variants ← (body.filter fun l => !isDoc l).mapM (between "    " ",")
  return (variants, ls)

/-- The printed length of the list of all variants, and the list. -/
def readAll (ls : List String) : Option ((Nat × List String) × List String) := do
  let (count, ls) ← after (between "    pub const ALL: [ThemeId; " "] = [") ls
  let (body, ls) ← upTo "    ];" ls
  let count ← Text.readCount count
  let variants ← body.mapM (between "        ThemeId::" ",")
  return ((count, variants), ls)

def readArm (line : String) : Option (String × String) := do
  let arm ← between "            ThemeId::" "," line
  let (variant, rest) ← Text.cut? ' ' arm.toList
  let literal ← ['=', '>', ' '].isPrefixOf? rest
  let (text, rest) ← Text.readQuoted literal
  if rest = [] then return (String.ofList variant, text) else none

def readFunction (name : String) (ls : List String) :
    Option (List (String × String) × List String) := do
  let (_, ls) ←
    after (exactly ("    pub const fn " ++ name ++ "(self) -> &'static str \x7b")) ls
  let (_, ls) ← after (exactly "        match self \x7b") ls
  let (body, ls) ← upTo "        \x7d" ls
  let (_, ls) ← after (exactly "    \x7d") ls
  let arms ← body.mapM readArm
  return (arms, ls)

def readRole (line : String) : Option (String × UInt32) := do
  let entry ← between "                (" ")," line
  let (role, rest) ← Text.readQuoted entry.toList
  let rest ← [',', ' '].isPrefixOf? rest
  let color ← readColor (String.ofList rest)
  return (role, color)

def readPalette (ls : List String) : Option (List (String × UInt32)) :=
  match ls with
  | [] => none
  | opening :: rest =>
    if opening = "            roles: &[]," then
      if rest = ["        \x7d,"] then some [] else none
    else if opening = "            roles: &[" then do
      let (body, rest) ← upTo "            ]," rest
      if rest = ["        \x7d,"] then body.mapM readRole else none
    else none

def readInfo (ls : List String) : Option InfoText :=
  match ls with
  | opening :: id :: displayName :: colors :: palette :: rest =>
    if opening = "    ThemeInfo \x7b" ∧ palette = "        palette: ThemePalette \x7b" then do
      let variant ← between "        id: ThemeId::" "," id
      let literal ← between "        display_name: " "," displayName
      let (displayName, after) ← Text.readQuoted literal.toList
      let typeName ← between "        colors: &theme_colors::" "," colors
      let palette ← readPalette rest
      if after = [] then return ⟨variant, displayName, typeName, palette⟩ else none
    else none
  | _ => none

def readThemes (ls : List String) : Option (Nat × List InfoText) := do
  let (count, ls) ← after (between "pub static THEMES: [ThemeInfo; " "] = [") ls
  let (body, _) ← upTo "];" ls
  let count ← Text.readCount count
  let themes ← (passages "    \x7d," body).mapM readInfo
  return (count, themes)

def readRegistry (text : String) : Option RegistryText := do
  let (path, ls) ←
    after (between "use crate::" "::theme_colors::\x7bself, Color, ThemeColors\x7d;") (textLines text)
  let (variants, ls) ← readEnum ls
  let (all, ls) ← readAll ls
  let (identifiers, ls) ← readFunction "identifier" ls
  let (displayNames, ls) ← readFunction "display_name" ls
  let (themeCount, themes) ← readThemes ls
  return ⟨readSegments path, variants, all.1, all.2, identifiers, displayNames, themeCount, themes⟩

def readMethod (ls : List String) : Option (String × UInt32) :=
  match ls with
  | [signature, body] => do
    let property ← between "    fn " "(&self) -> Color \x7b" signature
    let value ← between "        " "" body
    let color ← readColor value
    return (property, color)
  | _ => none

def readType (ls : List String) : Option TypeText :=
  match ls with
  | _ :: _ :: _ :: declaration :: _ :: implementation :: methods => do
    let declared ← between "pub struct " ";" declaration
    let implementing ← between "impl ThemeColors for " " \x7b" implementation
    let methods ← (passages "    \x7d" (methods.filter (· ≠ ""))).mapM readMethod
    return ⟨declared, implementing, methods⟩
  | _ => none

def readColors (text : String) : Option ColorsText := do
  let (_, ls) ← after (exactly "pub trait ThemeColors: Sync \x7b") (textLines text)
  let (body, ls) ← upTo "\x7d" ls
  let properties ←
    (body.filter fun l => !isDoc l).mapM (between "    fn " "(&self) -> Color;")
  let types ← (passages "\x7d" ls).mapM readType
  return ⟨properties, types⟩

end Swatchbook.Source

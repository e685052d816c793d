import Swatchbook.Source.SourceFile
/-!
The second emitted file: the enum of all themes, a table of their names and colors, and the lookup over
it.
-/
namespace Swatchbook.Source

def paletteLines : List String := [
    "/// Colors of one theme keyed by their role names in the theme files.",
    "#[derive(Debug, Clone, Copy)]",
    "pub struct ThemePalette \x7b",
    "    roles: &'static [(&'static str, Color)],",
    "\x7d",
    "",
    "impl ThemePalette \x7b",
    "    pub fn get(&self, role: &str) -> Option<Color> \x7b",
    "        self.roles",
    "            .iter()",
    "            .find(|(name, _)| *name == role)",
    "            .map(|&(_, color)| color)",
    "    \x7d",
    "",
    "    pub fn roles(&self) -> &'static [(&'static str, Color)] \x7b",
    "        self.roles",
    "    \x7d",
    "\x7d",
    "",
    "/// A generated theme.",
    "pub struct ThemeInfo \x7b",
    "    pub id: ThemeId,",
    "    pub display_name: &'static str,",
    "    pub colors: &'static (dyn ThemeColors + Sync),",
    "    pub palette: ThemePalette,",
    "\x7d"]

def lookupLines : List String := [
    "/// Lookup over every generated theme.",
    "pub struct ThemeRegistry;",
    "",
    "impl ThemeRegistry \x7b",
    "    /// Every theme, in registry order.",
    "    pub fn themes() -> &'static [ThemeInfo] \x7b",
    "        &THEMES",
    "    \x7d",
    "",
    "    pub fn identifiers() -> Vec<&'static str> \x7b",
    "        ThemeId::ALL.iter().map(|id| id.identifier()).collect()",
    "    \x7d",
    "",
    "    pub fn theme(id: ThemeId) -> &'static ThemeInfo \x7b",
    "        &THEMES[id as usize]",
    "    \x7d",
    "",
    "    /// # Panics",
    "    ///",
    "    /// Panics if no generated theme has this identifier.",
    "    pub fn get(identifier: &str) -> &'static ThemeInfo \x7b",
    "        match THEMES.iter().find(|theme| theme.id.identifier() == identifier) \x7b",
    "            Some(theme) => theme,",
    "            None => panic!(\"unknown theme identifier: \x7bidentifier\x7d\"),",
    "        \x7d",
    "    \x7d",
    "\x7d"]

def variantLines (e : Entry) : List String :=
  [docLine "    " e.displayName, "    " ++ e.variant ++ ","]

def allLine (e : Entry) : String :=
  "        ThemeId::" ++ e.variant ++ ","

def armLine (text : Entry → String) (e : Entry) : String :=
  "            ThemeId::" ++ e.variant ++ " => " ++ Text.quote (text e) ++ ","

def textFunctionLines (name : String) (text : Entry → String) (es : List Entry) : List String :=
  ["    pub const fn " ++ name ++ "(self) -> &'static str \x7b", "        match self \x7b"] ++
  es.map (armLine text) ++ ["        \x7d", "    \x7d"]

def enumLines (es : List Entry) : List String :=
  ["/// Identifier of every generated theme, in registry order.", "#[allow(non_camel_case_types)]",
    "#[derive(Debug, Clone, Copy, PartialEq, Eq, Hash, PartialOrd, Ord)]", "pub enum ThemeId \x7b"] ++
  es.flatMap variantLines ++
  ["\x7d", "", "impl ThemeId \x7b",
    "    pub const ALL: [ThemeId; " ++ toString es.length ++ "] = ["] ++
  es.map allLine ++ ["    ];", ""] ++
  textFunctionLines "identifier" Entry.identifier es ++ [""] ++
  textFunctionLines "display_name" Entry.displayName es ++ ["\x7d", ""]

def paletteLine (r : Role) (color : UInt32) : String :=
  "                (" ++ Text.quote r.name ++ ", " ++ colorValue color ++ "),"

def rolesLines (roles : List Role) (colors : List UInt32) : List String :=
  if roles.isEmpty then ["            roles: &[],"]
  else ["            roles: &["] ++ List.zipWith paletteLine roles colors ++ ["            ],"]

def infoLines (roles : List Role) (e : Entry) : List String :=
  ["    ThemeInfo \x7b", "        id: ThemeId::" ++ e.variant ++ ",",
    "        display_name: " ++ Text.quote e.displayName ++ ",",
    "        colors: &theme_colors::" ++ e.typeName ++ ",", "        palette: ThemePalette \x7b"] ++
  rolesLines roles e.colors ++ ["        \x7d,", "    \x7d,"]

def registryFile (p : Plan) : SourceFile where
  name := "theme_registry.rs"
  lines :=
    headLines p ++
    ["use crate::" ++ p.ns.toText ++ "::theme_colors::\x7bself, Color, ThemeColors\x7d;", ""] ++
    enumLines p.entries ++ paletteLines ++
    ["", "/// Indexed by `ThemeId as usize`.",
      "pub static THEMES: [ThemeInfo; " ++ toString p.entries.length ++ "] = ["] ++
    p.entries.flatMap (infoLines p.roles) ++ ["];", ""] ++ lookupLines

end Swatchbook.Source

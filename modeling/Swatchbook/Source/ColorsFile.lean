import Swatchbook.Source.SourceFile
/-!
The first emitted file: the color type, a trait with a method for each role, and a type for each theme
that implements it.
-/
namespace Swatchbook.Source

def colorTypeLines : List String := [
    "/// A packed `0xAARRGGBB` color.",
    "#[derive(Debug, Clone, Copy, PartialEq, Eq, Hash)]",
    "pub struct Color(pub u32);",
    "",
    "impl Color \x7b",
    "    pub const fn from_argb(a: u8, r: u8, g: u8, b: u8) -> Self \x7b",
    "        Self(((a as u32) << 24) | ((r as u32) << 16) | ((g as u32) << 8) | b as u32)",
    "    \x7d",
    "",
    "    pub const fn argb(self) -> u32 \x7b",
    "        self.0",
    "    \x7d",
    "",
    "    pub const fn alpha(self) -> u8 \x7b",
    "        (self.0 >> 24) as u8",
    "    \x7d",
    "",
    "    pub const fn red(self) -> u8 \x7b",
    "        (self.0 >> 16) as u8",
    "    \x7d",
    "",
    "    pub const fn green(self) -> u8 \x7b",
    "        (self.0 >> 8) as u8",
    "    \x7d",
    "",
    "    pub const fn blue(self) -> u8 \x7b",
    "        self.0 as u8",
    "    \x7d",
    "\x7d"]

def traitLines (r : Role) : List String :=
  [docLine "    " r.name, "    fn " ++ r.property ++ "(&self) -> Color;"]

def methodLines (r : Role) (color : UInt32) : List String :=
  ["    fn " ++ r.property ++ "(&self) -> Color \x7b", "        " ++ colorValue color, "    \x7d"]

def themeTypeLines (roles : List Role) (e : Entry) : List String :=
  ["", docLine "" e.displayName, deriveLine, "pub struct " ++ e.typeName ++ ";", "",
    "impl ThemeColors for " ++ e.typeName ++ " \x7b"] ++
  List.intercalate [""] (List.zipWith methodLines roles e.colors) ++ ["\x7d"]

def colorsFile (p : Plan) : SourceFile where
  name := "theme_colors.rs"
  lines :=
    headLines p ++ colorTypeLines ++
    ["", "/// Color roles every generated theme provides.", "#[allow(non_snake_case)]",
      "pub trait ThemeColors: Sync \x7b"] ++
    p.roles.flatMap traitLines ++ ["\x7d"] ++ p.entries.flatMap (themeTypeLines p.roles)

end Swatchbook.Source

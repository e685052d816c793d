/-!
The help texts of the program and its commands.
-/
namespace Swatchbook.Command

def versionText : String :=
  "themegen 0.1.0\n"

def programHelp : List String :=
  ["Generate typed Rust theme code from design token files",
    "",
    "Usage: themegen <COMMAND>",
    "",
    "Commands:",
    "  generate  Write theme_colors.rs and theme_registry.rs",
    "  check     Parse and validate a theme directory without writing anything",
    "  show      Print one resolved theme",
    "  help      Print this message or the help of the given subcommand(s)",
    "",
    "Options:",
    "  -h, --help     Print help",
    "  -V, --version  Print version"]

def generateHelp : List String :=
  ["Write theme_colors.rs and theme_registry.rs",
    "",
    "Usage: themegen generate [OPTIONS]",
    "",
    "Options:",
    "  -c, --config <CONFIG>        Config file; ./themegen.toml is used when present",
    "  -i, --input <INPUT>          Directory of theme JSON files",
    "  -o, --output <OUTPUT>        Directory the generated files replace",
    "  -n, --namespace <NAMESPACE>  Rust module path of the generated files, e.g. theme::generated",
    "  -h, --help                   Print help"]

def checkHelp : List String :=
  ["Parse and validate a theme directory without writing anything",
    "",
    "Usage: themegen check --input <INPUT>",
    "",
    "Options:",
    "  -i, --input <INPUT>  Directory of theme JSON files",
    "  -h, --help           Print help"]

def showHelp : List String :=
  ["Print one resolved theme",
    "",
    "Usage: themegen show [OPTIONS] --input <INPUT> <IDENTIFIER>",
    "",
    "Arguments:",
    "  <IDENTIFIER>  Theme identifier, e.g. OCEAN_FIRE",
    "",
    "Options:",
    "  -i, --input <INPUT>  Directory of theme JSON files",
    "      --json           Print JSON instead of a table",
    "  -h, --help           Print help"]

def helpHelp : List String :=
  ["Print this message or the help of the given subcommand(s)",
    "",
    "Usage: themegen help [COMMAND]...",
    "",
    "Arguments:",
    "  [COMMAND]...  Print help for the subcommand(s)"]

def helpText (command : Option String) : String :=
  let lines := match command with
    | some "generate" => generateHelp
    | some "check" => checkHelp
    | some "show" => showHelp
    | some "help" => helpHelp
    | _ => programHelp
  String.join (lines.map (· ++ "\n"))

end Swatchbook.Command

import Swatchbook.Generation
/-!
Failures of a command and how they are reported: the outermost cause first, then the causes below it,
each indented, and numbered when there are several.
-/
namespace Swatchbook.Command

inductive Failure where
  | noInput
  | noOutput
  | noNamespace
  | settings (cause : SettingsError)
  | generating (input : String) (cause : RunError)
  | checking (input : String) (cause : RunError)
  | unknownTheme (cause : UnknownTheme)

def resolveCauses (file : String) (e : ResolveError) : List String :=
  (FileError.resolve file e).message :: e.message ::
    match e with
    | .invalidColor _ cause => [cause.message]
    | _ => []

def folderCauses : FolderError → List String
  | .unlistable path fault =>
    ["cannot read theme directory " ++ path ++ ": " ++ fault.message, fault.message]
  | .unreadable path fault =>
    ["cannot read theme file " ++ path ++ ": " ++ fault.message, fault.message]
  | .file (.resolve file e) => resolveCauses file e
  | .file e => [e.message]

def outputMessage (path : String) : String :=
  "output directory " ++ path ++ " must name a directory to replace"

def runCauses : RunError → List String
  | .folder cause => folderCauses cause
  | .validation cause => [cause.message]
  | .emission cause => [cause.message]
  | .invalidOutput path => [outputMessage path]
  | .unwritable path fault => ["failed to write " ++ path ++ ": " ++ fault.message, fault.message]

def settingsCauses : SettingsError → List String
  | .unreadable path fault => ["failed to read " ++ path ++ ": " ++ fault.message, fault.message]
  | .notText path =>
    let reason := "stream did not contain valid UTF-8"
    ["failed to read " ++ path ++ ": " ++ reason, reason]
  | .invalid path =>
    let reason := "TOML parse error"
    ["invalid config " ++ path ++ ": " ++ reason, reason]

namespace Failure

def causes : Failure → List String
  | noInput => ["no input directory: pass --input or set input_dir in themegen.toml"]
  | noOutput => ["no output directory: pass --output or set output_dir in themegen.toml"]
  | noNamespace => ["no namespace: pass --namespace or set namespace in themegen.toml"]
  | settings cause => settingsCauses cause
  | generating input cause => ("failed to generate from " ++ input) :: runCauses cause
  | checking input cause => ("invalid themes in " ++ input) :: runCauses cause
  | unknownTheme cause => [cause.message]

def indent (first others s : String) : String :=
  first ++ String.ofList (s.toList.flatMap fun c => if c = '\n' then '\n' :: others.toList else [c])

def numbered (n : Nat) : List String → List String
  | [] => []
  | s :: r =>
    let digits := toString n
    indent (String.ofList (List.replicate (5 - digits.length) ' ') ++ digits ++ ": ") "       " s ::
      numbered (n + 1) r

def report (f : Failure) : String :=
  match f.causes with
  | [] => ""
  | outer :: inner =>
    let lines := match inner with
      | [] => []
      | [s] => ["", "Caused by:", indent "    " "    " s]
      | ss => ["", "Caused by:"] ++ numbered 0 ss
    String.join (("Error: " ++ outer) :: lines |>.map (· ++ "\n"))

end Failure

end Swatchbook.Command

import Swatchbook.Command.Arguments
import Swatchbook.Command.Failure
import Swatchbook.Command.Help
import Swatchbook.Listing
/-!
The commands: `generate` writes code, `check` lists the themes of a directory, `show` prints one of
them.
-/
namespace Swatchbook.Command

inductive Outcome where
  | done (output : String)
  | failed (cause : Failure)
  | misused

def Outcome.code : Outcome → Nat
  | done _ => 0
  | failed _ => 1
  | misused => 2

variable {m : Type → Type} [Monad m] [FileSystem m]

def require {α : Type} (x : Option α) (f : Failure) : ExceptT Failure m α :=
  match x with
  | some a => pure a
  | none => throw f

def settingsFile (config : Option String) : m (Option String) := do
  match config with
  | some path => return some path
  | none => return if ← FileSystem.isFile Settings.defaultFile then some Settings.defaultFile else none

def settings (config input output ns : Option String) : ExceptT Failure m Settings := do
  let file ← match ← settingsFile (m := m) config with
    | none => pure none
    | some path =>
      match ← Settings.load (m := m) path with
      | .ok s => pure (some s)
      | .error e => throw (.settings e)
  let input ← require (m := m) (input <|> file.map Settings.input) .noInput
  let output ← require (m := m) (output <|> file.map Settings.output) .noOutput
  let ns ← require (m := m) (ns <|> file.map Settings.ns) .noNamespace
  return ⟨input, output, ns⟩

def check (input : String) : ExceptT Failure m ThemeSet :=
  (Generation.check (m := m) input).adapt (.checking input)

def perform : Request → ExceptT Failure m String
  | .generate config input output ns => do
    let s ← settings (m := m) config input output ns
    let _ ← (Generation.run (m := m) s).adapt (.generating s.input)
    return ""
  | .check input => do
    let s ← check (m := m) input
    return Listing.summary s
  | .display input identifier json => do
    let s ← check (m := m) input
    match s.find identifier with
    | .error e => throw (.unknownTheme e)
    | .ok t => return if json then t.toJson else Listing.table t
  | .version => return versionText
  | .help command => return helpText command
  | .wrong => return ""

def run (args : List String) : m Outcome := do
  match Request.parse args with
  | .wrong => return .misused
  | r =>
    match ← (perform (m := m) r).run with
    | .ok output => return .done output
    | .error e => return .failed e

end Swatchbook.Command

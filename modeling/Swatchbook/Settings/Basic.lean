import Swatchbook.Files.System
import Swatchbook.Settings.Entries
/-!
The settings of a run, and reading them from a file whose relative paths start at the file's own
directory.
-/
namespace Swatchbook

structure Settings where
  input : String
  output : String
  ns : String
deriving DecidableEq, Repr

inductive SettingsError where
  | unreadable (path : String) (fault : FileFault)
  | notText (path : String)
  | invalid (path : String)
deriving DecidableEq, Repr

namespace Settings

def defaultFile : String :=
  "themegen.toml"

/-- The text of an entry that occurs exactly once. -/
def only? (es : Settings.Entries) (key : String) : Option String :=
  match es.filter fun e => e.1 == key with
  | [(_, v)] => some v
  | _ => none

def ofText? (s : String) : Option Settings := do
  let es ← readEntries? s
  let input ← only? es "input_dir"
  let output ← only? es "output_dir"
  let ns ← only? es "namespace"
  if es.length = 3 then some ⟨input, output, ns⟩ else none

def relativeTo (s : Settings) (base : String) : Settings :=
  { s with input := Path.join base s.input, output := Path.join base s.output }

def load {m : Type → Type} [Monad m] [FileSystem m] (path : String) :
    m (Except SettingsError Settings) := do
  match ← FileSystem.read path with
  | .error e => return .error (.unreadable path e)
  | .ok bytes =>
    match String.fromUTF8? ⟨bytes.toArray⟩ with
    | none => return .error (.notText path)
    | some text =>
      match ofText? text with
      | none => return .error (.invalid path)
      | some s =>
        match Path.parent? path with
        | some base => return .ok (s.relativeTo base)
        | none => return .ok s

end Settings

end Swatchbook

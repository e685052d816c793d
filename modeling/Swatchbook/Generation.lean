import Swatchbook.Settings.Basic
import Swatchbook.Source.Emission
import Swatchbook.ThemeFolder
import Swatchbook.Validation
/-!
One run: read the themes, check them, emit code, and put the code in place of the output directory. The
files are first written to a directory beside the output, which is then moved to its place. Nothing is
written before all that can be decided without writing is decided.
-/
namespace Swatchbook

inductive RunError where
  | folder (cause : FolderError)
  | validation (cause : ValidationError)
  | emission (cause : Source.EmitError)
  | invalidOutput (path : String)
  | unwritable (path : String) (fault : FileFault)

structure RunReport where
  themes : Nat
  roles : Nat
  files : List String
deriving DecidableEq, Repr

namespace Generation

variable {m : Type → Type} [Monad m] [FileSystem m]

def check (input : String) : ExceptT RunError m ThemeSet := do
  let themes ← (ThemeFolder.read (m := m) input).adapt .folder
  match validate themes with
  | .error e => throw (.validation e)
  | .ok () => return ⟨themes⟩

/-- The directory beside the output where files are written first. An output path must end in a name,
since what it names is replaced. -/
def stagingPath (output : String) : Except RunError String :=
  match Path.fileName? output with
  | none => .error (.invalidOutput output)
  | some name => .ok (Path.withFileName output ("." ++ name ++ ".staging"))

def writing (path : String) (action : m (Except FileFault Unit)) : ExceptT RunError m Unit := do
  match ← action with
  | .ok () => return ()
  | .error e => throw (.unwritable path e)

def writeFiles (dir : String) : List Source.SourceFile → ExceptT RunError m Unit
  | [] => return ()
  | f :: rest => do
    let path := Path.join dir f.name
    writing path (FileSystem.write path f.contents.toUTF8.toList)
    writeFiles dir rest

def clear (path : String) : ExceptT RunError m Unit := do
  if ← FileSystem.isPresent (m := m) path then
    writing path (FileSystem.removeDirectory path)

def stage (staging : String) (files : List Source.SourceFile) : ExceptT RunError m Unit := do
  clear staging
  match Path.parent? staging with
  | some parent =>
    if !parent.isEmpty then writing parent (FileSystem.makeDirectories parent)
  | none => pure ()
  writing staging (FileSystem.makeDirectory staging)
  writeFiles staging files

def swap (staging output : String) : ExceptT RunError m Unit := do
  clear output
  writing output (FileSystem.rename staging output)

def emit (ns : Source.Namespace) (s : ThemeSet) : Except RunError (List Source.SourceFile) :=
  (Source.emit s ns).mapError .emission

def moduleOf (ns : String) : Except RunError Source.Namespace :=
  (Source.Namespace.parse ns).mapError fun e => .emission (.invalidNamespace e)

structure Staged where
  themes : ThemeSet
  files : List Source.SourceFile
  path : String

/-- The part of a run that leaves the output alone. -/
def prepare (settings : Settings) : ExceptT RunError m Staged := do
  let ns ← moduleOf settings.ns
  let staging ← stagingPath settings.output
  let themes ← check (m := m) settings.input
  let files ← emit ns themes
  stage staging files
  return ⟨themes, files, staging⟩

def run (settings : Settings) : ExceptT RunError m RunReport := do
  let s ← prepare (m := m) settings
  swap s.path settings.output
  return ⟨s.themes.themes.length, s.themes.roleNames.length,
    s.files.map fun f => Path.join settings.output f.name⟩

end Generation

end Swatchbook

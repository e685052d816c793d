import Swatchbook.Command.Run
/-!
The program: the commands on the file system at hand.
-/
namespace Swatchbook.Main

def fault : IO.Error → FileFault
  | .noFileOrDirectory .. => .notFound
  | .alreadyExists .. => .alreadyExists
  | e => .other (toString e)

/-- Whether the system can look for a path at all. -/
def isUsable (p : String) : Bool :=
  !p.isEmpty && !p.toList.contains '\x00'

def attempt {α : Type} (p : String) (action : IO α) : IO (Except FileFault α) := do
  if p.toList.contains '\x00' then return .error .zeroInPath
  match ← action.toBaseIO with
  | .ok a => return .ok a
  | .error e => return .error (fault e)

instance : FileSystem IO where
  isPresent p := do
    let here ← IO.currentDir
    if !isUsable p then return false
    (here / p).pathExists
  isFile p := do
    let here ← IO.currentDir
    match ← (here / p).metadata.toBaseIO with
    | .ok data => return isUsable p && data.type == .file
    | .error _ => return false
  isDirectory p := do
    let here ← IO.currentDir
    if !isUsable p then return false
    (here / p).isDir
  list p := attempt p do
    let here ← IO.currentDir
    let entries ← (here / p).readDir
    return entries.toList.map fun e => e.fileName
  read p := attempt p do
    let bytes ← IO.FS.readBinFile p
    return bytes.toList
  makeDirectory p := attempt p (IO.FS.createDir p)
  write p contents := attempt p (IO.FS.writeBinFile p ⟨contents.toArray⟩)
  removeDirectory p := attempt p (IO.FS.removeDirAll p)
  rename p q := attempt (p ++ q) (IO.FS.rename p q)

end Swatchbook.Main

open Swatchbook in
def main (args : List String) : IO UInt32 := do
  let outcome ← Command.run (m := IO) args
  match outcome with
  | .done output => (← IO.getStdout).putStr output
  | .failed cause => (← IO.getStderr).putStr cause.report
  | .misused => (← IO.getStderr).putStr "error: the command line is not understood; try --help\n"
  return outcome.code.toUInt32

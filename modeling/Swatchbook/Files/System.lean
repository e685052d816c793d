import Swatchbook.Files.Path
/-!
The file operations that a run needs, whatever carries them out: the file system at hand, or a file tree
as a value.
-/
namespace Swatchbook

inductive FileFault where
  | notFound
  | notADirectory
  | isADirectory
  | alreadyExists
  | notEmpty
  | busy
  | invalid
  | tooLong
  | zeroInPath
  | other (message : String)
deriving DecidableEq, Repr

def FileFault.message : FileFault → String
  | notFound => "No such file or directory (os error 2)"
  | notADirectory => "Not a directory (os error 20)"
  | isADirectory => "Is a directory (os error 21)"
  | alreadyExists => "File exists (os error 17)"
  | notEmpty => "Directory not empty (os error 39)"
  | busy => "Device or resource busy (os error 16)"
  | invalid => "Invalid argument (os error 22)"
  | tooLong => "File name too long (os error 36)"
  | zeroInPath => "file name contained an unexpected NUL byte"
  | other message => message

/-- File operations in `m`. Paths may be relative to where one is. A directory is listed in no particular
order, made where its parent exists, and removed with all it holds. What is given another path may take
the place of a file or of an empty directory. -/
class FileSystem (m : Type → Type) where
  isPresent : String → m Bool
  isFile : String → m Bool
  isDirectory : String → m Bool
  list : String → m (Except FileFault (List String))
  read : String → m (Except FileFault (List UInt8))
  makeDirectory : String → m (Except FileFault Unit)
  write : String → List UInt8 → m (Except FileFault Unit)
  removeDirectory : String → m (Except FileFault Unit)
  rename : String → String → m (Except FileFault Unit)

namespace FileSystem

variable {m : Type → Type} [Monad m] [FileSystem m]

/-- Makes the first of these directories, given with the directories above it, nearest first, and
makes those above it where that is needed. -/
def makeDirectoryChain : List String → m (Except FileFault Unit)
  | [] => return .error .notFound
  | p :: above => do
    if p.isEmpty then return .ok ()
    match ← makeDirectory p with
    | .ok () => return .ok ()
    | .error .notFound =>
      match ← makeDirectoryChain above with
      | .error e => return .error e
      | .ok () =>
        match ← makeDirectory p with
        | .ok () => return .ok ()
        | .error e => return if ← isDirectory p then .ok () else .error e
    | .error e => return if ← isDirectory p then .ok () else .error e

def makeDirectories (p : String) : m (Except FileFault Unit) :=
  makeDirectoryChain (p :: Path.ancestors p)

end FileSystem

end Swatchbook

import Swatchbook.Dict
import Swatchbook.Files.Node
import Swatchbook.Files.System
/-!
File trees as values, and the file operations on them.

A path is followed step by step from the root or from where one is: every step starts in a directory,
`.` stays, `..` goes up, and at the root stays. A trailing slash asks for a directory. Names and paths
have a greatest length, in bytes; a name's is looked at when the name is looked up.

Three things are assumed of the trees. There are no links, so a place is given by the names that lead
to it. Every name is a text. And where one is is such a place too: once the directory there has been
removed no relative path leads anywhere, not even one that goes up at once, though some systems would
still follow that one.
-/
namespace Swatchbook

/-- The names in every directory tell its entries apart. -/
structure FileTree where
  root : Node
  here : List String
  wellFormed : root.isWellFormed = true := by decide

namespace FileTree

def put (t : FileTree) (n : Node) (hn : n.isWellFormed = true) (place : List String) : FileTree :=
  ⟨t.root.put n place, t.here, Node.isWellFormed_put t.wellFormed hn place⟩

def without (t : FileTree) (place : List String) : FileTree :=
  ⟨t.root.remove place, t.here, Node.isWellFormed_remove t.wellFormed place⟩

def move (t : FileTree) (source target : List String) : FileTree :=
  ⟨t.root.move source target, t.here, Node.isWellFormed_move t.wellFormed source target⟩

def steps (p : String) : List String :=
  ((Text.pieces '/' p.toList).filter (· ≠ [])).map String.ofList

def asksDirectory (p : String) : Bool :=
  p.toList.getLast? = some '/'

def start (t : FileTree) (p : String) : List String :=
  if Path.isAbsolute p then [] else t.here

def isLongName (name : String) : Bool :=
  255 < name.utf8ByteSize

def refusal? (p : String) : Option FileFault :=
  if p.isEmpty then some .notFound
  else if p.toList.contains '\x00' then some .zeroInPath
  else if 4095 < p.utf8ByteSize then some .tooLong
  else none

def walk (root : Node) (place : List String) : List String → Except FileFault (List String)
  | [] => .ok place
  | step :: rest =>
    match root.find? place with
    | none => .error .notFound
    | some (.file _) => .error .notADirectory
    | some (.directory es) =>
      if step = "." then walk root place rest
      else if step = ".." then walk root place.dropLast rest
      else if isLongName step then .error .tooLong
      else if (es.lookup step).isSome then walk root (place ++ [step]) rest
      else .error .notFound

def locate (t : FileTree) (p : String) : Except FileFault (List String × Node) :=
  match refusal? p with
  | some e => .error e
  | none =>
    match walk t.root (t.start p) (steps p) with
    | .error e => .error e
    | .ok place =>
      match t.root.find? place with
      | none => .error .notFound
      | some n => if asksDirectory p && !n.isDirectory then .error .notADirectory else .ok (place, n)

/-- The directory in which a path names something, and the last step. -/
def locateParent (t : FileTree) (p : String) : Except FileFault (List String × String) :=
  match refusal? p, (steps p).getLast? with
  | some e, _ => .error e
  | none, none => .error .busy
  | none, some last =>
    match walk t.root (t.start p) (steps p).dropLast with
    | .error e => .error e
    | .ok place =>
      match t.root.find? place with
      | some (.directory _) => if isLongName last then .error .tooLong else .ok (place, last)
      | some (.file _) => .error .notADirectory
      | none => .error .notFound

def isName (step : String) : Bool :=
  step != "." && step != ".."

def list (t : FileTree) (p : String) : Except FileFault (List String) :=
  match t.locate p with
  | .error e => .error e
  | .ok (_, .file _) => .error .notADirectory
  | .ok (_, .directory es) => .ok (es.map Prod.fst)

def read (t : FileTree) (p : String) : Except FileFault (List UInt8) :=
  match t.locate p with
  | .error e => .error e
  | .ok (_, .file c) => .ok c
  | .ok (_, .directory _) => .error .isADirectory

def makeDirectory (t : FileTree) (p : String) : Except FileFault FileTree :=
  match t.locateParent p with
  | .error .busy => .error .alreadyExists
  | .error e => .error e
  | .ok (place, last) =>
    if !isName last || (t.root.find? (place ++ [last])).isSome then .error .alreadyExists
    else .ok (t.put (.directory []) Node.isWellFormed_directory_nil (place ++ [last]))

def write (t : FileTree) (p : String) (contents : List UInt8) : Except FileFault FileTree :=
  match t.locateParent p with
  | .error .busy => .error .isADirectory
  | .error e => .error e
  | .ok (place, last) =>
    if !isName last || asksDirectory p then .error .isADirectory
    else match t.root.find? (place ++ [last]) with
      | some (.directory _) => .error .isADirectory
      | _ => .ok (t.put (.file contents) (Node.isWellFormed_file contents) (place ++ [last]))

def removeEmpty (t : FileTree) (p : String) : Except FileFault FileTree :=
  match t.locateParent p with
  | .error e => .error e
  | .ok (place, last) =>
    if last = "." then .error .invalid
    else if last = ".." then .error .notEmpty
    else match t.root.find? (place ++ [last]) with
      | none => .error .notFound
      | some (.file _) => .error .notADirectory
      | some (.directory []) => .ok (t.without (place ++ [last]))
      | some (.directory _) => .error .notEmpty

/-- Empties a directory and then removes it. If this path does not end in the directory's name it stays,
empty; if the path ran through what the directory held, it stays as well, and that is no failure. -/
def removeDirectory (t : FileTree) (p : String) : FileTree × Except FileFault Unit :=
  match t.locate p with
  | .error e => (t, .error e)
  | .ok (_, .file _) => (t, .error .notADirectory)
  | .ok (place, .directory _) =>
    let t := t.put (.directory []) Node.isWellFormed_directory_nil place
    match t.removeEmpty p with
    | .ok t => (t, .ok ())
    | .error .notFound => (t, .ok ())
    | .error e => (t, .error e)

def canReplace (new : Node) (old : Option Node) : Except FileFault Unit :=
  match new, old with
  | _, none => .ok ()
  | .file _, some (.file _) => .ok ()
  | .file _, some (.directory _) => .error .isADirectory
  | .directory _, some (.file _) => .error .notADirectory
  | .directory _, some (.directory []) => .ok ()
  | .directory _, some (.directory (_ :: _)) => .error .notEmpty

def rename (t : FileTree) (p q : String) : Except FileFault FileTree := do
  let (fromPlace, fromName) ← t.locateParent p
  let (toPlace, toName) ← t.locateParent q
  if !isName fromName || !isName toName then .error .busy
  else
    let source := fromPlace ++ [fromName]
    let target := toPlace ++ [toName]
    match t.root.find? source with
    | none => .error .notFound
    | some n =>
      if !n.isDirectory && (asksDirectory p || asksDirectory q) then .error .notADirectory
      else if source = target then .ok t
      else if source.isPrefixOf target then .error .invalid
      else do
        canReplace n (t.root.find? target)
        return t.move source target

/-- Runs an operation that changes the tree only when it succeeds. -/
def apply (f : FileTree → Except FileFault FileTree) : StateM FileTree (Except FileFault Unit) :=
  fun t =>
    match f t with
    | .ok t => (.ok (), t)
    | .error e => (.error e, t)

instance : FileSystem (StateM FileTree) where
  isPresent p := fun t => ((t.locate p).toOption.isSome, t)
  isFile p := fun t => ((t.read p).toOption.isSome, t)
  isDirectory p := fun t => ((t.list p).toOption.isSome, t)
  list p := fun t => (t.list p, t)
  read p := fun t => (t.read p, t)
  makeDirectory p := apply fun t => t.makeDirectory p
  write p c := apply fun t => t.write p c
  removeDirectory p := fun t => let (t, r) := t.removeDirectory p; (r, t)
  rename p q := apply fun t => t.rename p q

end FileTree

/-! ### For whoever sets up a tree or looks at one

No run does any of this. -/

mutual

def Node.paths (above : String) : Node → List String
  | .file _ => []
  | .directory es => Node.entryPaths above es

def Node.entryPaths (above : String) : List (String × Node) → List String
  | [] => []
  | (name, n) :: r =>
    (if n.isDirectory then above ++ name ++ "/" else above ++ name) ::
      n.paths (above ++ name ++ "/") ++ Node.entryPaths above r

end

namespace FileTree

def paths (t : FileTree) : List String :=
  match t.root.find? t.here with
  | some n => sortedDistinct (n.paths "")
  | none => []

def removeFile (t : FileTree) (p : String) : Except FileFault FileTree :=
  match t.locate p with
  | .error e => .error e
  | .ok (_, .directory _) => .error .isADirectory
  | .ok (place, .file _) => .ok (t.without place)

end FileTree

end Swatchbook

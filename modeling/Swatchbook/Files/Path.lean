import Swatchbook.Text.Piece
/-!
Paths as text. What a path names is a matter of the file tree; here its spelling is taken apart and put
together, keeping as much of it as possible. Empty steps and steps `.` do not count, except a `.` at the
very start.
-/
namespace Swatchbook.Path

/-- A path as what it starts with (`/`, `.` or nothing) and its steps. -/
structure Parts where
  head : List Char
  steps : List (List Char)

def isIdle (step : List Char) : Bool :=
  step = [] || step = ['.']

def upToLast (steps : List (List Char)) : List (List Char) :=
  (steps.reverse.dropWhile isIdle).reverse

def parts (p : String) : Parts :=
  match p.toList with
  | '/' :: r => ⟨['/'], upToLast (Text.pieces '/' r)⟩
  | ['.'] => ⟨['.'], []⟩
  | '.' :: '/' :: r => ⟨['.'], upToLast ([] :: Text.pieces '/' r)⟩
  | cs => ⟨[], upToLast (Text.pieces '/' cs)⟩

def fileName? (p : String) : Option String :=
  match (parts p).steps.getLast? with
  | some step => if step = ['.', '.'] then none else some (String.ofList step)
  | none => none

def above (head : List Char) : List (List Char) → List String
  | [] => if head = ['.'] then [".", ""] else [String.ofList head]
  | step :: steps =>
    if isIdle step then above head steps
    else String.ofList (head ++ Text.join ['/'] (step :: steps).reverse) :: above head steps

/-- The paths above a path, nearest first. A path of one name lies in the empty path, which stands for
where one is. -/
def ancestors (p : String) : List String :=
  let ⟨head, steps⟩ := parts p
  match steps.reverse with
  | [] => if head = ['.'] then [""] else []
  | _ :: steps => above head steps

def parent? (p : String) : Option String :=
  (ancestors p).head?

def isAbsolute (p : String) : Bool :=
  p.toList.head? = some '/'

def join (base p : String) : String :=
  if isAbsolute p || base.isEmpty then p
  else if base.toList.getLast? = some '/' then base ++ p
  else base ++ "/" ++ p

def withFileName (p name : String) : String :=
  join ((parent? p).getD p) name

/-- What follows the last dot of a name, unless nothing stands before that dot. -/
def extension? (name : String) : Option String :=
  match Text.cut? '.' name.toList.reverse with
  | some (after, before) =>
    if before = [] then none else some (String.ofList after.reverse)
  | none => none

end Swatchbook.Path

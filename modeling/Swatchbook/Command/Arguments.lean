import Swatchbook.Text.Piece
/-!
Command lines. Options have a long name and may have a one-letter name; the value of an option follows
it as the next argument or is attached. What follows `--` is not looked at for options. The first
fault, or the first call for help, ends the reading.
-/
namespace Swatchbook.Command

structure Flag where
  long : String
  short : Option Char := none
  takesValue : Bool := true
  mayBeEmpty : Bool := false
deriving DecidableEq, Repr

structure Form where
  flags : List Flag
  words : Nat := 0
deriving DecidableEq, Repr

structure Given where
  values : List (String × String) := []
  words : List String := []
deriving DecidableEq, Repr

inductive Parsed where
  | given (g : Given)
  | help
  | wrong
deriving DecidableEq, Repr

namespace Given

def value? (g : Given) (long : String) : Option String :=
  g.values.lookup long

/-- Adds an option, unless it was given before or its value is empty where it may not be. -/
def add (g : Given) (flag : Flag) (value : String) : Option Given :=
  if (g.value? flag.long).isSome || (flag.takesValue && !flag.mayBeEmpty && value.isEmpty) then none
  else some { g with values := g.values ++ [(flag.long, value)] }

def addWord (form : Form) (g : Given) (word : String) : Option Given :=
  if g.words.length < form.words then some { g with words := g.words ++ [word] } else none

def addWords (form : Form) (g : Given) (words : List String) : Option Given :=
  words.foldlM (addWord form) g

end Given

inductive Argument where
  | separator
  | long (name : List Char) (value : Option (List Char))
  | short (letter : Char) (rest : List Char)
  | word

def Argument.of (s : String) : Argument :=
  match s.toList with
  | ['-', '-'] => separator
  | '-' :: '-' :: r =>
    match Text.cut? '=' r with
    | some (name, value) => long name (some value)
    | none => long r none
  | '-' :: c :: r => short c r
  | _ => word

def isValue (s : String) : Bool :=
  match Argument.of s with
  | .word => true
  | _ => false

/-- What the letters after the first in a group of letters give as a value. -/
def attached? : List Char → Option (List Char)
  | [] => none
  | '=' :: r => some r
  | r => some r

inductive Found where
  | flag (flag : Flag) (attached : Option (List Char))
  | help
  | nothing

def Form.find (form : Form) : Argument → Found
  | .long name value =>
    if name = "help".toList ∧ value = none then .help
    else match form.flags.find? fun f => f.long.toList == name with
      | some f => .flag f value
      | none => .nothing
  | .short letter rest =>
    if letter = 'h' then .help
    else match form.flags.find? fun f => f.short == some letter with
      | some f => .flag f (attached? rest)
      | none => .nothing
  | _ => .nothing

mutual

def Form.parse (form : Form) (g : Given) : List String → Parsed
  | [] => .given g
  | arg :: rest =>
    match Argument.of arg with
    | .separator =>
      match g.addWords form rest with
      | some g => .given g
      | none => .wrong
    | .word =>
      match g.addWord form arg with
      | some g => form.parse g rest
      | none => .wrong
    | a =>
      match form.find a with
      | .help => .help
      | .nothing => .wrong
      | .flag f attached =>
        if f.takesValue then
          match attached with
          | some v =>
            match g.add f (String.ofList v) with
            | some g => form.parse g rest
            | none => .wrong
          | none => form.parseValue g f rest
        else if attached.isSome then .wrong
        else
          match g.add f "" with
          | some g => form.parse g rest
          | none => .wrong

def Form.parseValue (form : Form) (g : Given) (f : Flag) : List String → Parsed
  | [] => .wrong
  | v :: rest =>
    if isValue v then
      match g.add f v with
      | some g => form.parse g rest
      | none => .wrong
    else .wrong

end

inductive Request where
  | generate (config input output ns : Option String)
  | check (input : String)
  | display (input identifier : String) (json : Bool)
  | version
  | help (command : Option String)
  | wrong
deriving DecidableEq, Repr

def inputFlag : Flag := { long := "input", short := some 'i' }

def generateForm : Form where
  flags := [{ long := "config", short := some 'c' }, inputFlag, { long := "output", short := some 'o' },
    { long := "namespace", short := some 'n', mayBeEmpty := true }]

def checkForm : Form where
  flags := [inputFlag]

def showForm : Form where
  flags := [inputFlag, { long := "json", takesValue := false }]
  words := 1

namespace Request

def ofParsed (command : String) (p : Parsed) (complete : Given → Request) : Request :=
  match p with
  | .given g => complete g
  | .help => help (some command)
  | .wrong => wrong

def commands : List String :=
  ["generate", "check", "show", "help"]

def ofHelp : List String → Request
  | [] => help none
  | [c] => if commands.contains c then help (some c) else wrong
  | _ => wrong

def parse : List String → Request
  | [] => wrong
  | "generate" :: rest =>
    ofParsed "generate" (generateForm.parse {} rest) fun g =>
      generate (g.value? "config") (g.value? "input") (g.value? "output") (g.value? "namespace")
  | "check" :: rest =>
    ofParsed "check" (checkForm.parse {} rest) fun g =>
      match g.value? "input" with
      | some input => check input
      | none => wrong
  | "show" :: rest =>
    ofParsed "show" (showForm.parse {} rest) fun g =>
      match g.value? "input", g.words with
      | some input, [identifier] => display input identifier (g.value? "json").isSome
      | _, _ => wrong
  | "help" :: rest => ofHelp rest
  | "--help" :: _ => help none
  | "--version" :: _ => version
  | arg :: _ =>
    match Argument.of arg with
    | .short 'h' _ => help none
    | .short 'V' _ => version
    | _ => wrong

end Request

end Swatchbook.Command

import Swatchbook.Json.Lexeme
import Swatchbook.Json.Numeral
/-!
JSON text as a tree that reaches as far as the text is well formed. The first fault of a text stands in
its tree as a leaf, or as the stop of a row of items or members; what comes after a fault is not
looked at. Every reading of a text is then a walk through its tree in the order of the text, and ends
at the first thing it cannot accept.
-/
namespace Swatchbook.Json

/-- A value of a text, as far as it is well formed. Where there is none it is broken, and a number that
the end of the text cuts off is unfinished. -/
inductive Draft where
  | null
  | bool (b : Bool)
  | number (n : Numeral)
  | text (s : Lexeme)
  | array (items : List Draft) (stop : Option Flaw)
  | object (members : List (Lexeme × Draft)) (stop : Option Flaw)
  | broken (f : Flaw)
  | unfinished
deriving Inhabited

structure Reading where
  root : Draft
  trailing : Bool

def atEnd : Option Flaw → Except Flaw Unit
  | none => .ok ()
  | some f => .error f

mutual

/-- Skips a value of no interest. Only its syntax counts: there is no limit on its depth or its numbers,
and its strings are not decoded. -/
def Draft.skip : Draft → Except Flaw Unit
  | .null | .bool _ | .number _ => .ok ()
  | .text s => atEnd s.stop
  | .array items stop => do skipItems items; atEnd stop
  | .object members stop => do skipMembers members; atEnd stop
  | .broken f => .error f
  | .unfinished => .error .malformed

def skipItems : List Draft → Except Flaw Unit
  | [] => .ok ()
  | d :: r => do d.skip; skipItems r

def skipMembers : List (Lexeme × Draft) → Except Flaw Unit
  | [] => .ok ()
  | (key, d) :: r => do atEnd key.stop; d.skip; skipMembers r

end

/-- The flaw of a value that stands where another kind of value is wanted: its own if it has one that
shows before its kind does. -/
def Draft.unwanted : Draft → Flaw
  | .broken f => f
  | .unfinished => .truncated
  | .text s => match s.text with
    | .error f => f
    | .ok _ => .mismatched
  | .number n => if n.value?.isNone then .malformed else .mismatched
  | _ => .mismatched

def Draft.asText : Draft → Except Flaw String
  | .text s => s.text
  | d => .error d.unwanted

def Draft.orNull {α : Type} (read : Draft → Except Flaw α) : Draft → Except Flaw (Option α)
  | .null => .ok none
  | d => (read d).map some

def textMembers : List (Lexeme × Draft) → Except Flaw (List (String × String))
  | [] => .ok []
  | (key, d) :: r => do
    let k ← key.text
    let v ← d.asText
    let rest ← textMembers r
    return (k, v) :: rest

def Draft.asTexts : Draft → Except Flaw (List (String × String))
  | .object members stop => do
    let es ← textMembers members
    atEnd stop
    return es
  | d => .error d.unwanted

end Swatchbook.Json

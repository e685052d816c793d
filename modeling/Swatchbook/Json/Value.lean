import Swatchbook.Dict
import Swatchbook.Json.Draft
/-!
Decoded JSON values. An object keeps its members in the order of the text, repeated keys included;
`sorted` is the view in which keys stand in order and the last of equal keys wins.
-/
namespace Swatchbook

inductive Json where
  | null
  | bool (b : Bool)
  | number (n : Json.Numeral)
  | text (s : String)
  | array (items : List Json)
  | object (members : List (String × Json))
deriving Inhabited

namespace Json

/-- How many containers may be open around a value that is decoded. -/
def maxDepth : Nat := 127

mutual

/-- Decodes a value with room for so many open containers: its strings are decoded and its numbers must
be in range. -/
def Draft.decode (room : Nat) : Draft → Except Flaw Json
  | .null => .ok .null
  | .bool b => .ok (.bool b)
  | .number n => if n.value?.isSome then .ok (.number n) else .error .malformed
  | .text s => s.text.map .text
  | .array items stop =>
    if room = 0 then .error .malformed
    else do
      let items ← decodeItems (room - 1) items
      atEnd stop
      return .array items
  | .object members stop =>
    if room = 0 then .error .malformed
    else do
      let members ← decodeMembers (room - 1) members
      atEnd stop
      return .object members
  | .broken f => .error f
  | .unfinished => .error .truncated

def decodeItems (room : Nat) : List Draft → Except Flaw (List Json)
  | [] => .ok []
  | d :: r => do
    let v ← d.decode room
    let rest ← decodeItems room r
    return v :: rest

def decodeMembers (room : Nat) : List (Lexeme × Draft) → Except Flaw (List (String × Json))
  | [] => .ok []
  | (key, d) :: r => do
    let k ← key.text
    let v ← d.decode room
    let rest ← decodeMembers room r
    return (k, v) :: rest

end

mutual

/-- The value with the members of every object in order, and of equal keys the last only. -/
def sorted : Json → Json
  | .array items => .array (sortedItems items)
  | .object members => .object (sortedMembers members)
  | v => v

def sortedItems : List Json → List Json
  | [] => []
  | v :: r => v.sorted :: sortedItems r

def sortedMembers : List (String × Json) → List (String × Json)
  | [] => []
  | (k, v) :: r =>
    let rest := sortedMembers r
    if (rest.lookup k).isSome then rest else insertEntry k v.sorted rest

end

def Reading.decode (r : Reading) : Except Flaw Json := do
  let v ← r.root.decode maxDepth
  if r.trailing then .error .malformed else .ok v

end Json

end Swatchbook

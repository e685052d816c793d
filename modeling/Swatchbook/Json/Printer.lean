import Swatchbook.Json.Value
/-!
JSON values as text: on one line without spaces, or one entry a line and two spaces of indent for each
level. Numbers do not occur in what is printed.
-/
namespace Swatchbook.Json

def escapeChar (c : Char) : List Char :=
  if c = '"' then ['\\', '"']
  else if c = '\\' then ['\\', '\\']
  else if c = '\n' then ['\\', 'n']
  else if c = '\r' then ['\\', 'r']
  else if c = '\t' then ['\\', 't']
  else if c = '\x08' then ['\\', 'b']
  else if c = '\x0c' then ['\\', 'f']
  else if c.toNat < 0x20 then
    ['\\', 'u', '0', '0', Nat.digitChar (c.toNat / 16), Nat.digitChar (c.toNat % 16)]
  else [c]

def quoted (s : String) : List Char :=
  '"' :: s.toList.flatMap escapeChar ++ ['"']

inductive Printable where
  | text (s : String)
  | array (items : List Printable)
  | object (members : List (String × Printable))

namespace Printable

mutual

def compact : Printable → List Char
  | .text s => quoted s
  | .array items => '[' :: compactItems items ++ [']']
  | .object members => '\x7b' :: compactMembers members ++ ['\x7d']

def compactItems : List Printable → List Char
  | [] => []
  | [v] => v.compact
  | v :: w :: r => v.compact ++ ',' :: compactItems (w :: r)

def compactMembers : List (String × Printable) → List Char
  | [] => []
  | [(k, v)] => quoted k ++ ':' :: v.compact
  | (k, v) :: w :: r => quoted k ++ ':' :: v.compact ++ ',' :: compactMembers (w :: r)

end

def newline (level : Nat) : List Char :=
  '\n' :: List.replicate (2 * level) ' '

mutual

def pretty (level : Nat) : Printable → List Char
  | .text s => quoted s
  | .array items =>
    if items.isEmpty then ['[', ']']
    else '[' :: prettyItems (level + 1) items ++ newline level ++ [']']
  | .object members =>
    if members.isEmpty then ['\x7b', '\x7d']
    else '\x7b' :: prettyMembers (level + 1) members ++ newline level ++ ['\x7d']

def prettyItems (level : Nat) : List Printable → List Char
  | [] => []
  | [v] => newline level ++ v.pretty level
  | v :: w :: r => newline level ++ v.pretty level ++ ',' :: prettyItems level (w :: r)

def prettyMembers (level : Nat) : List (String × Printable) → List Char
  | [] => []
  | [(k, v)] => newline level ++ quoted k ++ ':' :: ' ' :: v.pretty level
  | (k, v) :: w :: r =>
    newline level ++ quoted k ++ ':' :: ' ' :: v.pretty level ++ ',' :: prettyMembers level (w :: r)

end

end Printable

end Swatchbook.Json

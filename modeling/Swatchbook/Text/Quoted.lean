import Swatchbook.Text.HiddenTable
/-!
Quoted text as a string literal of the emitted code and of messages: double quotes around it,
backslash escapes for the quote, the backslash and four controls, and the code point in braces for
every other character that cannot be shown on its own.
-/
namespace Swatchbook.Text

def isHidden (c : Char) : Bool :=
  if c.toNat < 0x7F then c.toNat < 0x20
  else hiddenRanges.any fun (lo, hi) => lo ≤ c.toNat && c.toNat ≤ hi

def escape (c : Char) : List Char :=
  if c = '"' then ['\\', '"']
  else if c = '\\' then ['\\', '\\']
  else if c = '\n' then ['\\', 'n']
  else if c = '\r' then ['\\', 'r']
  else if c = '\t' then ['\\', 't']
  else if c = '\x00' then ['\\', '0']
  else if isHidden c then ['\\', 'u', '\x7b'] ++ Nat.toDigits 16 c.toNat ++ ['\x7d']
  else [c]

def quote (s : String) : String :=
  String.ofList ('"' :: s.toList.flatMap escape ++ ['"'])

end Swatchbook.Text

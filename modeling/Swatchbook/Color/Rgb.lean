/-!
Colors as three bytes, and the digits they are written with.
-/
namespace Swatchbook

structure Rgb where
  red : UInt8
  green : UInt8
  blue : UInt8
deriving DecidableEq, Repr

def hexDigit (n : Nat) : Char :=
  if n < 10 then Char.ofNat (n + '0'.toNat) else Char.ofNat (n - 10 + 'A'.toNat)

def hexValue? (c : Char) : Option Nat :=
  if c.isDigit then some (c.toNat - '0'.toNat)
  else if 'a'.toNat ≤ c.toNat ∧ c.toNat ≤ 'f'.toNat then some (c.toNat - 'a'.toNat + 10)
  else if 'A'.toNat ≤ c.toNat ∧ c.toNat ≤ 'F'.toNat then some (c.toNat - 'A'.toNat + 10)
  else none

def isHexDigit (c : Char) : Bool :=
  (hexValue? c).isSome

/-- The number that hexadecimal digits spell; other characters count as zero. -/
def hexNumber (s : List Char) : Nat :=
  s.foldl (fun n c => 16 * n + (hexValue? c).getD 0) 0

def hexByte (b : UInt8) : List Char :=
  [hexDigit (b.toNat / 16), hexDigit (b.toNat % 16)]

def hexWord (n : UInt32) : List Char :=
  [28, 24, 20, 16, 12, 8, 4, 0].map fun shift => hexDigit ((n.toNat >>> shift) % 16)

namespace Rgb

def map (f : UInt8 → UInt8) (c : Rgb) : Rgb :=
  ⟨f c.red, f c.green, f c.blue⟩

def zipWith (f : UInt8 → UInt8 → UInt8) (c d : Rgb) : Rgb :=
  ⟨f c.red d.red, f c.green d.green, f c.blue d.blue⟩

def digits (c : Rgb) : List Char :=
  hexByte c.red ++ hexByte c.green ++ hexByte c.blue

def toHex (c : Rgb) : String :=
  String.ofList ('#' :: c.digits)

end Rgb

end Swatchbook

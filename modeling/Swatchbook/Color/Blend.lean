import Swatchbook.Color.Hex
/-!
Arithmetic on colors. Each channel is computed as a binary fraction and comes back as a byte: cut off
toward zero for lighter, darker and mixed colors, rounded half up for the opacity. What lies outside
the range goes to its nearer end, and the undefined number to zero.
-/
namespace Swatchbook.Rgb

def lighten (c : Rgb) (amount : Float) : Rgb :=
  c.map fun b => (b.toFloat + (255 - b.toFloat) * amount).toUInt8

def darken (c : Rgb) (amount : Float) : Rgb :=
  c.map fun b => (b.toFloat * (1 - amount)).toUInt8

/-- The nearest byte, a half going up. -/
def nearestByte (x : Float) : UInt8 :=
  if 255 ≤ x then 255
  else
    let n := x.toUInt8
    if 0.5 ≤ x - n.toFloat then n + 1 else n

def withAlpha (c : Rgb) (alpha : Float) : String :=
  String.ofList ('#' :: hexByte (nearestByte (alpha * 255)) ++ c.digits)

def unitRatio (x : Float) : Float :=
  if x < 0 then 0 else if 1 < x then 1 else x

def blend (c d : Rgb) (ratio : Float) : Rgb :=
  c.zipWith (fun a b => (a.toFloat + (b.toFloat - a.toFloat) * unitRatio ratio).toUInt8) d

def mix (c : Rgb) (other : String) (ratio : Float) : Except ColorError Rgb :=
  (Hex.read other).map fun d => c.blend d ratio

end Swatchbook.Rgb

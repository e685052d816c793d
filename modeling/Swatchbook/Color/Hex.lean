import Swatchbook.Color.Rgb
import Swatchbook.Text.Quoted
/-!
Colors as text: three, six or eight hexadecimal digits after a number sign. Three digits stand for six,
each doubled; the first two of eight are the opacity.
-/
namespace Swatchbook

structure ColorError where
  text : String
deriving DecidableEq, Repr

def ColorError.message (e : ColorError) : String :=
  "invalid color format: " ++ Text.quote e.text

namespace Hex

def double (s : List Char) : List Char :=
  s.flatMap fun c => [c, c]

def bare (s : List Char) : List Char :=
  match s with
  | '#' :: r => r
  | r => r

def read (s : String) : Except ColorError Rgb :=
  let ds := bare s.toList
  if !ds.all isHexDigit then .error ⟨s⟩
  else match (if ds.length = 3 then double ds else ds) with
    | [a, b, c, d, e, f] =>
      .ok ⟨.ofNat (hexNumber [a, b]), .ofNat (hexNumber [c, d]), .ofNat (hexNumber [e, f])⟩
    | _ => .error ⟨s⟩

def isValid (s : String) : Bool :=
  match s.toList with
  | '#' :: ds => (ds.length == 3 || ds.length == 6 || ds.length == 8) && ds.all isHexDigit
  | _ => false

def byteCount (s : List Char) : Nat :=
  s.foldr (fun c n => c.utf8Size + n) 0

/-- Upper case with exactly one number sign; what takes three bytes is doubled. Any text has such a
form, color or not. -/
def normalize (s : String) : String :=
  let ds := (s.toList.dropWhile (· == '#')).map Char.toUpper
  String.ofList ('#' :: if byteCount ds = 3 then double ds else ds)

/-- A valid color as one word, opacity in the highest byte; without opacity digits it is opaque. -/
def pack (s : String) : Except ColorError UInt32 :=
  if isValid s then
    let ds := (normalize s).toList.tail
    .ok (.ofNat (hexNumber (if ds.length = 6 then 'F' :: 'F' :: ds else ds)))
  else .error ⟨s⟩

end Hex

end Swatchbook

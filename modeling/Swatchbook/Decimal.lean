/-!
Amounts written as decimal text, and the nearest binary number to each.

The grammar: an optional sign, then `inf`, `infinity` or `nan` in any case, or digits with at most one
point and at least one digit, and an optional exponent that has digits of its own.
-/
namespace Swatchbook

def Decimal.accumulate (n : Nat) : List Char → Nat
  | [] => n
  | c :: r => accumulate (10 * n + (c.toNat - '0'.toNat)) r

/-- A number `± digits · 10 ^ exponent`. -/
structure Decimal where
  negative : Bool
  digits : Nat
  exponent : Int

namespace Decimal

def width (n : Nat) : Nat :=
  (Nat.toDigits 10 n).length

/-- The nearest binary number, ties to even. Far outside the range the answer is settled by the number
of digits alone, so that no huge power is computed. -/
def nearest (m : Nat) (e : Int) : Float :=
  if m = 0 then 0
  else if (width m : Int) + e > 400 then 1 / 0
  else if (width m : Int) + e < -400 then 0
  else if e < 0 then Float.ofScientific m true e.natAbs
  else Float.ofScientific m false e.natAbs

def toFloat (d : Decimal) : Float :=
  if d.negative then -nearest d.digits d.exponent else nearest d.digits d.exponent

def readExponent? : List Char → Option Int
  | [] => some 0
  | c :: r =>
    if c = 'e' ∨ c = 'E' then
      let (negative, r) := match r with
        | '-' :: r => (true, r)
        | '+' :: r => (false, r)
        | r => (false, r)
      if r.isEmpty || !r.all Char.isDigit then none
      else
        let n := accumulate 0 r
        some (if negative then -(n : Int) else n)
    else none

def readUnsigned? (s : List Char) : Option (Nat × Int) :=
  let whole := s.takeWhile Char.isDigit
  let rest := s.dropWhile Char.isDigit
  let (part, rest) := match rest with
    | '.' :: r => (r.takeWhile Char.isDigit, r.dropWhile Char.isDigit)
    | r => ([], r)
  if whole.isEmpty && part.isEmpty then none
  else (readExponent? rest).map fun e => (accumulate 0 (whole ++ part), e - part.length)

def readAmount? (s : String) : Option Float :=
  let (negative, body) := match s.toList with
    | '-' :: r => (true, r)
    | '+' :: r => (false, r)
    | r => (false, r)
  let word := String.ofList (body.map Char.toLower)
  if word = "inf" ∨ word = "infinity" then some (if negative then -(1 / 0) else 1 / 0)
  else if word = "nan" then some (0 / 0)
  else (readUnsigned? body).map fun (m, e) => toFloat ⟨negative, m, e⟩

end Decimal

end Swatchbook

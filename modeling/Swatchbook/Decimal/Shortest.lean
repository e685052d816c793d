import Swatchbook.Decimal
/-!
The shortest decimal that names a binary number.

A positive number is `m · 2 ^ q`. The decimals that are read as it lie between the points halfway to its
two neighbours, those points included when `m` is even. All comparisons are made in units of
`2 ^ (q - 2)`, in which both points are whole numbers.
-/
namespace Swatchbook.Decimal

/-- A positive number of the binary format: `significand · 2 ^ exponent`. -/
structure Binary where
  significand : Nat
  exponent : Int
deriving DecidableEq, Repr

namespace Binary

def ofFloat (x : Float) : Binary :=
  let bits := x.toBits.toNat
  let m : Nat := bits % (1 <<< 52)
  let e : Nat := (bits >>> 52) % (1 <<< 11)
  if e = 0 then ⟨m, -1074⟩ else ⟨(1 <<< 52) + m, e - 1075⟩

/-- The point halfway to the neighbour below, four to a unit of the significand. The neighbour is nearer
where the numbers below lie twice as close. -/
def low (b : Binary) : Nat :=
  4 * b.significand - (if b.significand = 1 <<< 52 ∧ -1074 < b.exponent then 1 else 2)

def high (b : Binary) : Nat :=
  4 * b.significand + 2

def reads (b : Binary) (x y : Nat) : Bool :=
  if b.significand % 2 = 0 then b.low * y ≤ x && x ≤ b.high * y else b.low * y < x && x < b.high * y

def multiple? (b : Binary) (e : Int) : Option Nat :=
  let step := (Nat.pow 10 e.toNat) <<< (2 - b.exponent).toNat
  let scale := (Nat.pow 10 (-e).toNat) <<< (b.exponent - 2).toNat
  let n := 4 * b.significand * scale / step
  let rest := 4 * b.significand * scale % step
  let nearer := if 2 * rest < step ∨ (2 * rest = step ∧ n % 2 = 0) then [n, n + 1] else [n + 1, n]
  nearer.find? fun k => b.reads (k * step) scale

/-- The decimal with the fewest digits that is read as the number: a multiple of the largest power of
ten that has one. -/
def shortest (b : Binary) : Nat × Int :=
  let powers := (List.range 634).map fun (i : Nat) => (309 : Int) - (i : Int)
  (powers.findSome? fun e => (b.multiple? e).map (·, e)).getD (0, 0)

end Binary

def ofFloat (x : Float) : Decimal :=
  let (n, e) := if x == 0 then (0, 0) else (Binary.ofFloat x).shortest
  ⟨x.toBits.toNat >>> 63 = 1, n, e⟩

/-- The digits with the point among them or beside them, from `0.00001` to below `10 ^ 16`, and with an
exponent outside, which always has a sign. There is a digit after the point where there is no exponent. -/
def toText (d : Decimal) : String :=
  let digits := Nat.toDigits 10 d.digits
  let sign := if d.negative then "-" else ""
  let point : Int := digits.length + d.exponent
  sign ++
    if d.digits = 0 then "0.0"
    else if -5 < point ∧ point ≤ 16 then
      let padded := List.replicate (1 - point).toNat '0' ++ digits ++ List.replicate d.exponent.toNat '0'
      let whole := max point 1
      let fraction := padded.drop whole.toNat
      String.ofList (padded.take whole.toNat) ++ "." ++
        (if fraction.isEmpty then "0" else String.ofList fraction)
    else
      String.ofList (digits.take 1) ++
        (if digits.length = 1 then "" else "." ++ String.ofList (digits.drop 1)) ++
        (if 0 < point then "e+" else "e-") ++ toString (point - 1).natAbs

end Swatchbook.Decimal

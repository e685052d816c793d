import Swatchbook.Decimal.Shortest
/-!
Numbers as JSON writes them, and the binary numbers they are read as.

Reading keeps as many leading digits as fit a 64-bit word and counts the others as powers of ten, then
multiplies or divides once by a power of ten. The result can differ from the nearest number in its last
bit when there are many digits; a number too large for the binary format is refused.
-/
namespace Swatchbook.Json

/-- A number as it is spelled: digits before the point, digits after it (none where there is no
point), and the exponent with its sign where there is one. -/
structure Numeral where
  negative : Bool
  whole : List Nat
  fraction : List Nat := []
  exponent : Option (Bool × List Nat) := none
deriving DecidableEq, Repr, Inhabited

namespace Numeral

/-- Appends digits to `n` as long as the number fits 64 bits, and counts those left over. -/
def absorb (n : Nat) : List Nat → Nat × Nat
  | [] => (n, 0)
  | d :: r => if 10 * n + d < 1 <<< 64 then absorb (10 * n + d) r else (n, r.length + 1)

def power (n : Nat) : Float :=
  Float.ofScientific 1 false n

def shrink (x : Float) (n : Nat) : Float :=
  if n ≤ 308 then x / power n
  else if x == 0 then x
  else shrink (x / power 308) (n - 308)
termination_by n

def scale? (n : Nat) (e : Int) : Option Float :=
  let x := n.toUInt64.toFloat
  if e < 0 then some (shrink x e.natAbs)
  else if e.natAbs ≤ 308 then
    let y := x * power e.natAbs
    if y.isInf then none else some y
  else if n = 0 then some x
  else none

def exponentNumber? (n : Nat) : List Nat → Option Nat
  | [] => some n
  | d :: r => if 10 * n + d < 1 <<< 31 then exponentNumber? (10 * n + d) r else none

def magnitude? (x : Numeral) : Option Float :=
  let (n, excess) := absorb 0 x.whole
  let (m, left) := absorb n x.fraction
  let e : Int := (excess : Int) - ((x.fraction.length - left : Nat) : Int)
  match x.exponent with
  | none => if x.fraction.isEmpty && excess == 0 then some n.toUInt64.toFloat else scale? m e
  | some (negative, digits) =>
    match exponentNumber? 0 digits with
    | some k => scale? m (if negative then e - k else e + k)
    | none => if m ≠ 0 ∧ !negative then none else some 0

def value? (x : Numeral) : Option Float :=
  x.magnitude?.map fun m => if x.negative then -m else m

def found (x : Numeral) : String :=
  let (n, excess) := absorb 0 x.whole
  if x.fraction.isEmpty && x.exponent.isNone && excess == 0 && !(x.negative && (n == 0 || 1 <<< 63 < n))
  then "integer `" ++ (if x.negative then "-" else "") ++ toString n ++ "`"
  else "floating point `" ++ (Decimal.ofFloat (x.value?.getD 0)).toText ++ "`"

end Numeral

end Swatchbook.Json

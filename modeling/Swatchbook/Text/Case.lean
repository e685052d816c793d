import Swatchbook.Text.CaseTable
import Swatchbook.Text.WordTable
/-!
Upper and lower case for all of Unicode. Upper case is per character and may lengthen it (`ß` gives
`SS`). Lower case looks at the neighbours of one character only: a capital sigma at the end of a word
has a form of its own.
-/
namespace Swatchbook.Text

def runImage? : List (Nat × Nat × Nat × Nat) → Nat → Option Nat
  | [], _ => none
  | (first, last, step, image) :: rest, n =>
    if first ≤ n ∧ n ≤ last ∧ (n - first) % step = 0 then some (image + (n - first))
    else runImage? rest n

def caseImage (long : List (Nat × List Nat)) (runs : List (Nat × Nat × Nat × Nat)) (c : Char) :
    List Char :=
  match long.lookup c.toNat with
  | some image => image.map Char.ofNat
  | none =>
    match runImage? runs c.toNat with
    | some n => [Char.ofNat n]
    | none => [c]

def upper (c : Char) : List Char :=
  if c.toNat < 0x80 then [c.toUpper] else caseImage upperLong upperRuns c

def lower (c : Char) : List Char :=
  if c.toNat < 0x80 then [c.toLower] else caseImage lowerLong lowerRuns c

def inRanges (ranges : List (Nat × Nat)) (c : Char) : Bool :=
  ranges.any fun (lo, hi) => lo ≤ c.toNat && c.toNat ≤ hi

/-- Whether the first character that does not disappear inside a word has a case. -/
def meetsCased (s : List Char) : Bool :=
  match s.dropWhile (inRanges caseIgnorableRanges) with
  | [] => false
  | c :: _ => inRanges casedRanges c

/-- Lower case of the rest of a text, `before` being what stands to its left, nearest first. -/
def lowerAfter (before : List Char) : List Char → List Char
  | [] => []
  | c :: r =>
    (if c = 'Σ' then (if meetsCased before && !meetsCased r then ['ς'] else ['σ']) else lower c) ++
      lowerAfter (c :: before) r

def lowerText (s : List Char) : List Char :=
  lowerAfter [] s

def capitalize : List Char → List Char
  | [] => []
  | c :: r => upper c ++ r

end Swatchbook.Text

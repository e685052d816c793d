import Swatchbook.Json.Draft
/-!
Reading text as JSON, one byte a step. The state holds the containers that are open, outermost last,
and what is under way inside the innermost of them.
-/
namespace Swatchbook.Json

/-- A container that waits for the value of its next entry; what it already holds is listed last entry
first. -/
inductive Frame where
  | items (before : List Draft)
  | members (before : List (Lexeme × Draft)) (key : Lexeme)

inductive Role where
  | value
  | key (before : List (Lexeme × Draft))

/-- How far an escape has come: no escape, after the backslash, or so many of its digits. -/
inductive Escape where
  | none
  | start
  | digits (sofar : List UInt8)

/-- How far a number has come. Digits are listed last first. -/
inductive Partial where
  | sign
  | zero (negative : Bool)
  | whole (negative : Bool) (digits : List Nat)
  | fraction (negative : Bool) (whole digits : List Nat)
  | mark (before : Numeral)
  | exponent (before : Numeral) (negative : Bool) (digits : List Nat)

inductive State where
  /-- A value is due; the array around it may also be closed if it has no item yet. -/
  | value (frames : List Frame) (closable : Bool)
  | word (frames : List Frame) (due : List UInt8) (d : Draft)
  | number (frames : List Frame) (p : Partial)
  | string (frames : List Frame) (role : Role) (glyphs : List Glyph) (escape : Escape)
  /-- A key is due; the object may also be closed if it has no member yet. -/
  | key (frames : List Frame) (before : List (Lexeme × Draft))
  | colon (frames : List Frame) (before : List (Lexeme × Draft)) (key : Lexeme)
  | afterItem (frames : List Frame) (items : List Draft)
  | afterMember (frames : List Frame) (members : List (Lexeme × Draft))
  | ended (root : Draft) (trailing : Bool)
  | failed (root : Draft)
deriving Inhabited

namespace State

def wrap (d : Draft) : List Frame → Draft
  | [] => d
  | .items before :: frames => wrap (.array (d :: before).reverse (some .malformed)) frames
  | .members before k :: frames =>
    wrap (.object ((k, d) :: before).reverse (some .malformed)) frames

def fail (frames : List Frame) (d : Draft) : State :=
  failed (wrap d frames)

def complete (frames : List Frame) (d : Draft) : State :=
  match frames with
  | [] => ended d false
  | .items before :: frames => afterItem frames (d :: before)
  | .members before k :: frames => afterMember frames ((k, d) :: before)

def isSpace (b : UInt8) : Bool :=
  b == 0x20 || b == 0x0A || b == 0x09 || b == 0x0D

def isDigit (b : UInt8) : Bool :=
  0x30 ≤ b && b ≤ 0x39

def digit (b : UInt8) : Nat :=
  b.toNat - 0x30

def hexDigit? (b : UInt8) : Option Nat :=
  if isDigit b then some (digit b)
  else if 0x61 ≤ b && b ≤ 0x66 then some (b.toNat - 0x61 + 10)
  else if 0x41 ≤ b && b ≤ 0x46 then some (b.toNat - 0x41 + 10)
  else none

def hexCode? (digits : List UInt8) : Option Nat :=
  digits.foldlM (fun n b => (hexDigit? b).map fun d => 16 * n + d) 0

def shortEscape? (b : UInt8) : Option UInt8 :=
  if b == 0x22 || b == 0x5C || b == 0x2F then some b
  else if b == 0x62 then some 0x08
  else if b == 0x66 then some 0x0C
  else if b == 0x6E then some 0x0A
  else if b == 0x72 then some 0x0D
  else if b == 0x74 then some 0x09
  else none

def begin (frames : List Frame) (b : UInt8) : State :=
  if b == 0x6E then word frames [0x75, 0x6C, 0x6C] .null
  else if b == 0x74 then word frames [0x72, 0x75, 0x65] (.bool true)
  else if b == 0x66 then word frames [0x61, 0x6C, 0x73, 0x65] (.bool false)
  else if b == 0x22 then string frames .value [] .none
  else if b == 0x5B then value (.items [] :: frames) true
  else if b == 0x7B then key frames []
  else if b == 0x2D then number frames .sign
  else if b == 0x30 then number frames (.zero false)
  else if isDigit b then number frames (.whole false [digit b])
  else fail frames (.broken .malformed)

def finishString (frames : List Frame) (role : Role) (glyphs : List Glyph) (stop : Option Flaw) :
    State :=
  let s : Lexeme := ⟨glyphs.reverse, stop⟩
  match role, stop with
  | .value, none => complete frames (.text s)
  | .value, some _ => fail frames (.text s)
  | .key before, none => colon frames before s
  | .key before, some f => fail (.members before s :: frames) (.broken f)

def stepString (frames : List Frame) (role : Role) (glyphs : List Glyph) (b : UInt8) :
    Escape → State
  | .none =>
    if b == 0x22 then finishString frames role glyphs none
    else if b == 0x5C then string frames role glyphs .start
    else if b < 0x20 then finishString frames role glyphs (some .malformed)
    else string frames role (.byte b :: glyphs) .none
  | .start =>
    if b == 0x75 then string frames role glyphs (.digits [])
    else match shortEscape? b with
      | some c => string frames role (.byte c :: glyphs) .none
      | none => finishString frames role glyphs (some .malformed)
  | .digits sofar =>
    if sofar.length < 3 then string frames role glyphs (.digits (b :: sofar))
    else match hexCode? (b :: sofar).reverse with
      | some n => string frames role (.code n :: glyphs) .none
      | none => finishString frames role glyphs (some .malformed)

def finishNumber? : Partial → Option Numeral
  | .sign | .mark _ => none
  | .zero negative => some ⟨negative, [0], [], none⟩
  | .whole negative digits => some ⟨negative, digits.reverse, [], none⟩
  | .fraction negative whole digits =>
    if digits.isEmpty then none else some ⟨negative, whole, digits.reverse, none⟩
  | .exponent before negative digits =>
    if digits.isEmpty then none
    else some { before with exponent := some (negative, digits.reverse) }

def stepNumber? (b : UInt8) : Partial → Option Partial
  | .sign =>
    if b == 0x30 then some (.zero true)
    else if isDigit b then some (.whole true [digit b])
    else none
  | .zero negative =>
    if b == 0x2E then some (.fraction negative [0] [])
    else if b == 0x65 || b == 0x45 then some (.mark ⟨negative, [0], [], none⟩)
    else none
  | .whole negative digits =>
    if isDigit b then some (.whole negative (digit b :: digits))
    else if b == 0x2E then some (.fraction negative digits.reverse [])
    else if b == 0x65 || b == 0x45 then some (.mark ⟨negative, digits.reverse, [], none⟩)
    else none
  | .fraction negative whole digits =>
    if isDigit b then some (.fraction negative whole (digit b :: digits))
    else if (b == 0x65 || b == 0x45) && !digits.isEmpty then
      some (.mark ⟨negative, whole, digits.reverse, none⟩)
    else none
  | .mark before =>
    if b == 0x2B then some (.exponent before false [])
    else if b == 0x2D then some (.exponent before true [])
    else if isDigit b then some (.exponent before false [digit b])
    else none
  | .exponent before negative digits =>
    if isDigit b then some (.exponent before negative (digit b :: digits)) else none

def stepPlain (s : State) (b : UInt8) : State :=
  match s with
  | word frames due d =>
    match due with
    | [] => s
    | c :: due =>
      if b == c then (if due.isEmpty then complete frames d else word frames due d)
      else fail frames (.broken .malformed)
  | value frames closable =>
    if isSpace b then s
    else match frames, closable, b == 0x5D with
      | .items [] :: outer, true, true => complete outer (.array [] none)
      | _, _, _ => begin frames b
  | key frames before =>
    if isSpace b then s
    else if b == 0x22 then string frames (.key before) [] .none
    else if b == 0x7D && before.isEmpty then complete frames (.object [] none)
    else fail frames (.object before.reverse (some .malformed))
  | colon frames before k =>
    if isSpace b then s
    else if b == 0x3A then value (.members before k :: frames) false
    else fail (.members before k :: frames) (.broken .malformed)
  | afterItem frames items =>
    if isSpace b then s
    else if b == 0x2C then value (.items items :: frames) false
    else if b == 0x5D then complete frames (.array items.reverse none)
    else fail frames (.array items.reverse (some .malformed))
  | afterMember frames members =>
    if isSpace b then s
    else if b == 0x2C then key frames members
    else if b == 0x7D then complete frames (.object members.reverse none)
    else fail frames (.object members.reverse (some .malformed))
  | ended root trailing => ended root (trailing || !isSpace b)
  | s => s

/-- The next byte. A byte that does not belong to the number under way ends it and is then looked at in
its own right, but a digit after a leading zero is a fault. -/
def step (s : State) (b : UInt8) : State :=
  match s with
  | string frames role glyphs escape => stepString frames role glyphs b escape
  | number frames p =>
    match stepNumber? b p, finishNumber? p with
    | some p, _ => number frames p
    | none, some n =>
      if isDigit b then fail frames (.broken .malformed)
      else stepPlain (complete frames (.number n)) b
    | none, none => fail frames (.broken .malformed)
  | s => stepPlain s b

def settle : State → State
  | number frames p =>
    match finishNumber? p with
    | some n => complete frames (.number n)
    | none => fail frames .unfinished
  | s => s

def finishSettled : State → Reading
  | value frames _ | word frames _ _ | number frames _ => ⟨wrap (.broken .truncated) frames, false⟩
  | string frames .value glyphs _ =>
    ⟨wrap (.text ⟨glyphs.reverse, some .truncated⟩) frames, false⟩
  | string frames (.key before) glyphs _ =>
    ⟨wrap (.broken .truncated) (.members before ⟨glyphs.reverse, some .truncated⟩ :: frames), false⟩
  | key frames before => ⟨wrap (.object before.reverse (some .truncated)) frames, false⟩
  | colon frames before k => ⟨wrap (.broken .truncated) (.members before k :: frames), false⟩
  | afterItem frames items => ⟨wrap (.array items.reverse (some .truncated)) frames, false⟩
  | afterMember frames members =>
    ⟨wrap (.object members.reverse (some .truncated)) frames, false⟩
  | ended root trailing => ⟨root, trailing⟩
  | failed root => ⟨root, false⟩

def finish (s : State) : Reading :=
  s.settle.finishSettled

end State

def scan (bytes : List UInt8) : Reading :=
  (bytes.foldl State.step (.value [] false)).finish

end Swatchbook.Json

/-!
The entries of a settings file: lines `key = text` at the top level, in TOML. A text stands in double
quotes with escapes or in single quotes without, and may run over several lines between triple quotes;
a key may be quoted as well. Comments start with a number sign. A file that holds anything else
(tables, dotted keys, values of other kinds) has no entries in this sense and is refused as a whole.

The file is read one character a step.
-/
namespace Swatchbook.Settings

/-- What has been read: keys with their texts, last first. -/
abbrev Entries := List (String × String)

inductive Quoting where
  | basic
  | literal
  | longBasic
  | longLiteral
deriving DecidableEq, Repr

def Quoting.mark : Quoting → Char
  | basic | longBasic => '"'
  | literal | longLiteral => '\''

def Quoting.isLong : Quoting → Bool
  | basic | literal => false
  | longBasic | longLiteral => true

inductive Inside where
  /-- At the start of a long text, where one line break does not count. -/
  | opening
  | openingReturn
  | plain
  | afterReturn
  | escape
  | code (due value : Nat)
  /-- After a backslash and blanks, where the line must end. -/
  | fold
  | foldReturn
  /-- In the blanks and line breaks after a folded line; after a carriage return if so marked. -/
  | folded (afterReturn : Bool)
  | marks (count : Nat)
deriving DecidableEq, Repr

inductive Scan where
  | line (es : Entries)
  | comment (es : Entries)
  | lineReturn (es : Entries)
  | bareKey (es : Entries) (key : List Char)
  | quotedKey (es : Entries) (q : Quoting) (text : List Char) (at_ : Inside)
  | afterKey (es : Entries) (key : String)
  | beforeText (es : Entries) (key : String)
  | opened (es : Entries) (key : String) (q : Quoting) (count : Nat)
  | text (es : Entries) (key : String) (q : Quoting) (text : List Char) (at_ : Inside)
  | afterText (es : Entries)
  | failed
deriving Repr

namespace Scan

def isBlank (c : Char) : Bool :=
  c == ' ' || c == '\t'

def isCommentChar (c : Char) : Bool :=
  c == '\t' || (0x20 ≤ c.toNat && c.toNat != 0x7F)

def isBareKeyChar (c : Char) : Bool :=
  c.isAlphanum || c == '_' || c == '-'

def shortEscape? (c : Char) : Option Char :=
  match c with
  | 'b' => some '\x08'
  | 'f' => some '\x0c'
  | 'n' => some '\n'
  | 'r' => some '\r'
  | 't' => some '\t'
  | '\\' => some '\\'
  | '"' => some '"'
  | _ => none

def digit? (c : Char) : Option Nat :=
  if c.isDigit then some (c.toNat - '0'.toNat)
  else if 'a' ≤ c ∧ c ≤ 'f' then some (c.toNat - 'a'.toNat + 10)
  else if 'A' ≤ c ∧ c ≤ 'F' then some (c.toNat - 'A'.toNat + 10)
  else none

/-- What one more character does inside a text: it goes on, closes, or has a fault. `next` is a
character that was looked at after the text had closed. -/
inductive Move where
  | goOn (text : List Char) (at_ : Inside)
  | close (text : List Char) (next : Option Char)
  | fault

def movePlain (q : Quoting) (text : List Char) (c : Char) : Move :=
  if c = q.mark then
    if q.isLong then .goOn text (.marks 1) else .close text none
  else if c = '\\' ∧ q.mark = '"' then .goOn text .escape
  else if q.isLong ∧ c = '\n' then .goOn ('\n' :: text) .plain
  else if q.isLong ∧ c = '\r' then .goOn text .afterReturn
  else if isCommentChar c then .goOn (c :: text) .plain
  else .fault

def move (q : Quoting) (text : List Char) (at_ : Inside) (c : Char) : Move :=
  match at_ with
  | .opening =>
    if c = '\n' then .goOn text .plain
    else if c = '\r' then .goOn text .openingReturn
    else movePlain q text c
  | .openingReturn => if c = '\n' then .goOn text .plain else .fault
  | .plain => movePlain q text c
  | .afterReturn => if c = '\n' then .goOn ('\n' :: text) .plain else .fault
  | .escape =>
    if c = 'u' then .goOn text (.code 4 0)
    else if c = 'U' then .goOn text (.code 8 0)
    else match shortEscape? c with
      | some d => .goOn (d :: text) .plain
      | none =>
        if !q.isLong then .fault
        else if isBlank c then .goOn text .fold
        else if c = '\n' then .goOn text (.folded false)
        else if c = '\r' then .goOn text .foldReturn
        else .fault
  | .code due value =>
    match digit? c with
    | none => .fault
    | some d =>
      let value := 16 * value + d
      if 1 < due then .goOn text (.code (due - 1) value)
      else if value.isValidChar then .goOn (Char.ofNat value :: text) .plain
      else .fault
  | .fold =>
    if isBlank c then .goOn text .fold
    else if c = '\n' then .goOn text (.folded false)
    else if c = '\r' then .goOn text .foldReturn
    else .fault
  | .foldReturn => if c = '\n' then .goOn text (.folded false) else .fault
  | .folded false =>
    if isBlank c ∨ c = '\n' then .goOn text (.folded false)
    else if c = '\r' then .goOn text (.folded true)
    else movePlain q text c
  | .folded true => if c = '\n' then .goOn text (.folded false) else .fault
  | .marks count =>
    if c = q.mark then (if count < 5 then .goOn text (.marks (count + 1)) else .fault)
    else if count < 3 then movePlain q (List.replicate count q.mark ++ text) c
    else .close (List.replicate (count - 3) q.mark ++ text) (some c)

def stepAfterText (es : Entries) (c : Char) : Scan :=
  if isBlank c then afterText es
  else if c = '#' then comment es
  else if c = '\n' then line es
  else if c = '\r' then lineReturn es
  else failed

def afterMove (es : Entries) (key : String) (q : Quoting) : Move → Scan
  | .goOn t at_ => text es key q t at_
  | .close t none => afterText ((key, String.ofList t.reverse) :: es)
  | .close t (some c) => stepAfterText ((key, String.ofList t.reverse) :: es) c
  | .fault => failed

def stepAfterKey (es : Entries) (key : String) (c : Char) : Scan :=
  if isBlank c then afterKey es key
  else if c = '=' then beforeText es key
  else failed

def long : Quoting → Quoting
  | .basic | .longBasic => .longBasic
  | .literal | .longLiteral => .longLiteral

def step (s : Scan) (c : Char) : Scan :=
  match s with
  | line es =>
    if isBlank c then line es
    else if c = '#' then comment es
    else if c = '\n' then line es
    else if c = '\r' then lineReturn es
    else if c = '"' then quotedKey es .basic [] .plain
    else if c = '\'' then quotedKey es .literal [] .plain
    else if isBareKeyChar c then bareKey es [c]
    else failed
  | comment es =>
    if c = '\n' then line es
    else if c = '\r' then lineReturn es
    else if isCommentChar c then comment es
    else failed
  | lineReturn es => if c = '\n' then line es else failed
  | bareKey es key =>
    if isBareKeyChar c then bareKey es (c :: key)
    else stepAfterKey es (String.ofList key.reverse) c
  | quotedKey es q t at_ =>
    match move q t at_ c with
    | .goOn t at_ => quotedKey es q t at_
    | .close t _ => afterKey es (String.ofList t.reverse)
    | .fault => failed
  | afterKey es key => stepAfterKey es key c
  | beforeText es key =>
    if isBlank c then beforeText es key
    else if c = '"' then opened es key .basic 1
    else if c = '\'' then opened es key .literal 1
    else failed
  | opened es key q count =>
    if c = q.mark then
      if count = 1 then opened es key q 2 else text es key (long q) [] .opening
    else if count = 1 then afterMove es key q (movePlain q [] c)
    else stepAfterText ((key, "") :: es) c
  | text es key q t at_ => afterMove es key q (move q t at_ c)
  | afterText es => stepAfterText es c
  | failed => failed

def finish : Scan → Option Entries
  | line es | comment es | afterText es => some es.reverse
  | opened es key _ 2 => some ((key, "") :: es).reverse
  | text es key q t (.marks count) =>
    if 3 ≤ count then
      some ((key, String.ofList (List.replicate (count - 3) q.mark ++ t).reverse) :: es).reverse
    else none
  | _ => none

end Scan

/-- The entries of a file in order; a byte order mark in front does not count. -/
def readEntries? (s : String) : Option Entries :=
  let cs := match s.toList with
    | c :: r => if c.toNat = 0xFEFF then r else c :: r
    | [] => []
  (cs.foldl Scan.step (.line [])).finish

end Swatchbook.Settings

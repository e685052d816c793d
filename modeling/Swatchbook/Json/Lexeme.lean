/-!
Strings as JSON writes them, up to the first fault. The bytes between the quotes are kept as they
stand, except that escapes are already taken apart.
-/
namespace Swatchbook.Json

inductive Flaw where
  | truncated
  | malformed
  | mismatched
deriving DecidableEq, Repr

def Flaw.message : Flaw → String
  | truncated => "the text ends too early"
  | malformed => "the text is not JSON"
  | mismatched => "the text has another shape"

/-- A byte of the text, one that a short escape stands for, or an escape of four digits. -/
inductive Glyph where
  | byte (b : UInt8)
  | code (n : Nat)
deriving DecidableEq, Repr

/-- A string up to its closing quote, or up to the fault that keeps it from being closed. -/
structure Lexeme where
  glyphs : List Glyph
  stop : Option Flaw := none
deriving DecidableEq, Repr

def isLeadingSurrogate (n : Nat) : Bool :=
  0xD800 ≤ n && n ≤ 0xDBFF

def isTrailingSurrogate (n : Nat) : Bool :=
  0xDC00 ≤ n && n ≤ 0xDFFF

def joinSurrogates (high low : Nat) : Nat :=
  0x10000 + (high - 0xD800) * 0x400 + (low - 0xDC00)

/-- The bytes a string stands for. Surrogates must come in pairs; of two faults the first counts. -/
def glyphBytes (stop : Option Flaw) : List Glyph → Except Flaw (List UInt8)
  | [] =>
    match stop with
    | none => .ok []
    | some f => .error f
  | .byte b :: r => (glyphBytes stop r).map (b :: ·)
  | [.code n] =>
    if isTrailingSurrogate n then .error .malformed
    else if isLeadingSurrogate n then .error (stop.getD .malformed)
    else (glyphBytes stop []).map (String.utf8EncodeChar (Char.ofNat n) ++ ·)
  | .code n :: .byte b :: r =>
    if isTrailingSurrogate n || isLeadingSurrogate n then .error .malformed
    else (glyphBytes stop (.byte b :: r)).map (String.utf8EncodeChar (Char.ofNat n) ++ ·)
  | .code n :: .code m :: r =>
    if isTrailingSurrogate n then .error .malformed
    else if isLeadingSurrogate n then
      if isTrailingSurrogate m then
        (glyphBytes stop r).map (String.utf8EncodeChar (Char.ofNat (joinSurrogates n m)) ++ ·)
      else .error .malformed
    else (glyphBytes stop (.code m :: r)).map (String.utf8EncodeChar (Char.ofNat n) ++ ·)

def Lexeme.text (s : Lexeme) : Except Flaw String :=
  (glyphBytes s.stop s.glyphs).bind fun bytes =>
    match String.fromUTF8? ⟨bytes.toArray⟩ with
    | some t => .ok t
    | none => .error .malformed

end Swatchbook.Json

import Swatchbook.Json.Draft

/-! The grammar of JSON texts. A text is any spelling of its value: blanks may stand
between the parts, and characters and numbers can be written in more than one way. -/
namespace Swatchbook.Json

def Blanks (bs : List UInt8) : Prop :=
  ∀ b ∈ bs, b ∈ [0x20, 0x09, 0x0A, 0x0D]

def digitByte (d : Nat) : UInt8 :=
  .ofNat (0x30 + d)

def digitsText (ds : List Nat) : List UInt8 :=
  ds.map digitByte

structure Digits (ds : List Nat) : Prop where
  nonempty : ds ≠ []
  small : ∀ d ∈ ds, d < 10

inductive FractionText : List UInt8 → List Nat → Prop where
  | none : FractionText [] []
  | some {ds : List Nat} (h : Digits ds) : FractionText (0x2E :: digitsText ds) ds

inductive ExponentText : List UInt8 → Option (Bool × List Nat) → Prop where
  | none : ExponentText [] none
  | some {mark : UInt8} {sign : List UInt8} {negative : Bool} {ds : List Nat}
      (hmark : mark ∈ [0x65, 0x45])
      (hsign : (sign, negative) ∈ [([], false), ([0x2B], false), ([0x2D], true)]) (h : Digits ds) :
      ExponentText (mark :: sign ++ digitsText ds) (some (negative, ds))

def signText (negative : Bool) : List UInt8 :=
  if negative then [0x2D] else []

/-- A number does not start with a zero unless that is all of its whole part. -/
inductive NumeralText : List UInt8 → Numeral → Prop where
  | mk {n : Numeral} {fraction exponent : List UInt8} (hwhole : Digits n.whole)
      (hzero : n.whole = [0] ∨ n.whole.head? ≠ some 0) (hfraction : FractionText fraction n.fraction)
      (hexponent : ExponentText exponent n.exponent) :
      NumeralText (signText n.negative ++ digitsText n.whole ++ fraction ++ exponent) n

/-- The bytes that a backslash and one letter stand for, by that letter. -/
def shortEscapes : List (UInt8 × UInt8) :=
  [(0x22, 0x22), (0x5C, 0x5C), (0x2F, 0x2F), (0x62, 0x08), (0x66, 0x0C), (0x6E, 0x0A), (0x72, 0x0D),
    (0x74, 0x09)]

inductive HexDigit : UInt8 → Nat → Prop where
  | decimal {d : Nat} (h : d < 10) : HexDigit (digitByte d) d
  | lower {d : Nat} (h : d < 6) : HexDigit (.ofNat (0x61 + d)) (10 + d)
  | upper {d : Nat} (h : d < 6) : HexDigit (.ofNat (0x41 + d)) (10 + d)

inductive GlyphText : List UInt8 → Glyph → Prop where
  | byte {b : UInt8} (hcontrol : 0x20 ≤ b) (hquote : b ≠ 0x22) (hslash : b ≠ 0x5C) :
      GlyphText [b] (.byte b)
  | short {letter b : UInt8} (h : (letter, b) ∈ shortEscapes) : GlyphText [0x5C, letter] (.byte b)
  | code {a b c d : UInt8} {i j k l : Nat} (ha : HexDigit a i) (hb : HexDigit b j) (hc : HexDigit c k)
      (hd : HexDigit d l) :
      GlyphText [0x5C, 0x75, a, b, c, d] (.code (16 * (16 * (16 * i + j) + k) + l))

inductive GlyphsText : List UInt8 → List Glyph → Prop where
  | nil : GlyphsText [] []
  | cons {bs rest : List UInt8} {g : Glyph} {gs : List Glyph} (h : GlyphText bs g)
      (hrest : GlyphsText rest gs) : GlyphsText (bs ++ rest) (g :: gs)

inductive StringText : List UInt8 → Lexeme → Prop where
  | mk {bs : List UInt8} {gs : List Glyph} (h : GlyphsText bs gs) :
      StringText (0x22 :: bs ++ [0x22]) ⟨gs, none⟩

mutual

inductive ValueText : List UInt8 → Draft → Prop where
  | null : ValueText [0x6E, 0x75, 0x6C, 0x6C] .null
  | true : ValueText [0x74, 0x72, 0x75, 0x65] (.bool true)
  | false : ValueText [0x66, 0x61, 0x6C, 0x73, 0x65] (.bool false)
  | number {bs : List UInt8} {n : Numeral} (h : NumeralText bs n) : ValueText bs (.number n)
  | text {bs : List UInt8} {s : Lexeme} (h : StringText bs s) : ValueText bs (.text s)
  | noItems {bs : List UInt8} (h : Blanks bs) : ValueText (0x5B :: bs ++ [0x5D]) (.array [] none)
  | array {bs : List UInt8} {items : List Draft} (h : ItemsText bs items) :
      ValueText (0x5B :: bs ++ [0x5D]) (.array items none)
  | noMembers {bs : List UInt8} (h : Blanks bs) :
      ValueText (0x7B :: bs ++ [0x7D]) (.object [] none)
  | object {bs : List UInt8} {members : List (Lexeme × Draft)} (h : MembersText bs members) :
      ValueText (0x7B :: bs ++ [0x7D]) (.object members none)

/-- A value with blanks around it; so is a whole text. -/
inductive ItemText : List UInt8 → Draft → Prop where
  | mk {before bs after : List UInt8} {d : Draft} (hbefore : Blanks before) (h : ValueText bs d)
      (hafter : Blanks after) : ItemText (before ++ bs ++ after) d

inductive ItemsText : List UInt8 → List Draft → Prop where
  | one {bs : List UInt8} {d : Draft} (h : ItemText bs d) : ItemsText bs [d]
  | cons {bs rest : List UInt8} {d : Draft} {items : List Draft} (h : ItemText bs d)
      (hrest : ItemsText rest items) : ItemsText (bs ++ 0x2C :: rest) (d :: items)

inductive MemberText : List UInt8 → Lexeme × Draft → Prop where
  | mk {before key between bs : List UInt8} {k : Lexeme} {d : Draft} (hbefore : Blanks before)
      (hkey : StringText key k) (hbetween : Blanks between) (h : ItemText bs d) :
      MemberText (before ++ key ++ between ++ 0x3A :: bs) (k, d)

inductive MembersText : List UInt8 → List (Lexeme × Draft) → Prop where
  | one {bs : List UInt8} {m : Lexeme × Draft} (h : MemberText bs m) : MembersText bs [m]
  | cons {bs rest : List UInt8} {m : Lexeme × Draft} {members : List (Lexeme × Draft)}
      (h : MemberText bs m) (hrest : MembersText rest members) :
      MembersText (bs ++ 0x2C :: rest) (m :: members)

end

end Swatchbook.Json

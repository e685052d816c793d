import Mathlib.Data.List.Basic
import Swatchbook.Json.Scan
import Swatchbook.Proofs.Json.Grammar

/-! Scanning a text gives the value that the text spells. A number has no end of its own,
so where a value has come to its end a number may still be under way, and the next byte
or the end of the text closes it. -/
namespace Swatchbook.Json

namespace State

def run (s : State) (bs : List UInt8) : State :=
  bs.foldl step s

@[simp] theorem run_nil (s : State) : s.run [] = s :=
  rfl

@[simp] theorem run_cons (s : State) (b : UInt8) (bs : List UInt8) :
    s.run (b :: bs) = (s.step b).run bs :=
  rfl

theorem run_append (s : State) (bs cs : List UInt8) : s.run (bs ++ cs) = (s.run bs).run cs :=
  List.foldl_append

theorem isSpace_of_blank {b : UInt8} (h : b ∈ [0x20, 0x09, 0x0A, 0x0D]) : isSpace b = true := by
  simp only [List.mem_cons, List.not_mem_nil, or_false] at h
  rcases h with rfl | rfl | rfl | rfl <;> rfl

/-! ### Strings -/

theorem hexDigit?_of_hexDigit {b : UInt8} {d : Nat} (h : HexDigit b d) : hexDigit? b = some d := by
  cases h with
  | @decimal d h =>
      have hall : ∀ d < 10, hexDigit? (digitByte d) = some d := by decide
      exact hall d h
  | @lower d h =>
      have hall : ∀ d < 6, hexDigit? (.ofNat (0x61 + d)) = some (10 + d) := by decide
      exact hall d h
  | @upper d h =>
      have hall : ∀ d < 6, hexDigit? (.ofNat (0x41 + d)) = some (10 + d) := by decide
      exact hall d h

theorem shortEscape?_of_mem {letter b : UInt8} (h : (letter, b) ∈ shortEscapes) :
    letter ≠ 0x75 ∧ shortEscape? letter = some b := by
  have hall : shortEscapes.all (fun e => e.1 != 0x75 && shortEscape? e.1 == some e.2) = true := rfl
  have hletter := List.all_eq_true.1 hall (letter, b) h
  rw [Bool.and_eq_true, bne_iff_ne, beq_iff_eq] at hletter
  exact hletter

theorem run_glyph {bs : List UInt8} {g : Glyph} (h : GlyphText bs g) (frames : List Frame)
    (role : Role) (glyphs : List Glyph) :
    (string frames role glyphs .none).run bs = string frames role (g :: glyphs) .none := by
  cases h with
  | @byte b hcontrol hquote hslash =>
      have hlow : ¬b < 0x20 := UInt8.not_lt.2 hcontrol
      simp [step, stepString, hquote, hslash, hlow]
  | @short letter b h =>
      obtain ⟨hcode, hshort⟩ := shortEscape?_of_mem h
      simp [step, stepString, hcode, hshort]
  | @code a b c d i j k l ha hb hc hd =>
      have hnumber : hexCode? [a, b, c, d] = some (16 * (16 * (16 * i + j) + k) + l) := by
        simp [hexCode?, hexDigit?_of_hexDigit ha, hexDigit?_of_hexDigit hb, hexDigit?_of_hexDigit hc,
          hexDigit?_of_hexDigit hd]
      simp [step, stepString, hnumber]

theorem run_glyphs {bs : List UInt8} {gs : List Glyph} (h : GlyphsText bs gs) (frames : List Frame)
    (role : Role) (glyphs : List Glyph) :
    (string frames role glyphs .none).run bs = string frames role (gs.reverse ++ glyphs) .none := by
  induction h generalizing glyphs with
  | nil => rfl
  | cons h _ ih => rw [run_append, run_glyph h, ih, List.reverse_cons, List.append_assoc]; rfl

theorem step_value {b : UInt8} (hspace : isSpace b = false) (hclose : b ≠ 0x5D) (frames : List Frame)
    (closable : Bool) : (value frames closable).step b = begin frames b := by
  simp [step, stepPlain, hspace, hclose]

theorem run_text {bs : List UInt8} {s : Lexeme} (h : StringText bs s) (frames : List Frame)
    (closable : Bool) : (value frames closable).run bs = complete frames (.text s) := by
  obtain ⟨hglyphs⟩ := h
  rw [List.cons_append, run_cons, step_value rfl (by decide)]
  change (string frames .value [] .none).run _ = _
  rw [run_append, run_glyphs hglyphs, List.append_nil]
  simp [step, stepString, finishString]

theorem run_key {bs : List UInt8} {s : Lexeme} (h : StringText bs s) (frames : List Frame)
    (before : List (Lexeme × Draft)) : (key frames before).run bs = colon frames before s := by
  obtain ⟨hglyphs⟩ := h
  rw [List.cons_append, run_cons]
  change (string frames (.key before) [] .none).run _ = _
  rw [run_append, run_glyphs hglyphs, List.append_nil]
  simp [step, stepString, finishString]

/-! ### Numbers -/

theorem isDigit_digitByte {d : Nat} (h : d < 10) : isDigit (digitByte d) = true := by
  have hall : ∀ d < 10, isDigit (digitByte d) = true := by decide
  exact hall d h

theorem digit_digitByte {d : Nat} (h : d < 10) : digit (digitByte d) = d := by
  have hall : ∀ d < 10, digit (digitByte d) = d := by decide
  exact hall d h

theorem digitByte_ne {d : Nat} (h : d < 10) (hd : d ≠ 0) : digitByte d ≠ 0x30 := by
  have hall : ∀ d < 10, d ≠ 0 → digitByte d ≠ 0x30 := by decide
  exact hall d h hd

theorem run_digits {part : List Nat → Partial}
    (hpart : ∀ b ds, isDigit b = true → stepNumber? b (part ds) = some (part (digit b :: ds)))
    {ds : List Nat} (h : ∀ d ∈ ds, d < 10) (frames : List Frame) (before : List Nat) :
    (number frames (part before)).run (digitsText ds) =
      number frames (part (ds.reverse ++ before)) := by
  induction ds generalizing before with
  | nil => rfl
  | cons d ds ih =>
      obtain ⟨hd, hds⟩ := List.forall_mem_cons.1 h
      have hstep : (number frames (part before)).step (digitByte d) =
          number frames (part (d :: before)) := by
        simp only [step, hpart _ before (isDigit_digitByte hd), digit_digitByte hd]
      change ((number frames (part before)).step (digitByte d)).run (digitsText ds) = _
      rw [hstep, ih hds, List.reverse_cons, List.append_assoc]
      rfl

/-- A number that may end here, or go on with its exponent. -/
structure Mantissa (p : Partial) (n : Numeral) : Prop where
  ends : finishNumber? p = some n
  marked : ∀ mark ∈ [(0x65 : UInt8), 0x45], stepNumber? mark p = some (.mark n)

theorem mantissa_whole (negative : Bool) {digits : List Nat} :
    Mantissa (.whole negative digits) ⟨negative, digits.reverse, [], none⟩ where
  ends := rfl
  marked mark hmark := by
    rcases List.mem_pair.1 hmark with rfl | rfl <;> rfl

theorem mantissa_zero (negative : Bool) : Mantissa (.zero negative) ⟨negative, [0], [], none⟩ where
  ends := rfl
  marked mark hmark := by
    rcases List.mem_pair.1 hmark with rfl | rfl <;> rfl

theorem mantissa_fraction (negative : Bool) (whole : List Nat) {digits : List Nat} (h : digits ≠ []) :
    Mantissa (.fraction negative whole digits) ⟨negative, whole, digits.reverse, none⟩ where
  ends := by simp [finishNumber?, h]
  marked mark hmark := by
    have hempty : digits.isEmpty = false := by simpa using h
    rcases List.mem_pair.1 hmark with rfl | rfl <;> simp [stepNumber?, isDigit, hempty]

/-- A whole part that a point may follow. -/
structure WholePart (p : Partial) (negative : Bool) (whole : List Nat) : Prop where
  mantissa : Mantissa p ⟨negative, whole, [], none⟩
  pointed : stepNumber? 0x2E p = some (.fraction negative whole [])

def firstDigit (negative : Bool) (d : Nat) : Partial :=
  if d = 0 then .zero negative else .whole negative [d]

theorem step_firstDigit {d : Nat} (h : d < 10) (frames : List Frame) (closable : Bool) :
    (value frames closable).step (digitByte d) = number frames (firstDigit false d) := by
  have hspaces : ∀ d < 10, isSpace (digitByte d) = false := by decide
  have hothers : ∀ d < 10, [(0x5D : UInt8), 0x6E, 0x74, 0x66, 0x22, 0x5B, 0x7B, 0x2D].all
      (digitByte d != ·) = true := by
    decide
  have hspace := hspaces d h
  have hother := hothers d h
  simp only [List.all_cons, Bool.and_eq_true, bne_iff_ne] at hother
  rw [step_value hspace hother.1, firstDigit]
  by_cases hd : d = 0
  · subst hd
    rfl
  · simp [begin, hother, digitByte_ne h hd, isDigit_digitByte h, digit_digitByte h, hd]

theorem step_sign {d : Nat} (h : d < 10) (frames : List Frame) :
    (number frames .sign).step (digitByte d) = number frames (firstDigit true d) := by
  rw [firstDigit]
  by_cases hd : d = 0
  · subst hd
    rfl
  · simp [step, stepNumber?, digitByte_ne h hd, isDigit_digitByte h, digit_digitByte h, hd]

theorem run_firstDigit {negative : Bool} {d : Nat} (h : d < 10) (frames : List Frame)
    (closable : Bool) : (value frames closable).run (signText negative ++ [digitByte d]) =
      number frames (firstDigit negative d) := by
  cases negative with
  | false => exact step_firstDigit h frames closable
  | true =>
      rw [run_append]
      change ((value frames closable).step 0x2D).step _ = _
      rw [step_value rfl (by decide)]
      exact step_sign h frames

theorem run_whole (negative : Bool) {whole : List Nat} (h : Digits whole)
    (hzero : whole = [0] ∨ whole.head? ≠ some 0) (frames : List Frame) (closable : Bool) :
    ∃ p, (value frames closable).run (signText negative ++ digitsText whole) = number frames p ∧
      WholePart p negative whole := by
  cases whole with
  | nil => exact absurd rfl h.nonempty
  | cons d ds =>
      obtain ⟨hd, hds⟩ := List.forall_mem_cons.1 h.small
      have hfirst : signText negative ++ digitsText (d :: ds) =
          (signText negative ++ [digitByte d]) ++ digitsText ds := by
        rw [List.append_assoc]
        rfl
      rw [hfirst, run_append, run_firstDigit hd]
      by_cases hd0 : d = 0
      · subst hd0
        obtain rfl : ds = [] := by simpa using hzero
        exact ⟨.zero negative, rfl, mantissa_zero negative, rfl⟩
      · rw [firstDigit, if_neg hd0]
        have hpart : ∀ b ds, isDigit b = true →
            stepNumber? b (.whole negative ds) = some (.whole negative (digit b :: ds)) := by
          intro b ds hb
          simp [stepNumber?, hb]
        have hwhole : (ds.reverse ++ [d]).reverse = d :: ds := by simp
        refine ⟨_, run_digits hpart hds frames [d], ?_, ?_⟩
        · rw [← hwhole]
          exact mantissa_whole negative
        · rw [← hwhole]
          rfl

theorem run_fraction {negative : Bool} {whole fraction : List Nat} {bs : List UInt8} {p : Partial}
    (hp : WholePart p negative whole) (h : FractionText bs fraction) (frames : List Frame) :
    ∃ q, (number frames p).run bs = number frames q ∧
      Mantissa q ⟨negative, whole, fraction, none⟩ := by
  cases h with
  | none => exact ⟨p, rfl, hp.mantissa⟩
  | some h =>
      have hpart : ∀ b ds, isDigit b = true →
          stepNumber? b (.fraction negative whole ds) =
            some (.fraction negative whole (digit b :: ds)) := by
        intro b ds hb
        simp [stepNumber?, hb]
      have hpoint : (number frames p).step 0x2E = number frames (.fraction negative whole []) := by
        simp only [step, hp.pointed]
      refine ⟨.fraction negative whole (fraction.reverse ++ []), ?_, ?_⟩
      · rw [run_cons, hpoint, run_digits hpart h.small]
      · rw [List.append_nil]
        have hmantissa := mantissa_fraction negative whole (List.reverse_ne_nil_iff.2 h.nonempty)
        rwa [List.reverse_reverse] at hmantissa

theorem run_exponentDigits {n : Numeral} {negative : Bool} {ds : List Nat} (h : Digits ds)
    (frames : List Frame) :
    ∃ p, (number frames (.exponent n negative [])).run (digitsText ds) = number frames p ∧
      finishNumber? p = some { n with exponent := some (negative, ds) } := by
  have hpart : ∀ b ds, isDigit b = true →
      stepNumber? b (.exponent n negative ds) = some (.exponent n negative (digit b :: ds)) := by
    intro b ds hb
    simp [stepNumber?, hb]
  refine ⟨_, run_digits hpart h.small frames [], ?_⟩
  simp [finishNumber?, h.nonempty]

theorem step_mark {n : Numeral} {d : Nat} (h : d < 10) (frames : List Frame) :
    (number frames (.mark n)).step (digitByte d) =
      (number frames (.exponent n false [])).step (digitByte d) := by
  have hall : ∀ d < 10, digitByte d ≠ 0x2B ∧ digitByte d ≠ 0x2D := by decide
  obtain ⟨hplus, hminus⟩ := hall d h
  simp [step, stepNumber?, hplus, hminus, isDigit_digitByte h]

theorem run_mark {n : Numeral} {sign : List UInt8} {negative : Bool} {ds : List Nat} (h : Digits ds)
    (hsign : (sign, negative) ∈ [([], false), ([(0x2B : UInt8)], false), ([0x2D], true)])
    (frames : List Frame) : (number frames (.mark n)).run (sign ++ digitsText ds) =
      (number frames (.exponent n negative [])).run (digitsText ds) := by
  simp only [List.mem_cons, Prod.mk.injEq, List.not_mem_nil, or_false] at hsign
  rcases hsign with ⟨rfl, rfl⟩ | ⟨rfl, rfl⟩ | ⟨rfl, rfl⟩
  · cases ds with
    | nil => exact absurd rfl h.nonempty
    | cons d ds =>
        change ((number frames (.mark n)).step (digitByte d)).run (digitsText ds) = _
        rw [step_mark (h.small d (List.mem_cons_self ..))]
        rfl
  · rfl
  · rfl

theorem run_exponent {negative : Bool} {whole fraction : List Nat} {exponent : Option (Bool × List Nat)}
    {bs : List UInt8} {p : Partial} (hp : Mantissa p ⟨negative, whole, fraction, none⟩)
    (h : ExponentText bs exponent) (frames : List Frame) :
    ∃ q, (number frames p).run bs = number frames q ∧
      finishNumber? q = some ⟨negative, whole, fraction, exponent⟩ := by
  cases h with
  | none => exact ⟨p, rfl, hp.ends⟩
  | some hmark hsign hdigits =>
      rw [List.cons_append, run_cons]
      simp only [step, hp.marked _ hmark]
      rw [run_mark hdigits hsign]
      exact run_exponentDigits hdigits frames

theorem run_number {bs : List UInt8} {n : Numeral} (h : NumeralText bs n) (frames : List Frame)
    (closable : Bool) : ∃ p, (value frames closable).run bs = number frames p ∧
      finishNumber? p = some n := by
  obtain ⟨hwhole, hzero, hfraction, hexponent⟩ := h
  obtain ⟨p, hp, hpart⟩ := run_whole n.negative hwhole hzero frames closable
  obtain ⟨q, hq, hmantissa⟩ := run_fraction hpart hfraction frames
  obtain ⟨r, hr, hends⟩ := run_exponent hmantissa hexponent frames
  exact ⟨r, by rw [run_append, run_append, hp, hq, hr], hends⟩

/-! ### Values -/

/-- A value has been read up to its end. -/
inductive AtEnd (frames : List Frame) (d : Draft) : State → Prop where
  | complete : AtEnd frames d (complete frames d)
  | number {p : Partial} {n : Numeral} (hd : d = .number n) (h : finishNumber? p = some n) :
      AtEnd frames d (number frames p)

theorem stepNumber?_eq_none {b : UInt8} (h : b ∈ [(0x20 : UInt8), 0x09, 0x0A, 0x0D, 0x2C, 0x5D, 0x7D])
    (p : Partial) : stepNumber? b p = none ∧ isDigit b = false := by
  simp only [List.mem_cons, List.not_mem_nil, or_false] at h
  rcases h with rfl | rfl | rfl | rfl | rfl | rfl | rfl <;> cases p <;> exact ⟨rfl, rfl⟩

theorem step_complete (frames : List Frame) (d : Draft) (b : UInt8) :
    (State.complete frames d).step b = (State.complete frames d).stepPlain b := by
  cases frames with
  | nil => rfl
  | cons frame frames => cases frame <;> rfl

theorem AtEnd.step {frames : List Frame} {d : Draft} {s : State} (h : AtEnd frames d s) {b : UInt8}
    (hb : b ∈ [(0x20 : UInt8), 0x09, 0x0A, 0x0D, 0x2C, 0x5D, 0x7D]) :
    s.step b = (State.complete frames d).step b := by
  cases h with
  | complete => rfl
  | @number p n hd hends =>
      subst hd
      obtain ⟨hnone, hdigit⟩ := stepNumber?_eq_none hb p
      rw [step_complete]
      simp [State.step, hnone, hends, hdigit]

theorem AtEnd.settle {frames : List Frame} {d : Draft} {s : State} (h : AtEnd frames d s) :
    s.settle = State.complete frames d := by
  cases h with
  | complete =>
      cases frames with
      | nil => rfl
      | cons frame frames => cases frame <;> rfl
  | number hd hends =>
      subst hd
      simp only [State.settle, hends]

theorem complete_step_blank {b : UInt8} (h : isSpace b = true) (frames : List Frame) (d : Draft) :
    (State.complete frames d).step b = State.complete frames d := by
  rw [step_complete]
  cases frames with
  | nil => simp [State.complete, stepPlain, h]
  | cons frame frames => cases frame <;> simp [State.complete, stepPlain, h]

theorem run_blanks {bs : List UInt8} (h : Blanks bs) {s : State}
    (hs : ∀ b, isSpace b = true → s.step b = s) : s.run bs = s := by
  induction bs with
  | nil => rfl
  | cons b bs ih =>
      obtain ⟨hb, hbs⟩ := List.forall_mem_cons.1 h
      rw [run_cons, hs b (isSpace_of_blank hb), ih hbs]

theorem AtEnd.run_blanks {frames : List Frame} {d : Draft} {s : State} (h : AtEnd frames d s)
    {bs : List UInt8} (hbs : Blanks bs) : AtEnd frames d (s.run bs) := by
  cases bs with
  | nil => exact h
  | cons b bs =>
      obtain ⟨hb, hbs⟩ := List.forall_mem_cons.1 hbs
      have hmem : b ∈ [(0x20 : UInt8), 0x09, 0x0A, 0x0D, 0x2C, 0x5D, 0x7D] :=
        List.mem_append_left [0x2C, 0x5D, 0x7D] hb
      rw [run_cons, h.step hmem, complete_step_blank (isSpace_of_blank hb),
        State.run_blanks hbs fun b hb => complete_step_blank hb frames d]
      exact .complete

theorem value_step_bracket (frames : List Frame) (closable : Bool) :
    (value frames closable).step 0x5B = value (.items [] :: frames) true :=
  step_value rfl (by decide) frames closable

theorem value_step_brace (frames : List Frame) (closable : Bool) :
    (value frames closable).step 0x7B = key frames [] :=
  step_value rfl (by decide) frames closable

theorem value_step_blank {b : UInt8} (h : isSpace b = true) (frames : List Frame) (closable : Bool) :
    (value frames closable).step b = value frames closable := by
  simp [State.step, stepPlain, h]

theorem key_step_blank {b : UInt8} (h : isSpace b = true) (frames : List Frame)
    (before : List (Lexeme × Draft)) : (key frames before).step b = key frames before := by
  simp [State.step, stepPlain, h]

theorem colon_step_blank {b : UInt8} (h : isSpace b = true) (frames : List Frame)
    (before : List (Lexeme × Draft)) (k : Lexeme) :
    (colon frames before k).step b = colon frames before k := by
  simp [State.step, stepPlain, h]

-- The recursion is on the grammar. Rows are run together with the bracket that closes them,
-- since only that byte ends a number in the last place.
mutual

theorem run_value {bs : List UInt8} {d : Draft} (frames : List Frame) (closable : Bool) :
    ValueText bs d → AtEnd frames d ((value frames closable).run bs)
  | .null => by
      rw [run_cons, step_value rfl (by decide)]
      exact .complete
  | .true => by
      rw [run_cons, step_value rfl (by decide)]
      exact .complete
  | .false => by
      rw [run_cons, step_value rfl (by decide)]
      exact .complete
  | .number h => by
      obtain ⟨p, hp, hends⟩ := run_number h frames closable
      rw [hp]
      exact .number rfl hends
  | .text h => by
      rw [run_text h]
      exact .complete
  | .noItems h => by
      rw [List.cons_append, run_cons, value_step_bracket, run_append,
        run_blanks h fun b hb => value_step_blank hb _ _]
      exact .complete
  | .array h => by
      rw [List.cons_append, run_cons, value_step_bracket, run_items frames true [] h]
      exact .complete
  | .noMembers h => by
      rw [List.cons_append, run_cons, value_step_brace, run_append,
        run_blanks h fun b hb => key_step_blank hb _ _]
      exact .complete
  | .object h => by
      rw [List.cons_append, run_cons, value_step_brace, run_members frames [] h]
      exact .complete

theorem run_item {bs : List UInt8} {d : Draft} (frames : List Frame) (closable : Bool) :
    ItemText bs d → AtEnd frames d ((value frames closable).run bs)
  | .mk hbefore h hafter => by
      rw [run_append, run_append, run_blanks hbefore fun b hb => value_step_blank hb _ _]
      exact (run_value frames closable h).run_blanks hafter

theorem run_items {bs : List UInt8} {items : List Draft} (frames : List Frame) (closable : Bool)
    (before : List Draft) : ItemsText bs items →
      (value (.items before :: frames) closable).run (bs ++ [0x5D]) =
        State.complete frames (.array (before.reverse ++ items) none)
  | .one h => by
      rw [run_append]
      change State.step _ _ = _
      rw [(run_item _ closable h).step (by decide)]
      simp [State.complete, State.step, stepPlain, isSpace]
  | .cons (d := d) h hrest => by
      rw [List.append_assoc, run_append, List.cons_append, run_cons,
        (run_item _ closable h).step (by decide)]
      change (value (.items (d :: before) :: frames) false).run _ = _
      rw [run_items frames false (d :: before) hrest, List.reverse_cons, List.append_assoc]
      rfl

theorem run_member {bs : List UInt8} {m : Lexeme × Draft} (frames : List Frame)
    (before : List (Lexeme × Draft)) : MemberText bs m →
      AtEnd (.members before m.1 :: frames) m.2 ((key frames before).run bs)
  | .mk (k := k) hbefore hkey hbetween h => by
      rw [run_append, run_append, run_append, run_blanks hbefore fun b hb => key_step_blank hb _ _,
        run_key hkey, run_blanks hbetween fun b hb => colon_step_blank hb _ _ _, run_cons]
      exact run_item (.members before k :: frames) false h

theorem run_members {bs : List UInt8} {members : List (Lexeme × Draft)} (frames : List Frame)
    (before : List (Lexeme × Draft)) : MembersText bs members →
      (key frames before).run (bs ++ [0x7D]) =
        State.complete frames (.object (before.reverse ++ members) none)
  | .one h => by
      rw [run_append]
      change State.step _ _ = _
      rw [(run_member frames before h).step (by decide)]
      simp [State.complete, State.step, stepPlain, isSpace]
  | .cons (m := m) h hrest => by
      rw [List.append_assoc, run_append, List.cons_append, run_cons,
        (run_member frames before h).step (by decide)]
      change (key frames (m :: before)).run _ = _
      rw [run_members frames (m :: before) hrest, List.reverse_cons, List.append_assoc]
      rfl

end

end State

/-- A text is read as the value that it spells, and nothing stands after it. -/
theorem scan_eq_of_itemText {bs : List UInt8} {d : Draft} (h : ItemText bs d) :
    scan bs = ⟨d, false⟩ := by
  change ((State.value [] false).run bs).settle.finishSettled = _
  rw [(State.run_item [] false h).settle]
  rfl

end Swatchbook.Json

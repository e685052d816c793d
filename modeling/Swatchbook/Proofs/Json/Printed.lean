import Mathlib.Data.List.Forall2
import Swatchbook.Json.Printer
import Swatchbook.Proofs.Json.Scanning

/-! A printed document is a text that spells it: every string comes back from its
escapes, and the blanks of the indented form stand where blanks may stand. -/
namespace Swatchbook.Json

def utf8 (cs : List Char) : List UInt8 :=
  cs.flatMap String.utf8EncodeChar

@[simp] theorem utf8_nil : utf8 [] = [] :=
  rfl

@[simp] theorem utf8_append (cs ds : List Char) : utf8 (cs ++ ds) = utf8 cs ++ utf8 ds :=
  List.flatMap_append

theorem utf8_cons (c : Char) (cs : List Char) :
    utf8 (c :: cs) = String.utf8EncodeChar c ++ utf8 cs :=
  List.flatMap_cons

theorem toList_loop (bs : ByteArray) (i : Nat) (r : List UInt8) :
    ByteArray.toList.loop bs i r = r.reverse ++ bs.data.toList.drop i := by
  fun_induction ByteArray.toList.loop bs i r with
  | case1 i r h ih =>
      have hi : i < bs.data.toList.length := h
      have hbyte : bs.get! i = bs.data.toList[i] := getElem!_pos bs.data i h
      rw [ih, List.reverse_cons, List.append_assoc, List.drop_eq_getElem_cons hi, hbyte]
      rfl
  | case2 i r h =>
      have hi : bs.data.toList.length ≤ i := Nat.le_of_not_lt h
      rw [List.drop_eq_nil_of_le hi, List.append_nil]

theorem toList_toUTF8 (s : String) : s.toUTF8.toList = utf8 s.toList := by
  rw [ByteArray.toList, toList_loop, List.reverse_nil, List.nil_append, List.drop_zero]
  change s.toByteArray.data.toList = _
  rw [← String.utf8Encode_toList, List.utf8Encode, List.data_toByteArray]
  rfl

/-! ### Strings -/

/-- How a character stands inside a printed string: as one code if it is a control
character without a short escape. -/
def charGlyphs (c : Char) : List Glyph :=
  if c.toNat < 0x20 ∧ c ∉ ['\n', '\r', '\t', '\x08', '\x0c'] then [.code c.toNat]
  else (String.utf8EncodeChar c).map .byte

def lexeme (s : String) : Lexeme :=
  ⟨s.toList.flatMap charGlyphs, none⟩

theorem GlyphText.single {bs : List UInt8} {g : Glyph} (h : GlyphText bs g) : GlyphsText bs [g] := by
  have hcons := GlyphsText.cons h .nil
  rwa [List.append_nil] at hcons

theorem GlyphsText.append {bs cs : List UInt8} {gs hs : List Glyph} (h : GlyphsText bs gs)
    (h' : GlyphsText cs hs) : GlyphsText (bs ++ cs) (gs ++ hs) := by
  induction h with
  | nil => exact h'
  | cons hg _ ih =>
      rw [List.append_assoc]
      exact .cons hg ih

theorem glyphsText_bytes {bs : List UInt8} (h : ∀ b ∈ bs, 0x20 ≤ b ∧ b ≠ 0x22 ∧ b ≠ 0x5C) :
    GlyphsText bs (bs.map .byte) := by
  induction bs with
  | nil => exact .nil
  | cons b bs ih =>
      obtain ⟨⟨hcontrol, hquote, hslash⟩, hbs⟩ := List.forall_mem_cons.1 h
      exact .cons (.byte hcontrol hquote hslash) (ih hbs)

theorem utf8EncodeChar_of_le {c : Char} (h : c.toNat ≤ 0x7F) :
    String.utf8EncodeChar c = [.ofNat c.toNat] := by
  simp only [String.utf8EncodeChar]
  exact if_pos h

theorem utf8_cons_of_le {c : Char} (h : c.toNat ≤ 0x7F) (cs : List Char) :
    utf8 (c :: cs) = .ofNat c.toNat :: utf8 cs := by
  rw [utf8_cons, utf8EncodeChar_of_le h]
  rfl

theorem le_of_mem_utf8EncodeChar {c : Char} (h : 0x7F < c.toNat) :
    ∀ b ∈ String.utf8EncodeChar c, 0x80 ≤ b := by
  have hlarge : ∀ n, 0x80 ≤ n → n < 0x100 → (0x80 : UInt8) ≤ .ofNat n := by
    intro n hn hn'
    rw [UInt8.le_iff_toNat_le, UInt8.toNat_ofNat_of_lt' hn']
    exact hn
  have hval : ¬c.val.toNat ≤ 0x7F := Nat.not_le.2 h
  intro b hb
  simp only [String.utf8EncodeChar] at hb
  rw [if_neg hval] at hb
  split at hb
  · simp only [List.mem_cons, List.not_mem_nil, or_false] at hb
    rcases hb with rfl | rfl <;> exact hlarge _ (by omega) (by omega)
  · split at hb
    · simp only [List.mem_cons, List.not_mem_nil, or_false] at hb
      rcases hb with rfl | rfl | rfl <;> exact hlarge _ (by omega) (by omega)
    · simp only [List.mem_cons, List.not_mem_nil, or_false] at hb
      rcases hb with rfl | rfl | rfl | rfl <;> exact hlarge _ (by omega) (by omega)

theorem ofNat_ne {m n : Nat} (hm : m < 0x100) (hn : n < 0x100) (h : m ≠ n) :
    UInt8.ofNat m ≠ .ofNat n := by
  intro heq
  have htoNat := congrArg UInt8.toNat heq
  rw [UInt8.toNat_ofNat_of_lt' hm, UInt8.toNat_ofNat_of_lt' hn] at htoNat
  exact h htoNat

theorem toNat_ne {c d : Char} (h : c ≠ d) : c.toNat ≠ d.toNat :=
  fun heq => h (by rw [← Char.ofNat_toNat c, heq, Char.ofNat_toNat])

theorem glyphsText_utf8EncodeChar {c : Char} (hcontrol : 0x20 ≤ c.toNat) (hquote : c ≠ '"')
    (hslash : c ≠ '\\') :
    GlyphsText (String.utf8EncodeChar c) ((String.utf8EncodeChar c).map .byte) := by
  apply glyphsText_bytes
  by_cases hc : c.toNat ≤ 0x7F
  · have hlt : c.toNat < 0x100 := by omega
    rw [utf8EncodeChar_of_le hc, List.forall_mem_singleton]
    refine ⟨?_, ofNat_ne hlt (by decide) (toNat_ne hquote), ofNat_ne hlt (by decide) (toNat_ne hslash)⟩
    rw [UInt8.le_iff_toNat_le, UInt8.toNat_ofNat_of_lt' hlt]
    exact hcontrol
  · have hall : ∀ b : UInt8, 0x80 ≤ b → 0x20 ≤ b ∧ b ≠ 0x22 ∧ b ≠ 0x5C := by
      intro b hb
      refine ⟨UInt8.le_trans (by decide) hb, ?_, ?_⟩ <;>
      · rintro rfl
        revert hb
        decide
    exact fun b hb => hall b (le_of_mem_utf8EncodeChar (Nat.lt_of_not_le hc) b hb)

theorem hexDigit_digitChar {d : Nat} (h : d < 16) :
    ∃ b, String.utf8EncodeChar (Nat.digitChar d) = [b] ∧ HexDigit b d := by
  by_cases hd : d < 10
  · have hall : ∀ d < 10, String.utf8EncodeChar (Nat.digitChar d) = [digitByte d] := by decide
    exact ⟨digitByte d, hall d hd, .decimal hd⟩
  · obtain ⟨e, rfl⟩ := Nat.exists_eq_add_of_le (Nat.le_of_not_lt hd)
    have hall : ∀ e < 6, String.utf8EncodeChar (Nat.digitChar (10 + e)) = [.ofNat (0x61 + e)] := by
      decide
    exact ⟨.ofNat (0x61 + e), hall e (by omega), .lower (by omega)⟩

theorem glyphText_code {n : Nat} (h : n < 0x20) : GlyphText
    (utf8 ['\\', 'u', '0', '0', Nat.digitChar (n / 16), Nat.digitChar (n % 16)]) (.code n) := by
  obtain ⟨b, hb, hhigh⟩ := hexDigit_digitChar (d := n / 16) (by omega)
  obtain ⟨c, hc, hlow⟩ := hexDigit_digitChar (d := n % 16) (by omega)
  have hzero : HexDigit 0x30 0 := .decimal (by decide : 0 < 10)
  have hcode := GlyphText.code hzero hzero hhigh hlow
  rw [show 16 * (16 * (16 * 0 + 0) + n / 16) + n % 16 = n by omega] at hcode
  simp only [utf8_cons, utf8_nil, hb, hc]
  exact hcode

theorem glyphsText_of_short : ∀ c ∈ ['"', '\\', '\n', '\r', '\t', '\x08', '\x0c'],
    GlyphsText (utf8 (escapeChar c)) (charGlyphs c) := by
  simp only [List.forall_mem_cons]
  refine ⟨?_, ?_, ?_, ?_, ?_, ?_, ?_, nofun⟩ <;> exact (GlyphText.short (by decide)).single

theorem glyphsText_escapeChar (c : Char) : GlyphsText (utf8 (escapeChar c)) (charGlyphs c) := by
  by_cases hshort : c ∈ ['"', '\\', '\n', '\r', '\t', '\x08', '\x0c']
  · exact glyphsText_of_short c hshort
  · simp only [List.mem_cons, List.not_mem_nil, or_false, not_or] at hshort
    obtain ⟨hquote, hslash, hn, hr, ht, hb, hf⟩ := hshort
    rw [escapeChar, if_neg hquote, if_neg hslash, if_neg hn, if_neg hr, if_neg ht, if_neg hb,
      if_neg hf]
    by_cases hcontrol : c.toNat < 0x20
    · rw [if_pos hcontrol, charGlyphs, if_pos ⟨hcontrol, by simp [hn, hr, ht, hb, hf]⟩]
      exact (glyphText_code hcontrol).single
    · rw [if_neg hcontrol, charGlyphs, if_neg fun h => hcontrol h.1, utf8_cons, utf8_nil,
        List.append_nil]
      exact glyphsText_utf8EncodeChar (Nat.le_of_not_lt hcontrol) hquote hslash

theorem glyphsText_flatMap (cs : List Char) :
    GlyphsText (utf8 (cs.flatMap escapeChar)) (cs.flatMap charGlyphs) := by
  induction cs with
  | nil => exact .nil
  | cons c cs ih =>
      rw [List.flatMap_cons, List.flatMap_cons, utf8_append]
      exact (glyphsText_escapeChar c).append ih

theorem stringText_quoted (s : String) : StringText (utf8 (quoted s)) (lexeme s) := by
  have htext := StringText.mk (glyphsText_flatMap s.toList)
  rw [quoted, utf8_append, utf8_cons]
  exact htext

theorem glyphBytes_bytes (bs : List UInt8) (gs : List Glyph) :
    glyphBytes none (bs.map .byte ++ gs) = (glyphBytes none gs).map (bs ++ ·) := by
  induction bs with
  | nil => cases h : glyphBytes none gs <;> simp [h, Except.map]
  | cons b bs ih =>
      rw [List.map_cons, List.cons_append, glyphBytes, ih]
      cases glyphBytes none gs <;> rfl

theorem glyphBytes_code {n : Nat} (h : n < 0x20) (gs : List Glyph) :
    glyphBytes none (.code n :: gs) =
      (glyphBytes none gs).map (String.utf8EncodeChar (Char.ofNat n) ++ ·) := by
  have hlead : isLeadingSurrogate n = false := by
    simp only [isLeadingSurrogate, Bool.and_eq_false_iff, decide_eq_false_iff_not]
    omega
  have htrail : isTrailingSurrogate n = false := by
    simp only [isTrailingSurrogate, Bool.and_eq_false_iff, decide_eq_false_iff_not]
    omega
  match gs with
  | [] | .byte b :: gs | .code m :: gs => simp [glyphBytes, hlead, htrail]

theorem glyphBytes_charGlyphs (c : Char) (gs : List Glyph) :
    glyphBytes none (charGlyphs c ++ gs) =
      (glyphBytes none gs).map (String.utf8EncodeChar c ++ ·) := by
  unfold charGlyphs
  split
  · rename_i h
    have hcode := glyphBytes_code h.1 gs
    rwa [Char.ofNat_toNat] at hcode
  · exact glyphBytes_bytes _ gs

theorem glyphBytes_flatMap (cs : List Char) :
    glyphBytes none (cs.flatMap charGlyphs) = .ok (utf8 cs) := by
  induction cs with
  | nil => rfl
  | cons c cs ih =>
      rw [List.flatMap_cons, glyphBytes_charGlyphs, ih]
      rfl

theorem fromUTF8?_utf8 (s : String) : String.fromUTF8? ⟨(utf8 s.toList).toArray⟩ = some s := by
  have hbytes : (⟨(utf8 s.toList).toArray⟩ : ByteArray) = s.toByteArray := by
    rw [← String.utf8Encode_toList, List.utf8Encode]
    exact ByteArray.ext List.data_toByteArray.symm
  rw [hbytes, String.fromUTF8?, dif_pos s.isValidUTF8]
  rfl

theorem text_lexeme (s : String) : (lexeme s).text = .ok s := by
  change (glyphBytes none (s.toList.flatMap charGlyphs)).bind _ = _
  rw [glyphBytes_flatMap]
  simp only [Except.bind, fromUTF8?_utf8]

/-! ### Documents -/

namespace Printable

mutual

def draft : Printable → Draft
  | .text s => .text (lexeme s)
  | .array items => .array (draftItems items) none
  | .object members => .object (draftMembers members) none

def draftItems : List Printable → List Draft
  | [] => []
  | v :: r => v.draft :: draftItems r

def draftMembers : List (String × Printable) → List (Lexeme × Draft)
  | [] => []
  | (k, v) :: r => (lexeme k, v.draft) :: draftMembers r

end

end Printable

theorem blanks_nil : Blanks [] :=
  nofun

theorem blanks_space : Blanks [0x20] :=
  List.forall_mem_singleton.2 (by decide)

theorem ItemText.bare {bs : List UInt8} {d : Draft} (h : ValueText bs d) : ItemText bs d := by
  have hitem := ItemText.mk blanks_nil h blanks_nil
  rwa [List.nil_append, List.append_nil] at hitem

theorem MemberText.close {before key bs : List UInt8} {k : Lexeme} {d : Draft} (hbefore : Blanks before)
    (hkey : StringText key k) (h : ItemText bs d) :
    MemberText (before ++ key ++ 0x3A :: bs) (k, d) := by
  have hmember := MemberText.mk hbefore hkey blanks_nil h
  rwa [List.append_nil] at hmember

theorem blanks_newline (level : Nat) : Blanks (utf8 (Printable.newline level)) := by
  intro b hb
  rw [Printable.newline, utf8_cons] at hb
  rcases List.mem_append.1 hb with hb | hb
  · rw [List.mem_singleton.1 hb]
    decide
  · obtain ⟨c, hc, hb⟩ := List.mem_flatMap.1 hb
    rw [List.eq_of_mem_replicate hc] at hb
    rw [List.mem_singleton.1 hb]
    decide

namespace Printable

mutual

theorem valueText_compact : (v : Printable) → ValueText (utf8 v.compact) v.draft
  | .text s => .text (stringText_quoted s)
  | .array [] => .noItems blanks_nil
  | .array (v :: r) => by
      have hitems := itemsText_compact (v :: r) (List.cons_ne_nil _ _)
      rw [compact, utf8_append, utf8_cons]
      exact .array hitems
  | .object [] => .noMembers blanks_nil
  | .object (m :: r) => by
      have hmembers := membersText_compact (m :: r) (List.cons_ne_nil _ _)
      rw [compact, utf8_append, utf8_cons]
      exact .object hmembers

theorem itemsText_compact : (items : List Printable) → items ≠ [] →
    ItemsText (utf8 (compactItems items)) (draftItems items)
  | [], h => absurd rfl h
  | [v], _ => .one (.bare (valueText_compact v))
  | v :: w :: r, _ => by
      have hrest := itemsText_compact (w :: r) (List.cons_ne_nil _ _)
      rw [compactItems, utf8_append, utf8_cons]
      exact .cons (.bare (valueText_compact v)) hrest

theorem membersText_compact : (members : List (String × Printable)) → members ≠ [] →
    MembersText (utf8 (compactMembers members)) (draftMembers members)
  | [], h => absurd rfl h
  | [(k, v)], _ => by
      have hmember := MemberText.close blanks_nil (stringText_quoted k) (.bare (valueText_compact v))
      have hmembers := MembersText.one hmember
      simpa (disch := decide) [compactMembers, draftMembers, utf8_cons_of_le] using hmembers
  | (k, v) :: w :: r, _ => by
      have hmember := MemberText.close blanks_nil (stringText_quoted k) (.bare (valueText_compact v))
      have hrest := membersText_compact (w :: r) (List.cons_ne_nil _ _)
      have hmembers := MembersText.cons hmember hrest
      simpa (disch := decide) [compactMembers, draftMembers, utf8_cons_of_le] using hmembers

end

mutual

theorem valueText_pretty (level : Nat) : (v : Printable) → ValueText (utf8 (v.pretty level)) v.draft
  | .text s => .text (stringText_quoted s)
  | .array [] => .noItems blanks_nil
  | .array (v :: r) => by
      have hitems := itemsText_pretty (level + 1) (blanks_newline level) (v :: r) (List.cons_ne_nil _ _)
      have harray := ValueText.array hitems
      simpa (disch := decide) [pretty, draft, utf8_cons_of_le] using harray
  | .object [] => .noMembers blanks_nil
  | .object (m :: r) => by
      have hmembers :=
        membersText_pretty (level + 1) (blanks_newline level) (m :: r) (List.cons_ne_nil _ _)
      have hobject := ValueText.object hmembers
      simpa (disch := decide) [pretty, draft, utf8_cons_of_le] using hobject

theorem itemsText_pretty (level : Nat) {after : List UInt8} (hafter : Blanks after) :
    (items : List Printable) → items ≠ [] →
      ItemsText (utf8 (prettyItems level items) ++ after) (draftItems items)
  | [], h => absurd rfl h
  | [v], _ => by
      rw [prettyItems, utf8_append]
      exact .one (.mk (blanks_newline level) (valueText_pretty level v) hafter)
  | v :: w :: r, _ => by
      have hitem := ItemText.mk (blanks_newline level) (valueText_pretty level v) blanks_nil
      have hrest := itemsText_pretty level hafter (w :: r) (List.cons_ne_nil _ _)
      have hitems := ItemsText.cons hitem hrest
      simpa (disch := decide) [prettyItems, draftItems, utf8_cons_of_le] using hitems

theorem membersText_pretty (level : Nat) {after : List UInt8} (hafter : Blanks after) :
    (members : List (String × Printable)) → members ≠ [] →
      MembersText (utf8 (prettyMembers level members) ++ after) (draftMembers members)
  | [], h => absurd rfl h
  | [(k, v)], _ => by
      have hitem := ItemText.mk blanks_space (valueText_pretty level v) hafter
      have hmember := MemberText.close (blanks_newline level) (stringText_quoted k) hitem
      have hmembers := MembersText.one hmember
      simpa (disch := decide) [prettyMembers, draftMembers, utf8_cons_of_le] using hmembers
  | (k, v) :: w :: r, _ => by
      have hitem := ItemText.mk blanks_space (valueText_pretty level v) blanks_nil
      have hmember := MemberText.close (blanks_newline level) (stringText_quoted k) hitem
      have hrest := membersText_pretty level hafter (w :: r) (List.cons_ne_nil _ _)
      have hmembers := MembersText.cons hmember hrest
      simpa (disch := decide) [prettyMembers, draftMembers, utf8_cons_of_le] using hmembers

end

end Printable

end Swatchbook.Json

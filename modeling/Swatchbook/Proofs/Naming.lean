import Swatchbook.Naming
import Swatchbook.Proofs.Source.Legal
import Swatchbook.Proofs.Text.UpperCase
import Swatchbook.ThemeFile.TokenSet

/-! The form of identifiers that are made from names: capitals, digits and underscores, no
digit in front. Every letter of the name is kept as a capital, and it makes no difference
whether the words of the name have been put in upper case before. -/
namespace Swatchbook

namespace Text

theorem flatMap_join (f : Char → List Char) (sep : List Char) (ps : List (List Char)) :
    (join sep ps).flatMap f = join (sep.flatMap f) (ps.map fun p => p.flatMap f) := by
  induction ps with
  | nil => rfl
  | cons p ps ih =>
      cases ps with
      | nil => rfl
      | cons q ps =>
          rw [join, List.flatMap_append, List.flatMap_append, ih]
          rfl

end Text

def IsCapitalPart (c : Char) : Prop :=
  c.isUpper = true ∨ c.isDigit = true ∨ c = '_'

theorem IsCapitalPart.isIdentifierPart {c : Char} (h : IsCapitalPart c) :
    isIdentifierPart c = true := by
  rcases h with h | h | rfl
  · exact isIdentifierPart_of_isAlpha (isAlpha_iff.2 (.inl h))
  · rw [Swatchbook.isIdentifierPart, Char.isAlphanum, h, Bool.or_true, Bool.true_or]
  · rfl

theorem isUpper_toUpper_of_isAlpha {c : Char} (h : c.isAlpha = true) : c.toUpper.isUpper = true :=
  forall_ascii (P := fun c => c.isAlpha = true → c.toUpper.isUpper = true) (by decide) c
    (toNat_of_part (isIdentifierPart_of_isAlpha h)) h

namespace Naming

theorem isCapitalPart_identifierChar (c : Char) : IsCapitalPart (identifierChar c) := by
  unfold identifierChar
  split
  · rename_i h
    rw [Bool.or_eq_true] at h
    exact h.imp_right .inl
  · exact .inr (.inr rfl)

theorem toList_identifier (name : String) :
    (identifier name).toList = match (name.toList.flatMap Text.upper).map identifierChar with
      | [] => ['_']
      | c :: r => if c.isDigit then '_' :: c :: r else c :: r :=
  String.toList_ofList

theorem identifier_spelled (name : String) :
    ∃ c r, (identifier name).toList = c :: r ∧ (c.isUpper = true ∨ c = '_') ∧
      ∀ d ∈ r, IsCapitalPart d := by
  rw [toList_identifier]
  have hparts : ∀ c ∈ (name.toList.flatMap Text.upper).map identifierChar, IsCapitalPart c := by
    intro c hc
    obtain ⟨d, -, rfl⟩ := List.mem_map.1 hc
    exact isCapitalPart_identifierChar d
  cases hcs : (name.toList.flatMap Text.upper).map identifierChar with
  | nil => exact ⟨'_', [], rfl, .inr rfl, nofun⟩
  | cons c r =>
      rw [hcs, List.forall_mem_cons] at hparts
      cases hdigit : c.isDigit with
      | true => exact ⟨'_', c :: r, by simp [hdigit], .inr rfl, List.forall_mem_cons.2 hparts⟩
      | false =>
          refine ⟨c, r, by simp [hdigit], ?_, hparts.2⟩
          exact hparts.1.imp_right fun h => h.resolve_left (by rw [hdigit]; nofun)

theorem isCapitalPart_of_mem_identifier {name : String} {c : Char}
    (h : c ∈ (identifier name).toList) : IsCapitalPart c := by
  obtain ⟨d, r, hspelled, hd, hr⟩ := identifier_spelled name
  rw [hspelled] at h
  rcases List.mem_cons.1 h with rfl | h
  · exact hd.imp_right .inr
  · exact hr c h

theorem toUpper_mem_identifier {name : String} {c : Char} (hc : c ∈ name.toList)
    (hletter : c.isAlpha = true) : c.toUpper ∈ (identifier name).toList := by
  have hupper : Text.upper c = [c.toUpper] := by
    rw [Text.upper, if_pos (toNat_of_part (isIdentifierPart_of_isAlpha hletter))]
  have hkept : identifierChar c.toUpper = c.toUpper := by
    rw [identifierChar, isUpper_toUpper_of_isAlpha hletter, Bool.true_or, if_pos rfl]
  have hmem : c.toUpper ∈ (name.toList.flatMap Text.upper).map identifierChar := by
    refine List.mem_map.2 ⟨c.toUpper, List.mem_flatMap.2 ⟨c, hc, ?_⟩, hkept⟩
    rw [hupper]
    exact List.mem_singleton_self _
  rw [toList_identifier]
  revert hmem
  cases (name.toList.flatMap Text.upper).map identifierChar with
  | nil => exact fun hmem => absurd hmem List.not_mem_nil
  | cons d r =>
      intro hmem
      dsimp only
      split
      · exact List.mem_cons_of_mem _ hmem
      · exact hmem

theorem isIdentifier_identifier {name : String} {c : Char} (hc : c ∈ name.toList)
    (hletter : c.isAlpha = true) : isIdentifier (identifier name) = true := by
  obtain ⟨d, r, hspelled, hd, hr⟩ := identifier_spelled name
  have hstart : isIdentifierStart d = true := by
    rw [isIdentifierStart, Bool.or_eq_true, isAlpha_iff, beq_iff_eq]
    exact hd.imp_left .inl
  have hrest : r.all isIdentifierPart = true :=
    List.all_eq_true.2 fun x hx => (hr x hx).isIdentifierPart
  have hne : identifier name ≠ "_" := by
    intro heq
    have hmem := toUpper_mem_identifier hc hletter
    have hupper := isUpper_toUpper_of_isAlpha hletter
    rw [heq] at hmem
    rw [List.mem_singleton.1 hmem] at hupper
    exact absurd hupper (by decide)
  simp only [isIdentifier, hspelled, hstart, hrest, Bool.and_self, Bool.true_and]
  exact bne_iff_ne.2 hne

def written (c : Char) : List Char :=
  (Text.upper c).map identifierChar

theorem identifier_congr {name name' : String}
    (h : name.toList.flatMap written = name'.toList.flatMap written) :
    identifier name = identifier name' := by
  unfold written at h
  rw [← List.map_flatMap, ← List.map_flatMap] at h
  unfold identifier
  rw [h]

theorem flatMap_written_capitalize (w : List Char) :
    (Text.capitalize w).flatMap written = w.flatMap written := by
  cases w with
  | nil => rfl
  | cons c r =>
      have hupper : (Text.upper c).flatMap written = written c := by
        unfold written
        rw [← List.map_flatMap, Text.flatMap_upper_upper]
      rw [Text.capitalize, List.flatMap_append, List.flatMap_cons, hupper]

theorem identifier_displayName (name : String) : identifier (displayName name) = identifier name := by
  apply identifier_congr
  have hsep : [' '].flatMap written = ['-'].flatMap written := by decide
  rw [displayName, String.toList_ofList, Text.flatMap_join, List.map_map, hsep]
  have hwords : ((fun p => p.flatMap written) ∘ Text.capitalize) = fun p => p.flatMap written := by
    funext w
    exact flatMap_written_capitalize w
  rw [hwords, ← Text.flatMap_join, Text.join_pieces]

theorem written_of_isCapitalPart {c : Char} (h : IsCapitalPart c) : written c = [c] := by
  have hascii := toNat_of_part h.isIdentifierPart
  have hkept : c.toUpper = c ∧ identifierChar c = c :=
    forall_ascii (P := fun c => c.isUpper = true ∨ c.isDigit = true ∨ c = '_' →
      c.toUpper = c ∧ identifierChar c = c) (by decide) c hascii h
  rw [written, Text.upper, if_pos hascii, hkept.1, List.map_singleton, hkept.2]

theorem identifier_identifier (name : String) : identifier (identifier name) = identifier name := by
  obtain ⟨c, r, hspelled, hc, hr⟩ := identifier_spelled name
  have hparts : ∀ d ∈ c :: r, written d = [d] := by
    intro d hd
    apply written_of_isCapitalPart
    exact isCapitalPart_of_mem_identifier (hspelled ▸ hd)
  have hwritten : ((c :: r).flatMap Text.upper).map identifierChar = c :: r := by
    rw [List.map_flatMap]
    exact Text.flatMap_eq_self hparts
  have hascii : c.toNat < 0x80 := toNat_of_part (IsCapitalPart.isIdentifierPart (hc.imp_right .inr))
  have hdigit : c.isDigit = false :=
    forall_ascii (P := fun c => c.isUpper = true ∨ c = '_' → c.isDigit = false) (by decide) c hascii hc
  rw [← String.toList_inj, toList_identifier, hspelled, hwritten]
  simp [hdigit]

/-- A text that starts with a capital or an underscore and goes on with capitals, digits and
underscores. -/
def IsCapitalName (s : String) : Prop :=
  ∃ c r, s.toList = c :: r ∧ (c.isUpper = true ∨ c = '_') ∧ ∀ d ∈ r, IsCapitalPart d

/-- A theme has the same identifier whether it is derived from a stem or from the name that is
shown for the stem. So a declaration with nothing but its key, or nothing but its id, stands for
the theme of a file with that stem. -/
theorem identifier_derivations_agree (stem : String) (index : Nat) :
    identifier (displayName stem) = identifier stem ∧
      identifier (identifier stem) = identifier stem ∧ IsCapitalName (identifier stem) ∧
      TokenSet.declareKeyed stem ⟨none, none, none⟩ = ⟨displayName stem, identifier stem⟩ ∧
      TokenSet.declareListed index [⟨none, none, some stem⟩] =
        .ok [⟨displayName stem, identifier stem⟩] := by
  have hderived : TokenSet.declare (displayName stem) none = ⟨displayName stem, identifier stem⟩ :=
    congrArg (DeclaredTheme.mk _) (identifier_displayName stem)
  refine ⟨identifier_displayName stem, identifier_identifier stem, identifier_spelled stem, hderived,
    ?_⟩
  exact congrArg (fun d => Except.ok [d]) hderived

example : identifier (displayName "1st-ŉ--ﬃ") = "_1ST__N__FFI" := by decide +kernel

end Naming

end Swatchbook

import Swatchbook.Proofs.Dict
import Swatchbook.Proofs.Json.Printed
import Swatchbook.Proofs.ThemeFile.Record
import Swatchbook.ThemeFile.Flat

/-! The record of a theme, printed in either form, is read as that theme. -/
namespace Swatchbook

open Json (Draft Lexeme lexeme utf8 text_lexeme)

namespace Json.Printable

theorem asText_draft (s : String) : (Printable.text s).draft.asText = .ok s :=
  text_lexeme s

theorem orNull_draft (s : String) : (Printable.text s).draft.orNull Draft.asText = .ok (some s) := by
  change (lexeme s).text.map some = _
  rw [text_lexeme]
  rfl

theorem textMembers_draftMembers (es : List (String × String)) :
    textMembers (draftMembers (es.map fun e => (e.1, .text e.2))) = .ok es := by
  induction es with
  | nil => rfl
  | cons e es ih =>
      rw [List.map_cons, draftMembers, textMembers, text_lexeme, asText_draft, ih]
      rfl

theorem asTexts_draft (d : Dict String) :
    (Printable.object (d.entries.map fun e => (e.1, .text e.2))).draft.asTexts = .ok d.entries := by
  rw [draft, Draft.asTexts, textMembers_draftMembers]
  rfl

theorem draftMembers_cons {φ σ : Type} {sh : Shape φ Draft Flaw σ} {s s' : σ} {k : String} {f : φ}
    {v : Printable} (hnamed : sh.named k = some f) (hgiven : sh.given s f = false)
    (hread : sh.read s f v.draft = .ok s') (members : List (String × Printable)) :
    sh.draftMembers s (draftMembers ((k, v) :: members)) =
      sh.draftMembers s' (draftMembers members) := by
  rw [draftMembers, Shape.draftMembers, text_lexeme]
  simp only [bind, Except.bind, hnamed, hgiven, hread]
  rfl

end Json.Printable

namespace Theme

open Json.Printable (asText_draft orNull_draft asTexts_draft draftMembers_cons)

theorem fromDraft_toPrintable (t : Theme) : shape.fromDraft {} t.toPrintable.draft =
    .ok ⟨some t.displayName, some t.identifier, some t.colors, t.source.map some⟩ := by
  obtain ⟨displayName, identifier, colors, source⟩ := t
  have hname : shape.read {} .displayName (Json.Printable.text displayName).draft =
      .ok ⟨some displayName, none, none, none⟩ := by
    simp only [shape, asText_draft, Except.map]
  have hidentifier : shape.read ⟨some displayName, none, none, none⟩ .identifier
      (Json.Printable.text identifier).draft = .ok ⟨some displayName, some identifier, none, none⟩ := by
    simp only [shape, asText_draft, Except.map]
  have hcolors : shape.read ⟨some displayName, some identifier, none, none⟩ .colors
      (Json.Printable.object (colors.entries.map fun e => (e.1, .text e.2))).draft =
        .ok ⟨some displayName, some identifier, some colors, none⟩ := by
    simp only [shape, asTexts_draft, Except.map, Dict.ofList_entries]
  have hsource : ∀ file, shape.read ⟨some displayName, some identifier, some colors, none⟩ .source
      (Json.Printable.text file).draft =
        .ok ⟨some displayName, some identifier, some colors, some (some file)⟩ := by
    intro file
    simp only [shape, orNull_draft, Except.map]
  rw [toPrintable, Json.Printable.draft, Json.Shape.fromDraft, List.cons_append,
    draftMembers_cons rfl rfl hname, List.cons_append, draftMembers_cons rfl rfl hidentifier,
    List.cons_append, draftMembers_cons rfl rfl hcolors, List.nil_append]
  cases source with
  | none => rfl
  | some file =>
      rw [Option.toList_some, List.map_singleton, draftMembers_cons rfl rfl (hsource file)]
      rfl

theorem read_toPrintable (t : Theme) : Theme.read ⟨t.toPrintable.draft, false⟩ = .ok t := by
  rw [Theme.read, fromDraft_toPrintable]
  obtain ⟨displayName, identifier, colors, source⟩ := t
  cases source <;> rfl

theorem scan_toJson (t : Theme) :
    Json.scan t.toJson.toUTF8.toList = ⟨t.toPrintable.draft, false⟩ := by
  have hend : Json.Blanks (utf8 ['\n']) := List.forall_mem_singleton.2 (by decide)
  have htext := Json.ItemText.mk Json.blanks_nil (Json.Printable.valueText_pretty 0 t.toPrintable) hend
  rw [Json.toList_toUTF8, toJson, String.toList_ofList, Json.utf8_append]
  exact Json.scan_eq_of_itemText htext

def toLine (t : Theme) : String :=
  String.ofList t.toPrintable.compact

theorem scan_toLine (t : Theme) :
    Json.scan t.toLine.toUTF8.toList = ⟨t.toPrintable.draft, false⟩ := by
  rw [Json.toList_toUTF8, toLine, String.toList_ofList]
  exact Json.scan_eq_of_itemText (.bare (Json.Printable.valueText_compact t.toPrintable))

end Theme

namespace ThemeSet

theorem draftItems_map (ts : List Theme) :
    Json.Printable.draftItems (ts.map Theme.toPrintable) = ts.map fun t => t.toPrintable.draft := by
  induction ts with
  | nil => rfl
  | cons t ts ih => rw [List.map_cons, Json.Printable.draftItems, ih, List.map_cons]

theorem scan_toJson (s : ThemeSet) : Json.scan s.toJson.toUTF8.toList =
    ⟨.array (s.themes.map fun t => t.toPrintable.draft) none, false⟩ := by
  rw [Json.toList_toUTF8, toJson, String.toList_ofList, ← draftItems_map]
  exact Json.scan_eq_of_itemText (.bare (Json.Printable.valueText_compact _))

theorem toList_intercalate : (ts : List Theme) →
    (",".intercalate (ts.map Theme.toLine)).toList =
      Json.Printable.compactItems (ts.map Theme.toPrintable)
  | [] => rfl
  | [t] => String.toList_ofList
  | t :: u :: ts => by
      have hrest := toList_intercalate (u :: ts)
      rw [List.map_cons, List.map_cons] at hrest ⊢
      rw [List.map_cons, List.map_cons, String.intercalate_cons_cons, String.toList_append,
        String.toList_append, hrest, Theme.toLine, String.toList_ofList, Json.Printable.compactItems,
        List.append_assoc]
      rfl

theorem toJson_eq (s : ThemeSet) :
    s.toJson = "[" ++ ",".intercalate (s.themes.map Theme.toLine) ++ "]" := by
  rw [← String.toList_inj, String.toList_append, String.toList_append, toList_intercalate, toJson,
    String.toList_ofList, Json.Printable.compact]
  rfl

end ThemeSet

/-- What is printed of a theme reads back as the theme, alone or among others. -/
theorem printed_themes_read_back :
    (∀ t : Theme, Theme.read (Json.scan t.toJson.toUTF8.toList) = .ok t ∧
      Theme.read (Json.scan t.toLine.toUTF8.toList) = .ok t) ∧
    ∀ s : ThemeSet, s.toJson = "[" ++ ",".intercalate (s.themes.map Theme.toLine) ++ "]" ∧
      ∃ drafts, Json.scan s.toJson.toUTF8.toList = ⟨.array drafts none, false⟩ ∧
        List.Forall₂ (fun d t => Theme.read ⟨d, false⟩ = .ok t) drafts s.themes := by
  refine ⟨fun t => ⟨?_, ?_⟩, fun s => ⟨s.toJson_eq, _, s.scan_toJson, ?_⟩⟩
  · rw [t.scan_toJson]
    exact t.read_toPrintable
  · rw [t.scan_toLine]
    exact t.read_toPrintable
  · rw [List.forall₂_map_left_iff, List.forall₂_same]
    exact fun t _ => t.read_toPrintable

end Swatchbook

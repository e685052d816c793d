import Mathlib.Data.List.Forall2
import Swatchbook.Proofs.Color.Encoding
import Swatchbook.Source.Emission

/-! How a color is spelled is lost when it is packed, and colors are packed before anything
is written. So themes that differ in the spelling of their colors alone come to one plan or to
one error, and the emitted files are the same. -/
namespace Swatchbook

/-- The same text, or two spellings of one color. -/
def Hex.SameColor (v w : String) : Prop :=
  v = w ∨ isValid v = true ∧ isValid w = true ∧ pack v = pack w

/-- The same names and roles, and the same color for each role. -/
structure Theme.Respells (t u : Theme) : Prop where
  displayName_eq : t.displayName = u.displayName
  identifier_eq : t.identifier = u.identifier
  colors : List.Forall₂ (fun e f => e.1 = f.1 ∧ Hex.SameColor e.2 f.2) t.colors.entries
    u.colors.entries

namespace Theme.Respells

variable {t u : Theme}

theorem roleNames_eq (h : t.Respells u) : t.roleNames = u.roleNames := by
  obtain ⟨-, -, hcolors⟩ := h
  unfold Theme.roleNames Dict.keys
  generalize t.colors.entries = es, u.colors.entries = fs at hcolors
  induction hcolors with
  | nil => rfl
  | cons he _ ih => rw [List.map_cons, List.map_cons, he.1, ih]

theorem color? (h : t.Respells u) (role : String) :
    t.color? role = none ∧ u.color? role = none ∨
      ∃ v w, t.color? role = some v ∧ u.color? role = some w ∧ Hex.SameColor v w := by
  obtain ⟨-, -, hcolors⟩ := h
  unfold Theme.color? Dict.get?
  generalize t.colors.entries = es, u.colors.entries = fs at hcolors
  induction hcolors with
  | nil => exact .inl ⟨rfl, rfl⟩
  | @cons e f _ _ he _ ih =>
      rw [Dict.lookup_cons_eq, Dict.lookup_cons_eq, ← he.1]
      split
      · exact .inr ⟨e.2, f.2, rfl, rfl, he.2⟩
      · exact ih

end Theme.Respells

namespace Source

open Hex (SameColor)

variable {t u : Theme} {ts us : List Theme}

namespace Plan

theorem pack_respelled (h : t.Respells u) (role : String) : pack t role = pack u role := by
  unfold pack
  rcases h.color? role with ⟨ht, hu⟩ | ⟨v, w, ht, hu, rfl | ⟨hv, hw, hsame⟩⟩
  · rw [ht, hu, h.displayName_eq]
  · rw [ht, hu, h.displayName_eq]
  · obtain ⟨n, hn⟩ := Hex.exists_pack_iff.2 hv
    rw [ht, hu]
    dsimp only
    rw [← hsame, hn]

theorem settleEntry_respelled (h : t.Respells u) (rs : List Role) (taken : List String) :
    settleEntry rs taken t = settleEntry rs taken u := by
  have hpack : (fun r : Role => pack t r.name) = fun r => pack u r.name := by
    funext r
    exact pack_respelled h r.name
  unfold settleEntry
  rw [hpack, h.displayName_eq, h.identifier_eq]

theorem settleEntries_respelled (h : List.Forall₂ Theme.Respells ts us) (rs : List Role)
    (done : List Entry) : settleEntries rs done ts = settleEntries rs done us := by
  induction h generalizing done with
  | nil => rfl
  | cons h _ ih =>
      unfold settleEntries
      rw [settleEntry_respelled h]
      split
      · rfl
      · exact ih _

theorem build_respelled (h : List.Forall₂ Theme.Respells ts us) (ns : Namespace) :
    build ⟨ts⟩ ns = build ⟨us⟩ ns := by
  have hroles : ts.flatMap Theme.roleNames = us.flatMap Theme.roleNames := by
    induction h with
    | nil => rfl
    | cons h _ ih => rw [List.flatMap_cons, List.flatMap_cons, h.roleNames_eq, ih]
  unfold build ThemeSet.roleNames
  dsimp only
  simp only [hroles, settleEntries_respelled h]

end Plan

/-- Themes that differ in the spelling of their colors alone, wherever they come from, are emitted
as the same files or refused with the same error. -/
theorem emit_respelled (h : List.Forall₂ Theme.Respells ts us) (ns : Namespace) :
    emit ⟨ts⟩ ns = emit ⟨us⟩ ns := by
  unfold emit
  rw [Plan.build_respelled h]

def seaAsWritten : Theme :=
  ⟨"Sea", "SEA", .ofList [("deep", "#a0c"), ("foam", "#4682b4"), ("veil", "#FFaabbcc")],
    some "sea.json"⟩

def seaInUpperCase : Theme :=
  ⟨"Sea", "SEA", .ofList [("deep", "#AA00CC"), ("foam", "#4682B4"), ("veil", "#AABBCC")], none⟩

theorem sea_respelled :
    List.Forall₂ Theme.Respells [seaAsWritten] [seaInUpperCase] ∧
      emit ⟨[seaAsWritten]⟩ ⟨["app"]⟩ = emit ⟨[seaInUpperCase]⟩ ⟨["app"]⟩ ∧
      (emit ⟨[seaAsWritten]⟩ ⟨["app"]⟩).isOk = true := by
  have hwritten : seaAsWritten.colors.entries =
      [("deep", "#a0c"), ("foam", "#4682b4"), ("veil", "#FFaabbcc")] := by decide +kernel
  have hupper : seaInUpperCase.colors.entries =
      [("deep", "#AA00CC"), ("foam", "#4682B4"), ("veil", "#AABBCC")] := by decide +kernel
  have hdeep : SameColor "#a0c" "#AA00CC" := .inr (by decide +kernel)
  have hfoam : SameColor "#4682b4" "#4682B4" := .inr (by decide +kernel)
  have hveil : SameColor "#FFaabbcc" "#AABBCC" := .inr (by decide +kernel)
  have hsea : seaAsWritten.Respells seaInUpperCase := by
    constructor
    · rfl
    · rfl
    · rw [hwritten, hupper]
      exact .cons ⟨rfl, hdeep⟩ (.cons ⟨rfl, hfoam⟩ (.cons ⟨rfl, hveil⟩ .nil))
  have hsame : List.Forall₂ Theme.Respells [seaAsWritten] [seaInUpperCase] := .cons hsea .nil
  exact ⟨hsame, emit_respelled hsame _, by decide +kernel⟩

end Source

end Swatchbook

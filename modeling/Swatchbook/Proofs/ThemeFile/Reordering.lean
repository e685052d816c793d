import Swatchbook.Proofs.Json.Fields
import Swatchbook.Proofs.Json.Printed
import Swatchbook.Proofs.ThemeFile.Skipped

/-! The order in which a theme file gives the members of its objects does not count. -/
namespace Swatchbook

open Json (Draft Lexeme Reading ItemText)
open Json.Shape (AnyOrder Respects)
open Json.Shape.Respects (SameDraft)

/-! ### Flat themes -/

namespace FlatTheme

theorem anyOrder_shape : AnyOrder shape where
  marks {s s' f d} h := by
    cases f <;>
    · obtain ⟨v, -, rfl⟩ := map_eq_ok_iff.1 h
      rfl
  keeps {s s' f g d} hne h := by
    cases f <;>
    · obtain ⟨v, -, rfl⟩ := map_eq_ok_iff.1 h
      cases g <;> first | rfl | exact absurd rfl hne
  swaps {s s' t f g d e} hne h h' := by
    cases f <;> cases g
    case name.name | identifier.identifier | colors.colors => exact absurd rfl hne
    all_goals
      obtain ⟨v, hv, rfl⟩ := map_eq_ok_iff.1 h
      obtain ⟨w, hw, rfl⟩ := map_eq_ok_iff.1 h'
      exact ⟨_, map_eq_ok_iff.2 ⟨w, hw, rfl⟩, map_eq_ok_iff.2 ⟨v, hv, rfl⟩⟩

theorem respects_shape : Respects shape SameDraft Eq where
  given hs f := by rw [hs]
  read {s s' d d'} hs f hd := by
    subst hs
    cases f with
    | name => exact hd.1.asText.map fun v v' hv => by rw [hv]
    | identifier =>
        refine (hd.1.orNull (g := id) hd.1.asText).map fun v v' hv => ?_
        rw [Option.map_id_fun, id, id] at hv
        rw [hv]
    | colors => exact (hd.1.asTexts hd.2).map fun es es' hes => by rw [hes]

theorem alike_read {d d' : Draft} (h : SameDraft d d') :
    Alike Eq (FlatTheme.read ⟨d, false⟩) (FlatTheme.read ⟨d', false⟩) := by
  have hread : ∀ r, FlatTheme.read r = ((ofReading r).mapError .json).bind fun t =>
      if (Text.trim t.name.toList).isEmpty then .error .emptyName else .ok t := by
    intro r
    unfold FlatTheme.read
    cases ofReading r <;> rfl
  have hreading : Alike Eq (ofReading ⟨d, false⟩) (ofReading ⟨d', false⟩) :=
    (respects_shape.alike_fromDraft anyOrder_shape h rfl).bind fun s s' hs => .of_eq (by rw [hs])
  rw [hread, hread]
  exact hreading.mapError.bind fun t t' ht => .of_eq (by rw [ht])

end FlatTheme

/-! ### Declared themes -/

namespace TokenRecord

open Json (Reordered ReorderedItems ReorderedMembers)

theorem alike_orNull_asText {v v' : Json} (h : Reordered v v') :
    Alike Eq (orNull asText v) (orNull asText v') := by
  cases h with
  | text s => exact .ok rfl
  | null => exact .ok rfl
  | bool | number | array | object => exact .error _ _

namespace Declaration

theorem anyOrder_shape : AnyOrder shape where
  marks {s s' f d} h := by
    cases f <;>
    · obtain ⟨v, -, rfl⟩ := map_eq_ok_iff.1 h
      rfl
  keeps {s s' f g d} hne h := by
    cases f <;>
    · obtain ⟨v, -, rfl⟩ := map_eq_ok_iff.1 h
      cases g <;> first | rfl | exact absurd rfl hne
  swaps {s s' t f g d e} hne h h' := by
    cases f <;> cases g
    case name.name | identifier.identifier | id.id => exact absurd rfl hne
    all_goals
      obtain ⟨v, hv, rfl⟩ := map_eq_ok_iff.1 h
      obtain ⟨w, hw, rfl⟩ := map_eq_ok_iff.1 h'
      exact ⟨_, map_eq_ok_iff.2 ⟨w, hw, rfl⟩, map_eq_ok_iff.2 ⟨v, hv, rfl⟩⟩

theorem respects_shape : Respects shape Reordered Eq where
  given hs f := by rw [hs]
  read {s s' v v'} hs f hv := by
    subst hs
    cases f <;> exact (alike_orNull_asText hv).map fun x x' hx => by rw [hx]

theorem alike_read {v v' : Json} (h : Reordered v v') :
    Alike Eq (Declaration.read v) (Declaration.read v') :=
  (respects_shape.alike_fromJson anyOrder_shape h "ThemeDecl" rfl).bind fun s s' hs => .ok (by rw [hs])

end Declaration

def readKeyed (m : String × Json) : Except Json.Mismatch (String × Declaration) :=
  (Declaration.read m.2).map fun d => (m.1, d)

theorem nodup_keys_of_readKeyed {members : List (String × Json)} {es : List (String × Declaration)}
    (hkeys : (members.map Prod.fst).Nodup) (h : members.mapM readKeyed = .ok es) :
    (es.map Prod.fst).Nodup := by
  refine List.pairwise_map.2 (pairwise_of_mapM h (List.pairwise_map.1 hkeys) fun hne hm hn => ?_)
  obtain ⟨d, -, rfl⟩ := map_eq_ok_iff.1 hm
  obtain ⟨e, -, rfl⟩ := map_eq_ok_iff.1 hn
  exact hne

theorem alike_readKeyed {m m' : String × Json} (h : m.1 = m'.1 ∧ Reordered m.2 m'.2) :
    Alike Eq (readKeyed m) (readKeyed m') :=
  (Declaration.alike_read h.2).map fun d d' hd => by rw [h.1, hd]

theorem alike_readDeclarations {v v' : Json} (h : Reordered v v') :
    Alike Eq (readDeclarations v) (readDeclarations v') := by
  cases h with
  | object hkeys hperm h =>
      have hsame := (Alike.mapM_perm hperm readKeyed).and_left fun _ => nodup_keys_of_readKeyed hkeys
      have hall := Alike.mapM (h.forall₂.imp fun m m' => alike_readKeyed)
      refine (hsame.trans (T := fun es es' => Dict.ofList es = Dict.ofList es') hall ?_).bind
        fun es es' hes => .of_eq (by rw [hes])
      intro es fs es' hfs hes'
      rw [List.forall₂_eq_eq_eq] at hes'
      rw [Dict.ofList_perm hfs.2 hfs.1, hes']
  | array h =>
      refine (Alike.mapM (h.forall₂.imp fun v v' => Declaration.alike_read)).bind fun ds ds' hds => ?_
      rw [List.forall₂_eq_eq_eq] at hds
      exact .of_eq (by rw [hds])
  | null | bool | number | text => exact .error _ _

end TokenRecord

/-! ### Token sets -/

namespace TokenSet

/-- Fields that differ in the order of the color tree only. -/
def SameFields (s s' : Fields) : Prop :=
  s.color.map (Option.map Json.sortedMembers) = s'.color.map (Option.map Json.sortedMembers) ∧
    s.themes = s'.themes

theorem alike_asMembers {d d' : Draft} (h : SameDraft d d') :
    Alike (fun ms ms' => Json.sortedMembers ms = Json.sortedMembers ms') (asMembers d)
      (asMembers d') := by
  have hdecode := h.1.decode (Json.maxDepth - 1) h.2
  obtain ⟨h, -⟩ := h
  cases h with
  | object hperm h =>
      refine hdecode.bind fun v v' hv => ?_
      cases hv with
      | object hkeys hperm h =>
          exact .ok ((Json.sortedMembers_perm hkeys hperm).trans h.sortedMembers_eq)
      | null | bool | number | text | array => exact .error _ _
  | null | bool | number | text | array => exact .error _ _

theorem alike_asDeclarations {d d' : Draft} (h : SameDraft d d') :
    Alike Eq (asDeclarations d) (asDeclarations d') :=
  (h.1.decode (Json.maxDepth - 1) h.2).bind fun _ _ hv =>
    (TokenRecord.alike_readDeclarations hv).mapError

theorem anyOrder_shape : AnyOrder shape where
  marks {s s' f d} h := by
    cases f <;>
    · obtain ⟨v, -, rfl⟩ := map_eq_ok_iff.1 h
      rfl
  keeps {s s' f g d} hne h := by
    cases f <;>
    · obtain ⟨v, -, rfl⟩ := map_eq_ok_iff.1 h
      cases g <;> first | rfl | exact absurd rfl hne
  swaps {s s' t f g d e} hne h h' := by
    cases f <;> cases g
    case color.color | themes.themes => exact absurd rfl hne
    all_goals
      obtain ⟨v, hv, rfl⟩ := map_eq_ok_iff.1 h
      obtain ⟨w, hw, rfl⟩ := map_eq_ok_iff.1 h'
      exact ⟨_, map_eq_ok_iff.2 ⟨w, hw, rfl⟩, map_eq_ok_iff.2 ⟨v, hv, rfl⟩⟩

theorem respects_shape : Respects shape SameDraft SameFields where
  given {s s'} hs f := by
    cases f with
    | color =>
        have hsome := congrArg Option.isSome hs.1
        rwa [Option.isSome_map, Option.isSome_map] at hsome
    | themes => exact congrArg Option.isSome hs.2
  read {s s' d d'} hs f hd := by
    cases f with
    | color => exact (hd.1.orNull (alike_asMembers hd)).map fun v v' hv => ⟨congrArg some hv, hs.2⟩
    | themes =>
        refine (hd.1.orNull (g := id) (alike_asDeclarations hd)).map fun v v' hv => ⟨hs.1, ?_⟩
        rw [Option.map_id_fun, id, id] at hv
        exact congrArg some hv

theorem alike_fieldsOf {d d' : Draft} (h : SameDraft d d') :
    Alike SameFields (fieldsOf ⟨d, false⟩) (fieldsOf ⟨d', false⟩) :=
  (respects_shape.alike_fromDraft anyOrder_shape h ⟨rfl, rfl⟩).bind fun _ _ hs => .ok hs

theorem flatten_congr {color color' : List (String × Json)}
    (h : Json.sortedMembers color = Json.sortedMembers color') : flatten color = flatten color' := by
  unfold flatten
  rw [h]

theorem SameFields.color {fields fields' : Fields} (h : SameFields fields fields') :
    fields.color.join = none ∧ fields'.color.join = none ∨
      ∃ color color', fields.color.join = some color ∧ fields'.color.join = some color' ∧
        flatten color = flatten color' := by
  have hjoin := congrArg Option.join h.1
  rw [Option.join_map_eq_map_join, Option.join_map_eq_map_join] at hjoin
  cases hcolor : fields.color.join with
  | none =>
      rw [hcolor, Option.map_none, eq_comm, Option.map_eq_none_iff] at hjoin
      exact Or.inl ⟨rfl, hjoin⟩
  | some color =>
      rw [hcolor, Option.map_some, eq_comm, Option.map_eq_some_iff] at hjoin
      obtain ⟨color', hcolor', hsorted⟩ := hjoin
      exact Or.inr ⟨color, color', rfl, hcolor', flatten_congr hsorted.symm⟩

theorem alike_read {d d' : Draft} (h : SameDraft d d') :
    Alike Eq (TokenSet.read ⟨d, false⟩).outcome (TokenSet.read ⟨d', false⟩).outcome := by
  unfold TokenSet.read
  rw [Logged.outcome_bind, Logged.outcome_bind]
  refine (alike_fieldsOf h).mapError.bind fun fields fields' hfields => .of_eq ?_
  obtain ⟨hcolor, hcolor'⟩ | ⟨color, color', hcolor, hcolor', hflatten⟩ := hfields.color
  · simp only [hcolor, hcolor', hfields.2]
  · simp only [hcolor, hcolor', hflatten, hfields.2]

end TokenSet

/-! ### Theme files -/

namespace ThemeFile

theorem lookup_isSome_eq {members ordered members' : List (String × Json)}
    (hperm : members.Perm ordered) (h : Json.ReorderedMembers ordered members') (k : String) :
    (members.lookup k).isSome = (members'.lookup k).isSome := by
  have hkeys : ordered.map Prod.fst = members'.map Prod.fst := by
    have hall := h.forall₂.imp fun m m' hm => hm.1
    rwa [← List.forall₂_map_right_iff, ← List.forall₂_map_left_iff, List.forall₂_eq_eq_eq] at hall
  rw [Bool.eq_iff_iff, Dict.lookup_isSome_iff, Dict.lookup_isSome_iff, ← hkeys]
  exact (hperm.map Prod.fst).mem_iff

theorem detect_eq {d d' : Draft} (h : SameDraft d d') :
    FileForm.detect ⟨d, false⟩ = FileForm.detect ⟨d', false⟩ := by
  have hreading : ∀ d : Draft, Json.Reading.decode ⟨d, false⟩ = d.decode Json.maxDepth := by
    intro d
    rw [Json.Reading.decode]
    cases d.decode Json.maxDepth <;> rfl
  have hdecode := h.1.decode Json.maxDepth h.2
  unfold FileForm.detect
  rw [hreading, hreading]
  generalize d.decode Json.maxDepth = x at hdecode
  generalize d'.decode Json.maxDepth = x' at hdecode
  cases hdecode with
  | error e e' => rfl
  | ok hv =>
      cases hv with
      | object hkeys hperm h =>
          simp only [← Option.not_isSome, lookup_isSome_eq hperm h]
      | null | bool | number | text | array => rfl

theorem alike_read {d d' : Draft} (h : SameDraft d d') :
    Alike Eq (ThemeFile.read ⟨d, false⟩).outcome (ThemeFile.read ⟨d', false⟩).outcome := by
  have htokenSet := TokenSet.alike_read h
  have hflat := FlatTheme.alike_read h
  have hdetect := detect_eq h
  refine .of_ok_iff fun file => ?_
  cases file with
  | tokenSet s =>
      rw [read_eq_tokenSet_iff, read_eq_tokenSet_iff, hdetect, htokenSet.eq_ok_iff,
        hflat.exists_error_iff]
  | flat t =>
      rw [read_eq_flat_iff, read_eq_flat_iff, hdetect, hflat.eq_ok_iff, htokenSet.exists_error_iff]

/-- What a theme file comes to does not depend on the order in which its objects give their
members, on the blanks between them or on how its strings are spelled. -/
theorem themes_of_reordered {contents contents' : List UInt8} {d d' : Draft}
    (h : ItemText contents d) (h' : ItemText contents' d') (hkeys : d.DistinctKeys)
    (hsame : Draft.Reordered d d') (fileName : String) :
    (∀ ts, (ThemeFile.themes fileName contents).outcome = .ok ts ↔
      (ThemeFile.themes fileName contents').outcome = .ok ts) ∧
    ∀ file cause, (ThemeFile.themes fileName contents).outcome = .error (.resolve file cause) ↔
      (ThemeFile.themes fileName contents').outcome = .error (.resolve file cause) := by
  have hread := alike_read ⟨hsame, hkeys⟩
  unfold ThemeFile.themes
  rw [Json.scan_eq_of_itemText h, Json.scan_eq_of_itemText h']
  simp only [Logged.outcome_bind, Logged.outcome_mapError]
  generalize (ThemeFile.read ⟨d, false⟩).outcome = x at hread
  generalize (ThemeFile.read ⟨d', false⟩).outcome = x' at hread
  cases hread with
  | error e e' => exact ⟨fun ts => ⟨nofun, nofun⟩, fun file cause => ⟨nofun, nofun⟩⟩
  | ok heq =>
      subst heq
      exact ⟨fun ts => Iff.rfl, fun file cause => Iff.rfl⟩

open Json (Printable)

def forest : Printable :=
  .object [("color", .object [("moss", .object [("value", .text "#8A9A5B"), ("type", .text "color")])]),
    ("$themes", .object [("forest", .object [("name", .text "Forest"), ("id", .text "f")])])]

def forestTurned : Printable :=
  .object [("$themes", .object [("forest", .object [("id", .text "f"), ("name", .text "Forest")])]),
    ("color", .object [("moss", .object [("type", .text "color"), ("value", .text "#8A9A5B")])])]

theorem distinctKeys_forest : forest.draft.DistinctKeys := by
  have hpair : ∀ {j k : String} (s t : String), j ≠ k →
      (Printable.object [(j, .text s), (k, .text t)]).draft.DistinctKeys := by
    intro j k s t hjk
    refine .object ?_ (List.forall_mem_cons.2 ⟨.text _, List.forall_mem_singleton.2 (.text _)⟩)
    simpa [Printable.draftMembers, Json.text_lexeme] using hjk.symm
  have hsingle : ∀ (k : String) (v : Printable), v.draft.DistinctKeys →
      (Printable.object [(k, v)]).draft.DistinctKeys :=
    fun k v hv => .object (List.pairwise_singleton _ _) (List.forall_mem_singleton.2 hv)
  have hcolor := hsingle "moss" _ (hpair "#8A9A5B" "color" (by decide : "value" ≠ "type"))
  have hthemes := hsingle "forest" _ (hpair "Forest" "f" (by decide : "name" ≠ "id"))
  exact .object (by simp [Printable.draftMembers, Json.text_lexeme])
    (List.forall_mem_cons.2 ⟨hcolor, List.forall_mem_singleton.2 hthemes⟩)

theorem forest_reordered : Draft.Reordered forest.draft forestTurned.draft := by
  have hkey : ∀ s : String, Json.SameText (Json.lexeme s) (Json.lexeme s) := fun s => ⟨rfl, rfl, rfl⟩
  have hpair : ∀ j k s t : String, Draft.Reordered
      (Printable.object [(j, .text s), (k, .text t)]).draft
      (Printable.object [(k, .text t), (j, .text s)]).draft :=
    fun j k s t => .object (.swap _ _ _)
      (.cons (hkey k) (.text (hkey t)) (.cons (hkey j) (.text (hkey s)) .nil))
  have hcolor := Draft.Reordered.object (.refl _)
    (.cons (hkey "moss") (hpair "value" "type" "#8A9A5B" "color") .nil)
  have hthemes := Draft.Reordered.object (.refl _)
    (.cons (hkey "forest") (hpair "name" "id" "Forest" "f") .nil)
  exact .object (.swap _ _ _)
    (.cons (hkey "$themes") hthemes (.cons (hkey "color") hcolor .nil))

theorem themes_of_forest :
    (ThemeFile.read (Json.scan (Json.utf8 forest.compact))).outcome.isOk = true ∧
      (∀ ts, (ThemeFile.themes "forest.json" (Json.utf8 forest.compact)).outcome = .ok ts ↔
        (ThemeFile.themes "forest.json" (Json.utf8 (forestTurned.pretty 0))).outcome = .ok ts) ∧
      ∀ file cause,
        (ThemeFile.themes "forest.json" (Json.utf8 forest.compact)).outcome =
            .error (.resolve file cause) ↔
          (ThemeFile.themes "forest.json" (Json.utf8 (forestTurned.pretty 0))).outcome =
            .error (.resolve file cause) :=
  ⟨by decide +kernel, themes_of_reordered (.bare forest.valueText_compact)
    (.bare (forestTurned.valueText_pretty 0)) distinctKeys_forest forest_reordered "forest.json"⟩

end ThemeFile

end Swatchbook

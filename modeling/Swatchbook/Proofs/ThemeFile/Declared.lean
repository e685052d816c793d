import Swatchbook.Proofs.ThemeFile.Reordering

/-! The two forms in which themes are declared. Under keys or in a row, the same themes are
declared: a declaration in a row that has the key for its id is named as it is under the
key. -/
namespace Swatchbook

open Json (Draft Lexeme)

theorem Dict.entries_ofList {α : Type} {es : List (String × α)} (h : Increasing es) :
    (Dict.ofList es).entries = es :=
  congrArg Dict.entries (Dict.ofList_entries ⟨es, h⟩)

namespace TokenRecord

/-- A declaration and the same with a text for its id. In an array the id is the third
entry, and what is left out before it is null. -/
inductive Identified (id : String) : Json → Json → Prop where
  | object {fields fields' : List (String × Json)}
      (h : fields'.Perm (("id", .text id) :: fields.filter fun m => m.1 != "id")) :
      Identified id (.object fields) (.object fields')
  | array {items : List Json} :
      Identified id (.array items)
        (.array [items[0]?.getD .null, items[1]?.getD .null, .text id])

namespace Declaration

theorem holds_id : shape.Holds Field.id "id" Fields.id (orNull asText) := by
  refine .of_set (fun k => ?_) (fun _ => rfl) (fun _ _ => ⟨_, rfl, fun _ => rfl⟩) fun _ g _ hne => ?_
  · unfold shape
    simp only
    split <;> simp_all
  · cases g <;> first | exact absurd rfl hne | exact ⟨_, _, _, rfl, fun _ => rfl⟩

theorem exists_without_id {fields : List (String × Json)} {s : Fields}
    (h : shape.jsonMembers {} fields = .ok s) :
    ∃ u, shape.jsonMembers {} (fields.filter fun m => m.1 != "id") = .ok u ∧ u.id = none ∧
      s.name = u.name ∧ s.identifier = u.identifier := by
  have hkept : ∀ {ms : List (String × Json)} {u : Fields}, shape.jsonMembers {} ms = .ok u →
      u.id = none → (ms.filter fun m => m.1 != "id") = ms := by
    intro ms u hu hid
    rcases holds_id.of_jsonMembers hu rfl with ⟨hlookup, -⟩ | ⟨v, x, -, -, hx⟩
    · refine List.filter_eq_self.2 fun m hm => bne_iff_ne.2 ?_
      exact (bne_iff_ne.1 (List.lookup_eq_none_iff.1 hlookup m hm)).symm
    · rw [hid] at hx
      cases hx
  cases hid : fields.lookup "id" with
  | none =>
      rcases holds_id.of_jsonMembers h rfl with ⟨-, hnone⟩ | ⟨v, x, hlookup, -⟩
      · exact ⟨s, by rw [hkept h hnone, h], hnone, rfl, rfl⟩
      · rw [hid] at hlookup
        cases hlookup
  | some v =>
      obtain ⟨before, after, rfl, -⟩ := List.lookup_eq_some_iff.1 hid
      obtain ⟨u, hu, hfree, hread⟩ := (Json.Shape.jsonMembers_middle anyOrder_shape rfl).1 h
      have hnone : u.id = none := Option.isSome_eq_false_iff.1 hfree |> Option.isNone_iff_eq_none.1
      obtain ⟨x, -, rfl⟩ := map_eq_ok_iff.1 hread
      refine ⟨u, ?_, hnone, rfl, rfl⟩
      rw [List.filter_append, List.filter_cons_of_neg (by simp), ← List.filter_append, hkept hu hnone,
        hu]

theorem read_array_eq_ok_iff {items : List Json} {d : Declaration} :
    Declaration.read (.array items) = .ok d ↔ items.length ≤ 3 ∧
      orNull asText (items[0]?.getD .null) = .ok d.name ∧
      orNull asText (items[1]?.getD .null) = .ok d.identifier ∧
      orNull asText (items[2]?.getD .null) = .ok d.id := by
  obtain ⟨name, identifier, id⟩ := d
  have hnull : orNull asText .null = .ok none := rfl
  have hbind : ∀ {α β : Type} {x : Except Json.Mismatch α} {f : α → Except Json.Mismatch β} {b : β},
      (x >>= f) = .ok b ↔ ∃ a, x = .ok a ∧ f a = .ok b := bind_eq_ok_iff
  rcases items with _ | ⟨a, _ | ⟨b, _ | ⟨c, _ | ⟨v, rest⟩⟩⟩⟩ <;>
    simp [Declaration.read, Json.Shape.fromJson, Json.Shape.jsonItems, shape, hnull, hbind,
      map_eq_ok_iff, pure, Except.pure]

theorem read_identified {id : String} {v v' : Json} (h : Identified id v v') {d : Declaration}
    (hd : Declaration.read v = .ok d) : Declaration.read v' = .ok { d with id := some id } := by
  cases h with
  | @object fields fields' hperm =>
      obtain ⟨s, hs, hd⟩ := bind_eq_ok_iff.1 hd
      cases hd
      obtain ⟨u, hu, hnone, hname, hidentifier⟩ := exists_without_id hs
      have hfields : shape.jsonMembers {} fields' = .ok { u with id := some (some id) } := by
        rw [Json.Shape.jsonMembers_perm anyOrder_shape hperm]
        change shape.jsonMembers {} ([] ++ ("id", .text id) :: _) = _
        refine (Json.Shape.jsonMembers_middle anyOrder_shape rfl).2 ⟨u, hu, ?_, rfl⟩
        change u.id.isSome = false
        rw [hnone]
        rfl
      exact bind_eq_ok_iff.2 ⟨_, hfields, by rw [hname, hidentifier]; rfl⟩
  | @array items =>
      rw [read_array_eq_ok_iff] at hd ⊢
      exact ⟨Nat.le_refl 3, hd.2.1, hd.2.2.1, rfl⟩

end Declaration

theorem exists_listed {members : List (String × Json)} {items : List Json}
    (h : List.Forall₂ (fun m v => Identified m.1 m.2 v) members items)
    {es : List (String × Declaration)} (hes : members.mapM readKeyed = .ok es) :
    items.mapM Declaration.read = .ok (es.map fun e => { e.2 with id := some e.1 }) := by
  rw [mapM_eq_ok_iff] at hes ⊢
  induction h generalizing es with
  | nil =>
      cases hes
      exact .nil
  | cons hid _ ih =>
      cases hes with
      | cons hread hes =>
          obtain ⟨d, hd, rfl⟩ := map_eq_ok_iff.1 hread
          exact .cons (Declaration.read_identified hid hd) (ih hes)

end TokenRecord

namespace TokenSet

open TokenRecord (Declaration Declarations Identified readKeyed)

/-- A declaration that has a key for its id is named in a row as it is under the key. -/
theorem declareListed_eq (index : Nat) (es : List (String × Declaration)) :
    declareListed index (es.map fun e => { e.2 with id := some e.1 }) =
      .ok (es.map fun e => declareKeyed e.1 e.2) := by
  induction es generalizing index with
  | nil => rfl
  | cons e es ih =>
      rw [List.map_cons, declareListed, ih]
      cases hname : e.2.name <;> simp [declareKeyed, hname, Except.map]

/-- A text with a place for its declarations: the value under `$themes`, or the second of an
array. -/
inductive ThemesPlace : (Draft → Draft) → Prop where
  | member {before after : List (Lexeme × Draft)} {key : Lexeme} {stop : Option Json.Flaw}
      (hkey : key.text = .ok "$themes") :
      ThemesPlace fun d => .object (before ++ (key, d) :: after) stop
  | item {color : Draft} {after : List Draft} {stop : Option Json.Flaw} :
      ThemesPlace fun d => .array (color :: d :: after) stop

theorem fieldsOf_eq_ok_iff {root : Draft} {trailing : Bool} {fields : Fields} :
    fieldsOf ⟨root, trailing⟩ = .ok fields ↔
      trailing = false ∧ shape.fromDraft {} root = .ok fields := by
  refine bind_eq_ok_iff.trans ?_
  cases trailing <;> simp

theorem read_themes_eq_ok_iff {u fields : Fields} {d : Draft} :
    shape.read u .themes d = .ok fields ↔
      ∃ v, d.orNull asDeclarations = .ok v ∧ { u with themes := some v } = fields :=
  map_eq_ok_iff

theorem exists_fieldsOf_iff {text : Draft → Draft} (h : ThemesPlace text) (trailing : Bool) :
    ∃ Others : Fields → Prop, ∀ {d fields}, fieldsOf ⟨text d, trailing⟩ = .ok fields ↔
      ∃ u, Others u ∧ ∃ v, d.orNull asDeclarations = .ok v ∧ { u with themes := some v } = fields := by
  simp only [fieldsOf_eq_ok_iff, ← read_themes_eq_ok_iff]
  cases h with
  | @member before after key stop hkey =>
      refine ⟨fun u => trailing = false ∧ stop = none ∧
        shape.draftMembers {} (before ++ after) = .ok u ∧ shape.given u .themes = false, ?_⟩
      intro d fields
      rw [Json.Shape.fromDraft_object_iff, Json.Shape.draftMembers_middle anyOrder_shape hkey rfl]
      simp only [exists_and_left, and_assoc]
  | @item color after stop =>
      refine ⟨fun u => trailing = false ∧ stop = none ∧ after = [] ∧ shape.read {} .color color = .ok u,
        ?_⟩
      intro d fields
      have hrow : shape.draftItems {} shape.fields (color :: d :: after) = .ok fields ↔
          ∃ u, shape.read {} .color color = .ok u ∧
            ∃ t, shape.read u .themes d = .ok t ∧ shape.draftItems t [] after = .ok fields :=
        bind_eq_ok_iff.trans (exists_congr fun u => and_congr_right fun _ => bind_eq_ok_iff)
      rw [Json.Shape.fromDraft_array_iff, hrow]
      cases after with
      | nil => simp [Json.Shape.draftItems, and_assoc]
      | cons => simp [Json.Shape.draftItems]

theorem decode_ne_null {d : Draft} {room : Nat} {v : Json} (h : d.decode room = .ok v)
    (hv : v ≠ .null) : d ≠ .null := by
  rintro rfl
  exact hv (Except.ok.inj h).symm

theorem orNull_draft_of_ne_null {α : Type} {read : Draft → Except Json.Flaw α} {d : Draft}
    (h : d ≠ .null) : d.orNull read = (read d).map some := by
  cases d <;> first | rfl | exact absurd rfl h

theorem exists_keyed {d : Draft} {members ordered : List (String × Json)} {v : Option Declarations}
    (hd : d.decode (Json.maxDepth - 1) = .ok (.object members)) (hperm : members.Perm ordered)
    (hkeys : Increasing ordered) (h : d.orNull asDeclarations = .ok v) :
    ∃ es, ordered.mapM readKeyed = .ok es ∧
      declaredThemes v = .ok (es.map fun e => declareKeyed e.1 e.2) := by
  rw [orNull_draft_of_ne_null (decode_ne_null hd nofun)] at h
  obtain ⟨ds, hds, rfl⟩ := map_eq_ok_iff.1 h
  unfold asDeclarations at hds
  rw [hd] at hds
  obtain ⟨es, hes, hds⟩ := bind_eq_ok_iff.1 (mapError_eq_ok_iff.1 hds)
  cases hds
  obtain ⟨es', hes', hsame⟩ := (Alike.mapM_perm hperm readKeyed).exists_ok hes
  have hnodup : (es.map Prod.fst).Nodup := TokenRecord.nodup_keys_of_readKeyed
    ((hperm.map Prod.fst).symm.nodup (Dict.nodup_map_fst hkeys)) hes
  have hincreasing : Increasing es' := by
    refine pairwise_of_mapM hes' hkeys fun hlt hm hn => ?_
    obtain ⟨d, -, rfl⟩ := map_eq_ok_iff.1 hm
    obtain ⟨e, -, rfl⟩ := map_eq_ok_iff.1 hn
    exact hlt
  exact ⟨es', hes', by rw [declaredThemes, Dict.ofList_perm hnodup hsame, Dict.entries_ofList hincreasing]⟩

theorem listed_of_keyed {d : Draft} {members : List (String × Json)} {items : List Json}
    (hd : d.decode (Json.maxDepth - 1) = .ok (.array items))
    (hitems : List.Forall₂ (fun m v => Identified m.1 m.2 v) members items)
    {es : List (String × Declaration)} (hes : members.mapM readKeyed = .ok es) :
    ∃ ds, d.orNull asDeclarations = .ok (some (.listed ds)) ∧
      declaredThemes (some (.listed ds)) = .ok (es.map fun e => declareKeyed e.1 e.2) := by
  have hread : TokenRecord.readDeclarations (.array items) =
      .ok (.listed (es.map fun e => { e.2 with id := some e.1 })) :=
    bind_eq_ok_iff.2 ⟨_, TokenRecord.exists_listed hitems hes, rfl⟩
  refine ⟨_, ?_, declareListed_eq 0 es⟩
  rw [orNull_draft_of_ne_null (decode_ne_null hd nofun), asDeclarations, hd]
  simp only [Except.bind]
  rw [hread]
  rfl

theorem read_congr {r r' : Json.Reading} {fields fields' : Fields} (h : fieldsOf r = .ok fields)
    (h' : fieldsOf r' = .ok fields') (hcolor : fields.color = fields'.color)
    (hthemes : declaredThemes fields.themes.join = declaredThemes fields'.themes.join) :
    TokenSet.read r = TokenSet.read r' := by
  have hlift : ∀ (a : Fields) (f : Fields → Logged TokenSetError TokenSet),
      Logged.lift (.ok a) >>= f = f a :=
    fun _ _ => rfl
  unfold TokenSet.read
  rw [h, h']
  simp only [Except.mapError, hlift, hcolor, hthemes]

/-- A text that declares its themes under keys says the same when it declares them in a row:
in the order of their keys, each with its key for its id. Each is named by its name, or else
by its key. -/
theorem read_in_a_row {text : Draft → Draft} (htext : ThemesPlace text) {trailing : Bool}
    {d d' : Draft} {members ordered : List (String × Json)} {items : List Json}
    (hd : d.decode (Json.maxDepth - 1) = .ok (.object members)) (hperm : members.Perm ordered)
    (hkeys : Increasing ordered) (hd' : d'.decode (Json.maxDepth - 1) = .ok (.array items))
    (hitems : List.Forall₂ (fun m v => Identified m.1 m.2 v) ordered items) {s : TokenSet}
    (hs : (TokenSet.read ⟨text d, trailing⟩).outcome = .ok s) :
    TokenSet.read ⟨text d', trailing⟩ = TokenSet.read ⟨text d, trailing⟩ ∧
      List.Forall₂ (fun m theme => ∃ declaration, Declaration.read m.2 = .ok declaration ∧
        theme = declareKeyed m.1 declaration) ordered s.themes := by
  obtain ⟨Others, hfieldsOf⟩ := exists_fieldsOf_iff htext trailing
  obtain ⟨fields, hfields, -, hthemes⟩ := read_eq_ok hs
  obtain ⟨u, hu, v, hv, rfl⟩ := hfieldsOf.1 hfields
  obtain ⟨es, hes, hdeclared⟩ := exists_keyed hd hperm hkeys hv
  obtain ⟨ds, hds, hlisted⟩ := listed_of_keyed hd' hitems hes
  constructor
  · exact read_congr (hfieldsOf.2 ⟨u, hu, _, hds, rfl⟩) hfields rfl (hlisted.trans hdeclared.symm)
  · rw [← Except.ok.inj (hdeclared.symm.trans hthemes), List.forall₂_map_right_iff]
    refine (mapM_eq_ok_iff.1 hes).imp fun m e he => ?_
    obtain ⟨declaration, hread, rfl⟩ := map_eq_ok_iff.1 he
    exact ⟨declaration, hread, rfl⟩

open Json (Printable)

def hoursKeyed : Printable :=
  .object [("night", .object [("id", .text "n")]), ("dusk", .array [.text "Dusk", .text "DUSK"]),
    ("day", .object [("displayName", .text "Daylight")])]

def hoursListed : Printable :=
  .array [.object [("displayName", .text "Daylight"), ("id", .text "day")],
    .array [.text "Dusk", .text "DUSK", .text "dusk"], .object [("id", .text "night")]]

def declaring (themes : Printable) : Printable :=
  .object [("$themes", themes)]

theorem hours_in_a_row : ∃ s,
    (TokenSet.read (Json.scan (Json.utf8 (declaring hoursKeyed).compact))).outcome = .ok s ∧
      s.themes = [⟨"Daylight", "DAYLIGHT"⟩, ⟨"Dusk", "DUSK"⟩, ⟨"Night", "NIGHT"⟩] ∧
      TokenSet.read (Json.scan (Json.utf8 (declaring hoursListed).compact)) =
        TokenSet.read (Json.scan (Json.utf8 (declaring hoursKeyed).compact)) := by
  have hscan : ∀ p : Printable, Json.scan (Json.utf8 p.compact) = ⟨p.draft, false⟩ :=
    fun p => Json.scan_eq_of_itemText (.bare p.valueText_compact)
  have hplace : ThemesPlace fun d => .object ([] ++ (Json.lexeme "$themes", d) :: []) none :=
    .member (Json.text_lexeme "$themes")
  have hkeyed : hoursKeyed.draft.decode (Json.maxDepth - 1) = .ok (.object
      [("night", .object [("id", .text "n")]), ("dusk", .array [.text "Dusk", .text "DUSK"]),
        ("day", .object [("displayName", .text "Daylight")])]) := by
    simp only [hoursKeyed, Printable.draft, Printable.draftMembers, Printable.draftItems, Draft.decode,
      Json.decodeMembers, Json.decodeItems, Json.text_lexeme]
    rfl
  have hlisted : hoursListed.draft.decode (Json.maxDepth - 1) = .ok (.array
      [.object [("displayName", .text "Daylight"), ("id", .text "day")],
        .array [.text "Dusk", .text "DUSK", .text "dusk"], .object [("id", .text "night")]]) := by
    simp only [hoursListed, Printable.draft, Printable.draftMembers, Printable.draftItems, Draft.decode,
      Json.decodeMembers, Json.decodeItems, Json.text_lexeme]
    rfl
  have hread : (TokenSet.read ⟨(declaring hoursKeyed).draft, false⟩).outcome.toOption.map
      TokenSet.themes = some [⟨"Daylight", "DAYLIGHT"⟩, ⟨"Dusk", "DUSK"⟩, ⟨"Night", "NIGHT"⟩] := by
    decide +kernel
  obtain ⟨s, hs, hthemes⟩ := exists_of_toOption hread
  rw [hscan, hscan]
  refine ⟨s, hs, hthemes, (read_in_a_row hplace hkeyed
    (List.reverse_perm _).symm (by unfold Increasing; decide) hlisted ?_ hs).1⟩
  exact .cons (.object (.swap _ _ _)) (.cons .array (.cons (.object (.refl _)) .nil))

end TokenSet

end Swatchbook

import Swatchbook.Proofs.Decimal.Amount
import Swatchbook.Proofs.Json.Numeral
import Swatchbook.Proofs.ThemeFile.StandardKeys

/-! The amounts of adjustments. An amount written as a number is finite, but one written as a
text can be any word or decimal of the grammar of amounts: an infinity and what is no number
are taken from a text, and refused is only a text that the grammar does not know. -/
namespace Swatchbook

open Decimal (AmountText Meaning)

namespace TokenRecord

def Amount.Sound : Amount → Prop
  | .number x => x.isFinite = true
  | .text _ => True

theorem sound_of_readAmount {v : Json} {a : Amount} (h : readAmount v = .ok a) : a.Sound := by
  cases v with
  | number n =>
      cases h
      cases hn : n.value? with
      | none =>
          change (0 : Float).isFinite = true
          decide +kernel
      | some x => exact Json.Numeral.isFinite_of_value? hn
  | text s =>
      cases h
      trivial
  | null | bool | array | object => cases h

theorem eq_ok_of_orNull {α : Type} {read : Json → Except Json.Mismatch α} {v : Json} {x : α}
    (h : orNull read v = .ok (some x)) : read v = .ok x := by
  cases v with
  | null => cases h
  | _ =>
      obtain ⟨y, hy, heq⟩ := map_eq_ok_iff.1 h
      cases heq
      exact hy

theorem sound_of_read {v : Json} {m : Modify} (h : Modify.read v = .ok m) : m.value.Sound := by
  obtain ⟨s, hs, h⟩ := bind_eq_ok_iff.1 h
  have hsound : ∀ a, s.value = some a → a.Sound := by
    refine Json.Shape.fromJson_keeps (P := fun s => ∀ a, s.value = some a → a.Sound) ?_ hs nofun
    intro s s' f v hread hs
    cases f with
    | value =>
        obtain ⟨a, ha, rfl⟩ := map_eq_ok_iff.1 hread
        rintro _ ⟨⟩
        exact sound_of_readAmount ha
    | _ =>
        obtain ⟨x, -, rfl⟩ := map_eq_ok_iff.1 hread
        exact hs
  split at h
  · rename_i type value htype hvalue
    cases h
    exact hsound value hvalue
  · cases h
  · cases h

theorem sound_of_readStudio {v : Json} {m : Modify} (h : readStudio v = .ok (some m)) :
    m.value.Sound := by
  obtain ⟨s, hs, hm⟩ := map_eq_ok_iff.1 h
  have hsound : ∀ m, s = some (some m) → m.value.Sound := by
    refine Json.Shape.fromJson_keeps (P := fun s => ∀ m, s = some (some m) → m.value.Sound) ?_ hs nofun
    intro s s' f v hread hs m hm
    subst hm
    obtain ⟨x, hx, heq⟩ := map_eq_ok_iff.1 hread
    cases heq
    exact sound_of_read (eq_ok_of_orNull hx)
  exact hsound m (Option.join_eq_some_iff.1 hm)

theorem sound_of_readExtensions {v : Json} {m : Modify} (h : readExtensions v = .ok (some m)) :
    m.value.Sound := by
  obtain ⟨s, hs, hm⟩ := bind_eq_ok_iff.1 h
  have hsound : (∀ m, s.modify = some (some m) → m.value.Sound) ∧
      ∀ m, s.studio = some (some (some m)) → m.value.Sound := by
    refine Json.Shape.fromJson_keeps (P := fun s : ExtensionFields =>
      (∀ m, s.modify = some (some m) → m.value.Sound) ∧
        ∀ m, s.studio = some (some (some m)) → m.value.Sound) ?_ hs ⟨nofun, nofun⟩
    intro s s' f v hread hs
    cases f with
    | modify =>
        obtain ⟨x, hx, rfl⟩ := map_eq_ok_iff.1 hread
        refine ⟨fun m hm => ?_, hs.2⟩
        cases hm
        exact sound_of_read (eq_ok_of_orNull hx)
    | studio =>
        obtain ⟨x, hx, rfl⟩ := map_eq_ok_iff.1 hread
        refine ⟨hs.1, fun m hm => ?_⟩
        cases hm
        exact sound_of_readStudio (eq_ok_of_orNull hx)
  have hor : (s.modify.join <|> s.studio.join.join) = some m := Except.ok.inj hm
  cases hmodify : s.modify.join with
  | some m' =>
      rw [hmodify] at hor
      cases hor
      exact hsound.1 m (Option.join_eq_some_iff.1 hmodify)
  | none =>
      rw [hmodify] at hor
      exact hsound.2 m (Option.join_eq_some_iff.1 (Option.join_eq_some_iff.1 hor))

end TokenRecord

namespace TokenSet

open Json (Draft Reading)
open TokenRecord (readFields readExtensions)

theorem sound_of_modifyIn {extensions : Json} {m : TokenRecord.Modify}
    (h : modifyIn extensions = some m) : m.value.Sound := by
  unfold modifyIn at h
  cases hread : readExtensions extensions with
  | error e =>
      rw [hread] at h
      cases h
  | ok modify =>
      rw [hread] at h
      cases h
      exact TokenRecord.sound_of_readExtensions hread

/-! ### The amounts of a map of tokens -/

/-- The number that an amount comes to: its own, or one that its text, trimmed, can stand for. -/
inductive AmountOf : TokenRecord.Amount → Float → Prop where
  | number {x : Float} (h : x.isFinite = true) : AmountOf (.number x) x
  | text {written : String} {a : Meaning} (h : AmountText (Text.trim written.toList) a) :
      AmountOf (.text written) a.value

theorem amountOf_of_amount {path : String} {a : TokenRecord.Amount} {x : Float} (ha : a.Sound)
    (h : amount path a = .ok x) : AmountOf a x := by
  cases a with
  | number y =>
      cases h
      exact .number ha
  | text written =>
      unfold amount at h
      simp only at h
      split at h
      · rename_i y hy
        cases h
        obtain ⟨a, hmeaning, rfl⟩ := Decimal.readAmount?_eq_some_iff.1 hy
        rw [String.toList_ofList] at hmeaning
        exact .text hmeaning
      · cases h

theorem adjustment_of_tokenOf {path : String} {inherited : Option String}
    {fields : TokenRecord.Fields} {t : Token} {a : Adjustment}
    (h : (tokenOf path inherited fields).outcome = .ok (some t)) (ha : t.adjustment = some a) :
    ∃ m, fields.modify? = some m ∧ amount path m.value = .ok a.amount := by
  unfold tokenOf at h
  split at h
  · cases h
  · split at h
    · split at h
      · cases h
        cases ha
      · rename_i m hm
        rw [Logged.outcome_bind] at h
        obtain ⟨adjusted, hadjusted, h⟩ := bind_eq_ok_iff.1 h
        cases h
        cases ha
        refine ⟨m, hm, ?_⟩
        unfold adjustment at hadjusted
        split at hadjusted
        · cases hadjusted
        · rename_i x hx
          rw [hx]
          split at hadjusted <;> cases hadjusted
          rfl
    · cases h

/-- A number, or a text that stands for a finite one. -/
def DenotesFinite : TokenRecord.Amount → Prop
  | .number _ => True
  | .text written => ∃ a, AmountText (Text.trim written.toList) a ∧ a.IsFinite

theorem AmountOf.isFinite_iff {a : TokenRecord.Amount} {x : Float} (h : AmountOf a x) :
    x.isFinite = true ↔ DenotesFinite a := by
  cases h with
  | number hx => exact iff_of_true hx trivial
  | @text written a h =>
      constructor
      · exact fun hx => ⟨a, h, (Decimal.isFinite_value_iff a).1 hx⟩
      · rintro ⟨a', h', hfinite⟩
        rw [h.value_unique h']
        exact (Decimal.isFinite_value_iff a').2 hfinite

/-! ### Texts that stand for nothing -/

/-- A legible color token with an adjustment whose amount is written as a text. -/
structure WritesAmount (tree : List (String × Json)) (keys : List String)
    (groups : List (List (String × Json))) (members : List (String × Json)) (written : String) :
    Prop where
  reaches : Reaches tree keys groups (.object members)
  token : isToken members = true
  color : IsColorType (typeUnder (handedDown (groups ++ [tree])) members)
  legible : Legible members
  value : ∃ text, declaredValue members = some (.text text)
  amount : ∃ m, (declaredExtensions members).bind modifyIn = some m ∧ m.value = .text written

theorem WritesAmount.exists_outcome {tree : List (String × Json)} {keys : List String}
    {groups : List (List (String × Json))} {members : List (String × Json)} {written : String}
    (h : WritesAmount tree keys groups members written) (hkeys : (members.map Prod.fst).Nodup)
    (path : String) : ∃ m f, m.value = .text written ∧
      (tokenAt path (handedDown (groups ++ [tree])) members).outcome =
        (adjustment path m).outcome.map f := by
  obtain ⟨text, hvalue⟩ := h.value
  obtain ⟨m, hm, hwritten⟩ := h.amount
  obtain ⟨fields, hfields⟩ := (exists_readFields_iff hkeys).2 h.legible
  refine ⟨m, fun a => [(path, ⟨ColorValue.classify text, a⟩)], hwritten, ?_⟩
  rw [← value?_of_readFields hfields] at hvalue
  rw [← modify?_of_readFields hfields] at hm
  rw [tokenAt, hfields]
  simp only [tokenOf, (isColorType_of_readFields hfields _).1 h.color, hvalue, hm, Logged.outcome_bind]
  cases (adjustment path m).outcome <;> rfl

theorem amount_text_eq_error_iff {path written : String} {e : TokenSetError} :
    amount path (.text written) = .error e ↔
      e = .invalidAmount path written ∧ ¬∃ a, AmountText (Text.trim written.toList) a := by
  rw [amount_eq_error_iff, ← Decimal.readAmount?_isNone_iff, Option.isNone_iff_eq_none]
  simp [and_comm]

theorem outcome_adjustment_eq_iff {path written : String} {m : TokenRecord.Modify}
    (hm : m.value = .text written) {p w : String} :
    (adjustment path m).outcome = .error (.invalidAmount p w) ↔
      (p = path ∧ w = written) ∧ ¬∃ a, AmountText (Text.trim written.toList) a := by
  have hamount : amount path (.text written) = .error (.invalidAmount p w) ↔ _ :=
    amount_text_eq_error_iff
  rw [TokenSetError.invalidAmount.injEq] at hamount
  rw [← hamount, adjustment, hm]
  cases amount path (.text written) with
  | error e => simp
  | ok x =>
      simp only
      split <;> simp

theorem outcome_tokenAt_iff {tree : List (String × Json)} {keys : List String}
    {groups : List (List (String × Json))} {members : List (String × Json)} {written : String}
    (h : WritesAmount tree keys groups members written) (hkeys : (members.map Prod.fst).Nodup)
    (path p w : String) :
    (tokenAt path (handedDown (groups ++ [tree])) members).outcome = .error (.invalidAmount p w) ↔
      (p = path ∧ w = written) ∧ ¬∃ a, AmountText (Text.trim written.toList) a := by
  obtain ⟨m, f, hm, houtcome⟩ := h.exists_outcome hkeys path
  rw [houtcome, ← outcome_adjustment_eq_iff hm]
  cases (adjustment path m).outcome <;> simp [Except.map]

/-! ### Texts of token sets -/

theorem exists_amountOf_of_read {r : Reading} {s : TokenSet} {d : Dict Token} {tree : List (String × Json)}
    (htree : colorTree? r = some tree) (hs : (TokenSet.read r).outcome = .ok s)
    (hd : s.tokens = some d) {name : String} {t : Token} {a : Adjustment}
    (ht : d.get? name = some t) (ha : t.adjustment = some a) :
    ∃ keys members m, ColorTokenAt tree keys members ∧ dotted keys = name ∧
      (declaredExtensions members).bind modifyIn = some m ∧ AmountOf m.value a.amount := by
  obtain ⟨tokens, hok, htokens⟩ := exists_groupTokens_of_read htree hs
  obtain rfl := Option.some.inj (hd.symm.trans htokens)
  obtain ⟨keys, members, inherited, fields, hat, hname, hfields, -, htoken⟩ :=
    exists_tokenOf_of_get? hok ht
  obtain ⟨m, hm, hamount⟩ := adjustment_of_tokenOf htoken ha
  rw [modify?_of_readFields hfields] at hm
  obtain ⟨extensions, -, hmodify⟩ := Option.bind_eq_some_iff.1 hm
  exact ⟨keys, members, m, hat, hname, hm, amountOf_of_amount (sound_of_modifyIn hmodify) hamount⟩

/-- An amount in the map of an accepted text is finite if it is written as a number or as a
text that stands for a finite one; any other text of the grammar is taken for what it stands
for as well. Only for a text outside the grammar is a token refused, and with it the text it
stands in, unless that is refused for a reason that it has without the token too. -/
theorem amounts_of_read (r : Reading) :
    (∀ s d, (TokenSet.read r).outcome = .ok s → s.tokens = some d →
      ∃ tree, colorTree? r = some tree ∧ ∀ name t a, d.get? name = some t → t.adjustment = some a →
        ∃ keys members m, ColorTokenAt tree keys members ∧ dotted keys = name ∧
          (declaredExtensions members).bind modifyIn = some m ∧ AmountOf m.value a.amount ∧
          (a.amount.isFinite = true ↔ DenotesFinite m.value)) ∧
    ∀ text trailing d d' tree keys groups members written, ColorPlace text → r = ⟨text d, trailing⟩ →
      treeOf d = .ok tree → treeOf d' = .ok (without keys tree) →
      WritesAmount tree keys groups members written →
        (∀ p w, (tokenAt (dotted keys) (handedDown (groups ++ [tree])) members).outcome =
            .error (.invalidAmount p w) ↔
          (p = dotted keys ∧ w = written) ∧ ¬∃ a, AmountText (Text.trim written.toList) a) ∧
        ((¬∃ a, AmountText (Text.trim written.toList) a) →
          ∃ e, (TokenSet.read r).outcome = .error e ∧
            (e = .invalidAmount (dotted keys) written ∨
              (TokenSet.read ⟨text d', trailing⟩).outcome = .error e)) := by
  refine ⟨fun s d hs hd => ?_, fun text trailing d d' tree keys groups members written htext hr
    htree htree' h => ?_⟩
  · obtain ⟨tree, htree, -⟩ := tokens_flatten hs hd
    refine ⟨tree, htree, fun name t a ht ha => ?_⟩
    obtain ⟨keys, members, m, hat, hname, hm, hamount⟩ := exists_amountOf_of_read htree hs hd ht ha
    exact ⟨keys, members, m, hat, hname, hm, hamount, hamount.isFinite_iff⟩
  · subst hr
    have htoken := outcome_tokenAt_iff h (h.reaches.nodup_keys htree) (dotted keys)
    have hread := h.reaches.read_extendsBy htree h.token htext trailing htree'
    exact ⟨htoken, fun hnothing => hread.refused _ ((htoken _ _).2 ⟨⟨rfl, rfl⟩, hnothing⟩)⟩

open Json (Printable)

def lightened (written : String) : Printable :=
  .object [("value", .text "#000000"), ("extensions", .object [("modify",
    .object [("type", .text "lighten"), ("value", .text written)])])]

theorem ink_lightened :
    (∃ s d t a m, (TokenSet.read
          (Json.scan (Json.utf8 (colored (.object [("ink", lightened "1e999")])).compact))).outcome =
        .ok s ∧ s.tokens = some d ∧ d.get? "ink" = some t ∧ t.adjustment = some a ∧
      AmountOf m a.amount ∧ ¬DenotesFinite m) ∧
    (TokenSet.read
        (Json.scan (Json.utf8 (colored (.object [("ink", lightened "soft")])).compact))).outcome =
      .error (.invalidAmount "ink" "soft") := by
  have hscan : ∀ p : Printable, Json.scan (Json.utf8 p.compact) = ⟨p.draft, false⟩ :=
    fun p => Json.scan_eq_of_itemText (.bare p.valueText_compact)
  rw [hscan, hscan]
  constructor
  · have hread : (TokenSet.read ⟨(colored (.object [("ink", lightened "1e999")])).draft,
        false⟩).outcome.toOption.map (fun s => s.tokens.map fun d => (d.get? "ink").map fun t =>
          t.adjustment.map fun a => a.amount.isFinite) = some (some (some (some false))) := by
      decide +kernel
    obtain ⟨s, hs, hd⟩ := exists_of_toOption hread
    obtain ⟨d, hd, ht⟩ := Option.map_eq_some_iff.1 hd
    obtain ⟨t, ht, ha⟩ := Option.map_eq_some_iff.1 ht
    obtain ⟨a, ha, hinfinite⟩ := Option.map_eq_some_iff.1 ha
    obtain ⟨tree, -, hamounts⟩ := (amounts_of_read _).1 s d hs hd
    obtain ⟨keys, members, m, -, -, -, hamount, hfinite⟩ := hamounts "ink" t a ht ha
    refine ⟨s, d, t, a, m.value, hs, hd, ht, ha, hamount, fun hm => ?_⟩
    rw [hfinite.2 hm] at hinfinite
    cases hinfinite
  · have hplace : ColorPlace fun d => .object ([] ++ (Json.lexeme "color", d) :: []) none :=
      .member (Json.text_lexeme "color")
    have htree : treeOf (Printable.object [("ink", lightened "soft")]).draft = .ok [("ink", .object
        [("extensions", .object [("modify", .object [("type", .text "lighten"), ("value", .text "soft")])]),
          ("value", .text "#000000")])] := by
      simp only [treeOf, asMembers, lightened, Printable.draft, Printable.draftMembers, Draft.decode,
        Json.decodeMembers, Json.text_lexeme]
      rfl
    generalize hmembers : [("extensions", Json.object [("modify", .object [("type", .text "lighten"),
      ("value", .text "soft")])]), ("value", .text "#000000")] = members at htree
    have htree' : treeOf (Printable.object []).draft =
        .ok (without ["ink"] [("ink", .object members)]) :=
      rfl
    have hkeys : (members.map Prod.fst).Nodup := by
      subst hmembers
      decide
    have hwrites : WritesAmount [("ink", .object members)] ["ink"] [] members "soft" := by
      subst hmembers
      exact
        { reaches := .entry (by decide) (List.mem_singleton_self _)
          token := rfl
          color := trivial
          legible := (exists_readFields_iff hkeys).1 ⟨_, rfl⟩
          value := ⟨_, rfl⟩
          amount := ⟨_, rfl, rfl⟩ }
    have hnothing : ¬∃ a, AmountText (Text.trim "soft".toList) a :=
      Decimal.readAmount?_isNone_iff.1 (by decide +kernel)
    have hok : (TokenSet.read ⟨(colored (.object [])).draft, false⟩).outcome.isOk = true := by
      decide +kernel
    obtain ⟨e, he, rfl | herror⟩ :=
      ((amounts_of_read _).2 _ false _ _ _ _ _ _ _ hplace rfl htree htree' hwrites).2 hnothing
    · exact he
    · change (TokenSet.read ⟨(colored (.object [])).draft, false⟩).outcome = _ at herror
      rw [herror] at hok
      cases hok

end TokenSet

end Swatchbook

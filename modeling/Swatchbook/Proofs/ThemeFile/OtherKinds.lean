import Swatchbook.Proofs.Json.Printed
import Swatchbook.Proofs.Json.Scanning
import Swatchbook.Proofs.ThemeFile.Removal

/-! Tokens of other kinds than color. Such a token adds nothing to a tree, so that the tree
says the same without it, but it is read before its kind is looked at: a tree is refused
for one whose types or extensions cannot be read. -/
namespace Swatchbook

open Json (Draft)

namespace TokenSet

open TokenRecord (readExtensions)

/-- A token whose type, declared or handed down, is a text other than `color`. -/
def OtherTokenAt (tree : List (String × Json)) (keys : List String)
    (members : List (String × Json)) : Prop :=
  ∃ groups t, Reaches tree keys groups (.object members) ∧ isToken members = true ∧
    typeUnder (handedDown (groups ++ [tree])) members = some (.text t) ∧
      sameIgnoringCase t "color" = false

/-- The types a token declares are texts, and its extensions can be read. -/
structure Legible (members : List (String × Json)) : Prop where
  types : ∀ key ∈ ["$type", "type"], ∀ v, givenAt key members = some v → ∃ s, v = .text s
  extensions : ∀ key ∈ ["$extensions", "extensions"], ∀ v, givenAt key members = some v →
    ∃ modify, readExtensions v = .ok modify

end TokenSet

/-! ### Reading the fields of a token -/

namespace TokenRecord

def Field.Accepts : Field → Json → Prop
  | .standardValue, _ | .plainValue, _ => True
  | .standardType, v | .plainType, v => v = .null ∨ ∃ s, v = .text s
  | .standardExtensions, v | .plainExtensions, v => v = .null ∨ ∃ m, readExtensions v = .ok m

theorem exists_orNull_iff {α : Type} {read : Json → Except Json.Mismatch α} {v : Json} :
    (∃ x, orNull read v = .ok x) ↔ v = .null ∨ ∃ y, read v = .ok y := by
  cases v with
  | null => exact iff_of_true ⟨none, rfl⟩ (.inl rfl)
  | _ => exact exists_map_eq_ok_iff.trans (or_iff_right nofun).symm

theorem exists_asText_iff {v : Json} : (∃ s, asText v = .ok s) ↔ ∃ s, v = .text s := by
  cases v <;> simp [asText]

theorem exists_read_iff (s : Fields) (f : Field) (v : Json) :
    (∃ s', shape.read s f v = .ok s') ↔ f.Accepts v := by
  cases f with
  | standardValue | plainValue =>
      exact exists_map_eq_ok_iff.trans
        (exists_orNull_iff.trans (iff_of_true (.inr ⟨v, rfl⟩) trivial))
  | standardType | plainType =>
      exact exists_map_eq_ok_iff.trans (exists_orNull_iff.trans (or_congr_right exists_asText_iff))
  | standardExtensions | plainExtensions => exact exists_map_eq_ok_iff.trans exists_orNull_iff

theorem given_of_read {s s' : Fields} {f g : Field} {v : Json} (hne : g ≠ f)
    (h : shape.read s f v = .ok s') : shape.given s' g = shape.given s g := by
  cases f <;>
  · obtain ⟨x, -, rfl⟩ := map_eq_ok_iff.1 h
    cases g <;> first | rfl | exact absurd rfl hne

end TokenRecord

namespace TokenSet

open TokenRecord (readFields readExtensions)

theorem legible_iff_accepts {members : List (String × Json)} : Legible members ↔
    ∀ f v, members.lookup (TokenRecord.shape.label f) = some v → TokenRecord.Field.Accepts f v := by
  constructor
  · intro h f v hv
    cases f with
    | standardValue | plainValue => trivial
    | standardType | plainType =>
        exact or_iff_not_imp_left.2 fun hnull =>
          h.types _ (by simp [TokenRecord.shape]) v (givenAt_eq_some_iff.2 ⟨hv, hnull⟩)
    | standardExtensions | plainExtensions =>
        exact or_iff_not_imp_left.2 fun hnull =>
          h.extensions _ (by simp [TokenRecord.shape]) v (givenAt_eq_some_iff.2 ⟨hv, hnull⟩)
  · intro h
    have hgiven : ∀ f v, givenAt (TokenRecord.shape.label f) members = some v →
        TokenRecord.Field.Accepts f v ∧ v ≠ .null := fun f v hv =>
      ⟨h f v (givenAt_eq_some_iff.1 hv).1, (givenAt_eq_some_iff.1 hv).2⟩
    constructor
    · refine List.forall_mem_cons.2 ⟨fun v hv => ?_, List.forall_mem_singleton.2 fun v hv => ?_⟩
      · exact (hgiven .standardType v hv).1.resolve_left (hgiven .standardType v hv).2
      · exact (hgiven .plainType v hv).1.resolve_left (hgiven .plainType v hv).2
    · refine List.forall_mem_cons.2 ⟨fun v hv => ?_, List.forall_mem_singleton.2 fun v hv => ?_⟩
      · exact (hgiven .standardExtensions v hv).1.resolve_left (hgiven .standardExtensions v hv).2
      · exact (hgiven .plainExtensions v hv).1.resolve_left (hgiven .plainExtensions v hv).2

theorem exists_readFields_iff {members : List (String × Json)}
    (hkeys : (members.map Prod.fst).Nodup) :
    (∃ fields, readFields members = .ok fields) ↔ Legible members := by
  have hfields := Json.Shape.jsonMembers_isOk_iff TokenRecord.exists_read_iff
    TokenRecord.given_of_read
    (fun hj hk => (TokenRecord.named_eq_some_iff.1 hj).trans (TokenRecord.named_eq_some_iff.1 hk).symm)
    hkeys (s := {}) (fun _ _ f _ => by cases f <;> rfl)
  have hlookup : (∀ m ∈ members, ∀ f, TokenRecord.shape.named m.1 = some f → f.Accepts m.2) ↔
      ∀ f v, members.lookup (TokenRecord.shape.label f) = some v →
        TokenRecord.Field.Accepts f v := by
    constructor
    · exact fun h f v hv => h _ ((Dict.lookup_eq_some_iff_mem hkeys).1 hv) f
        (TokenRecord.named_eq_some_iff.2 rfl)
    · intro h m hm f hf
      rw [TokenRecord.named_eq_some_iff] at hf
      exact h f m.2 ((Dict.lookup_eq_some_iff_mem hkeys).2 (hf ▸ hm))
  exact hfields.trans (hlookup.trans legible_iff_accepts.symm)

theorem tokenAt_of_legible {path t : String} {inherited : Option String}
    {members : List (String × Json)} (hkeys : (members.map Prod.fst).Nodup)
    (htype : typeUnder inherited members = some (.text t)) (ht : sameIgnoringCase t "color" = false)
    (h : Legible members) : tokenAt path inherited members = pure [] := by
  obtain ⟨fields, hfields⟩ := (exists_readFields_iff hkeys).2 h
  have hother : TokenKind.ofName (fields.type? <|> inherited) ≠ .color := by
    rw [Ne, ← isColorType_of_readFields hfields, htype, IsColorType, ht]
    exact Bool.false_ne_true
  have hnone : tokenOf path inherited fields = pure none := by
    unfold tokenOf
    split
    · rfl
    · contradiction
  rw [tokenAt, hfields]
  simp only [hnone]
  rfl

theorem tokenAt_of_not_legible {path : String} {inherited : Option String}
    {members : List (String × Json)} (hkeys : (members.map Prod.fst).Nodup)
    (h : ¬Legible members) :
    ∃ cause, (tokenAt path inherited members).outcome = .error (.token path cause) := by
  cases hfields : readFields members with
  | ok fields => exact absurd ((exists_readFields_iff hkeys).1 ⟨fields, hfields⟩) h
  | error cause =>
      rw [tokenAt, hfields]
      exact ⟨cause, rfl⟩

/-- A text says the same without a token of another kind than color, if that token is
legible. If it is not, the text is refused for it, unless it is refused already for a
reason that it has without the token too. -/
theorem read_without_other_kind {text : Draft → Draft} (htext : ColorPlace text) (trailing : Bool)
    {d d' : Draft} {tree : List (String × Json)} {keys : List String}
    {members : List (String × Json)} (htree : treeOf d = .ok tree)
    (htree' : treeOf d' = .ok (without keys tree)) (h : OtherTokenAt tree keys members) :
    (Legible members →
      TokenSet.read ⟨text d, trailing⟩ = TokenSet.read ⟨text d', trailing⟩) ∧
    (¬Legible members → ∃ e, (TokenSet.read ⟨text d, trailing⟩).outcome = .error e ∧
      ((∃ cause, e = .token (dotted keys) cause) ∨
        (TokenSet.read ⟨text d', trailing⟩).outcome = .error e)) := by
  obtain ⟨groups, t, hreaches, htoken, htype, ht⟩ := h
  have hsorted : (Json.object tree).IsSorted := by
    obtain ⟨color, -, rfl⟩ := map_eq_ok_iff.1 htree
    exact Json.isSorted_sorted (.object color)
  have hkeys : (members.map Prod.fst).Nodup := by
    cases hreaches.isSorted hsorted with
    | object hkeys _ => exact Dict.nodup_map_fst hkeys
  obtain ⟨key, rest, rfl, hkey⟩ := hreaches.exists_cons
  have hinherited : (handedDown groups).or (groupType tree none) = handedDown (groups ++ [tree]) := by
    rw [groupType_none, handedDown_append]
  have hextends := hreaches.extendsBy hsorted "" (groupType tree none)
  rw [entryTokens, if_pos htoken, hinherited] at hextends
  have hread := read_extendsBy htext trailing htree htree'
    (by rwa [groupType_without hkey rest tree])
  constructor
  · exact fun hlegible => hread.same (tokenAt_of_legible hkeys htype ht hlegible)
  · intro hlegible
    obtain ⟨cause, hcause⟩ := tokenAt_of_not_legible hkeys hlegible
    obtain ⟨e, he, hreason⟩ := hread.refused _ hcause
    exact ⟨e, he, hreason.imp_left fun heq => ⟨cause, heq⟩⟩

open Json (Printable)

def gap : Printable :=
  .object [("value", .text "8px"), ("type", .text "dimension"), ("extensions", .text "vendor")]

def colored (tree : Printable) : Printable :=
  .object [("color", tree)]

theorem gap_refused :
    (∃ cause, (TokenSet.read
        (Json.scan (Json.utf8 (colored (.object [("gap", gap)])).compact))).outcome =
      .error (.token "gap" cause)) ∧
      (TokenSet.read (Json.scan (Json.utf8 (colored (.object [])).compact))).outcome.isOk = true := by
  have hscan : ∀ p : Printable, Json.scan (Json.utf8 p.compact) = ⟨p.draft, false⟩ :=
    fun p => Json.scan_eq_of_itemText (.bare p.valueText_compact)
  have hplace : ColorPlace fun d => .object ([] ++ (Json.lexeme "color", d) :: []) none :=
    .member (Json.text_lexeme "color")
  have htree : treeOf (Printable.object [("gap", gap)]).draft = .ok [("gap", .object
      [("extensions", .text "vendor"), ("type", .text "dimension"), ("value", .text "8px")])] := by
    simp only [treeOf, asMembers, gap, Printable.draft, Printable.draftMembers, Draft.decode,
      Json.decodeMembers, Json.text_lexeme]
    rfl
  generalize hmembers : [("extensions", Json.text "vendor"), ("type", .text "dimension"),
    ("value", .text "8px")] = members at htree
  have htree' : treeOf (Printable.object []).draft =
      .ok (without ["gap"] [("gap", .object members)]) :=
    rfl
  have hother : OtherTokenAt [("gap", .object members)] ["gap"] members := by
    subst hmembers
    exact ⟨[], "dimension", .entry (by decide) (List.mem_singleton_self _), rfl, rfl, by decide⟩
  have hlegible : ¬Legible members := by
    subst hmembers
    intro h
    obtain ⟨modify, hmodify⟩ := h.extensions "extensions" (by decide) (.text "vendor") rfl
    cases hmodify
  have hok : (TokenSet.read ⟨(colored (.object [])).draft, false⟩).outcome.isOk = true := by
    decide +kernel
  obtain ⟨e, he, ⟨cause, rfl⟩ | herror⟩ :=
    (read_without_other_kind hplace false htree htree' hother).2 hlegible
  · rw [hscan, hscan]
    exact ⟨⟨cause, he⟩, hok⟩
  · change (TokenSet.read ⟨(colored (.object [])).draft, false⟩).outcome = _ at herror
    rw [herror] at hok
    cases hok

end TokenSet

end Swatchbook

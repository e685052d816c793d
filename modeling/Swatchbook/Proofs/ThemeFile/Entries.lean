import Swatchbook.Proofs.Dict
import Swatchbook.Proofs.ThemeFile.Flattening

/-! The entries of a tree of colors, found by walking from it through groups. A type is
handed down from the nearest group that gives one, and which tokens are colors, and what
their values are, is read off their members. -/
namespace Swatchbook

namespace TokenRecord

theorem holds_standardValue : shape.Holds Field.standardValue "$value"
    Fields.standardValue (orNull .ok) :=
  .of_set (fun _ => named_eq_some_iff) (fun _ => rfl) (fun _ _ => ⟨_, rfl, fun _ => rfl⟩)
    fun _ g _ hne => by
      cases g <;> first | exact absurd rfl hne | exact ⟨_, _, _, rfl, fun _ => rfl⟩

theorem holds_plainValue : shape.Holds Field.plainValue "value" Fields.plainValue (orNull .ok) :=
  .of_set (fun _ => named_eq_some_iff) (fun _ => rfl) (fun _ _ => ⟨_, rfl, fun _ => rfl⟩)
    fun _ g _ hne => by
      cases g <;> first | exact absurd rfl hne | exact ⟨_, _, _, rfl, fun _ => rfl⟩

end TokenRecord

namespace TokenSet

open Json (Reading)
open TokenRecord (readFields)

/-- What stands under a key, unless it is null. -/
def givenAt (key : String) (members : List (String × Json)) : Option Json :=
  match members.lookup key with
  | some .null => none
  | other => other

def declaredType (members : List (String × Json)) : Option Json :=
  givenAt "$type" members <|> givenAt "type" members

def declaredValue (members : List (String × Json)) : Option Json :=
  givenAt "$value" members <|> givenAt "value" members

def typeUnder (inherited : Option String) (members : List (String × Json)) : Option Json :=
  declaredType members <|> inherited.map .text

/-- A type that makes a token a color: none at all, or `color` in letters of any case. -/
def IsColorType : Option Json → Prop
  | none => True
  | some (.text t) => sameIgnoringCase t "color" = true
  | some _ => False

/-- An entry below a group: the keys that lead to it, the groups passed on the way with the
nearest first, and what stands there. Keys that start with a dollar sign lead nowhere, and
a token is not passed. -/
inductive Reaches : List (String × Json) → List String → List (List (String × Json)) → Json → Prop
  | entry {group : List (String × Json)} {key : String} {v : Json}
      (hkey : key.toList.head? ≠ some '$') (h : (key, v) ∈ group) : Reaches group [key] [] v
  | through {group inner : List (String × Json)} {key : String} {keys : List String}
      {groups : List (List (String × Json))} {v : Json} (hkey : key.toList.head? ≠ some '$')
      (h : (key, .object inner) ∈ group) (hinner : isToken inner = false)
      (hv : Reaches inner keys groups v) : Reaches group (key :: keys) (groups ++ [inner]) v

/-- The type given by the nearest of some groups that gives one as a text. -/
def handedDown (groups : List (List (String × Json))) : Option String :=
  groups.findSome? (textAt "$type")

/-- A color token of a tree. -/
def ColorTokenAt (tree : List (String × Json)) (keys : List String)
    (members : List (String × Json)) : Prop :=
  ∃ groups, Reaches tree keys groups (.object members) ∧ isToken members = true ∧
    IsColorType (typeUnder (handedDown (groups ++ [tree])) members)

/-! ### Leaves and walks -/

theorem groupType_eq (members : List (String × Json)) (inherited : Option String) :
    groupType members inherited = (textAt "$type" members).or inherited := by
  unfold groupType textAt
  cases members.lookup "$type" with
  | none => rfl
  | some v => cases v <;> rfl

theorem handedDown_append (groups groups' : List (List (String × Json))) :
    handedDown (groups ++ groups') = (handedDown groups).or (handedDown groups') := by
  rw [handedDown, List.findSome?_append]
  rfl

theorem handedDown_singleton (group : List (String × Json)) :
    handedDown [group] = textAt "$type" group := by
  rw [handedDown, List.findSome?_singleton]

theorem groupType_none (tree : List (String × Json)) : groupType tree none = handedDown [tree] := by
  rw [groupType_eq, handedDown_singleton, Option.or_none]

theorem Reaches.of_subset {group group' : List (String × Json)} {keys : List String}
    {groups : List (List (String × Json))} {v : Json} (h : Reaches group keys groups v)
    (hsubset : group ⊆ group') : Reaches group' keys groups v := by
  cases h with
  | entry hkey h => exact .entry hkey (hsubset h)
  | through hkey h hinner hv => exact .through hkey (hsubset h) hinner hv

mutual

theorem reaches_of_mem_entryLeaves {inherited : Option String} {l : Leaf} {group : List (String × Json)}
    {key : String} (hkey : key.toList.head? ≠ some '$') : {v : Json} → (key, v) ∈ group →
      l ∈ entryLeaves inherited v →
        ∃ groups, Reaches group (key :: l.keys) groups (.object l.members) ∧
          isToken l.members = true ∧ l.inherited = (handedDown groups).or inherited
  | .object members, hv, h => by
      rw [entryLeaves] at h
      split at h
      · rename_i htoken
        rw [List.mem_singleton] at h
        subst h
        exact ⟨[], .entry hkey hv, htoken, rfl⟩
      · rename_i hgroup
        obtain ⟨groups, hreaches, htoken, htype⟩ := reaches_of_mem_groupLeaves h
        refine ⟨groups ++ [members], .through hkey hv (by simpa using hgroup) hreaches, htoken, ?_⟩
        rw [htype, groupType_eq, handedDown_append, handedDown_singleton, Option.or_assoc]
  | .null, _, h | .bool _, _, h | .number _, _, h | .text _, _, h | .array _, _, h => by
      unfold entryLeaves at h
      cases h

theorem reaches_of_mem_groupLeaves {type : Option String} {l : Leaf} :
    {group : List (String × Json)} → l ∈ groupLeaves type group →
      ∃ groups, Reaches group l.keys groups (.object l.members) ∧ isToken l.members = true ∧
        l.inherited = (handedDown groups).or type
  | [], h => by cases h
  | (key, entry) :: rest, h => by
      rw [groupLeaves] at h
      split at h
      · obtain ⟨groups, hreaches, hleaf⟩ := reaches_of_mem_groupLeaves h
        exact ⟨groups, hreaches.of_subset (List.subset_cons_self ..), hleaf⟩
      · rename_i hkey
        rcases List.mem_append.1 h with h | h
        · obtain ⟨l', hl', rfl⟩ := List.mem_map.1 h
          exact reaches_of_mem_entryLeaves hkey (List.mem_cons_self ..) hl'
        · obtain ⟨groups, hreaches, hleaf⟩ := reaches_of_mem_groupLeaves h
          exact ⟨groups, hreaches.of_subset (List.subset_cons_self ..), hleaf⟩

end

theorem mem_groupLeaves_of_mem (type : Option String) {group : List (String × Json)} {key : String}
    {v : Json} {l : Leaf} (hkey : key.toList.head? ≠ some '$') (hv : (key, v) ∈ group)
    (h : l ∈ entryLeaves type v) : l.under key ∈ groupLeaves type group := by
  induction group with
  | nil => cases hv
  | cons m rest ih =>
      rw [groupLeaves]
      rcases List.mem_cons.1 hv with rfl | hv
      · rw [if_neg hkey]
        exact List.mem_append_left _ (List.mem_map_of_mem h)
      · split
        · exact ih hv
        · exact List.mem_append_right _ (ih hv)

theorem Reaches.mem_groupLeaves {group : List (String × Json)} {keys : List String}
    {groups : List (List (String × Json))} {members : List (String × Json)}
    (h : Reaches group keys groups (.object members)) (htoken : isToken members = true)
    (type : Option String) :
    ⟨keys, (handedDown groups).or type, members⟩ ∈ groupLeaves type group := by
  generalize hv : Json.object members = v at h
  induction h generalizing type with
  | entry hkey h =>
      subst hv
      refine mem_groupLeaves_of_mem type (l := ⟨[], type, members⟩) hkey h ?_
      rw [entryLeaves, if_pos htoken]
      exact List.mem_singleton_self _
  | @through group inner key keys groups v hkey h hinner _ ih =>
      have hleaf := mem_groupLeaves_of_mem type hkey h
        (l := ⟨keys, (handedDown groups).or (groupType inner type), members⟩) (by
          rw [entryLeaves, if_neg (by rw [hinner]; exact Bool.false_ne_true)]
          exact ih _ hv)
      rwa [groupType_eq, ← Option.or_assoc, ← handedDown_singleton, ← handedDown_append] at hleaf

/-! ### Fields and members -/

theorem orNull_of_ne_null {α : Type} {read : Json → Except Json.Mismatch α} {v : Json}
    (h : v ≠ .null) : TokenRecord.orNull read v = (read v).map some := by
  cases v <;> first | rfl | exact absurd rfl h

theorem givenAt_eq_some_iff {key : String} {members : List (String × Json)} {v : Json} :
    givenAt key members = some v ↔ members.lookup key = some v ∧ v ≠ .null := by
  unfold givenAt
  cases members.lookup key with
  | none => simp
  | some w => cases w <;> simp <;> rintro rfl <;> simp

theorem exists_of_holds {α : Type} {f : TokenRecord.Field} {key : String}
    {get : TokenRecord.Fields → Option (Option α)} {read : Json → Except Json.Mismatch α}
    {members : List (String × Json)} {fields : TokenRecord.Fields}
    (hf : TokenRecord.shape.Holds f key get (TokenRecord.orNull read)) (hs : get {} = none)
    (h : readFields members = .ok fields) :
    givenAt key members = none ∧ (get fields).join = none ∨
      ∃ v x, givenAt key members = some v ∧ read v = .ok x ∧ (get fields).join = some x := by
  rcases hf.of_jsonMembers h hs with ⟨hlookup, hget⟩ | ⟨v, x, hlookup, hx, hget⟩
  · exact .inl ⟨by rw [givenAt, hlookup], by rw [hget, Option.join_none]⟩
  · rw [hget, Option.join_some]
    by_cases hv : v = .null
    · subst hv
      cases hx
      exact .inl ⟨by rw [givenAt, hlookup], rfl⟩
    · rw [orNull_of_ne_null hv] at hx
      obtain ⟨y, hy, rfl⟩ := map_eq_ok_iff.1 hx
      exact .inr ⟨v, y, givenAt_eq_some_iff.2 ⟨hlookup, hv⟩, hy, rfl⟩

theorem givenAt_eq_map_textAt {f : TokenRecord.Field} {key : String}
    {get : TokenRecord.Fields → Option (Option String)} {members : List (String × Json)}
    {fields : TokenRecord.Fields}
    (hf : TokenRecord.shape.Holds f key get (TokenRecord.orNull TokenRecord.asText))
    (hs : get {} = none) (h : readFields members = .ok fields) :
    givenAt key members = (textAt key members).map .text := by
  rw [← join_eq_textAt hf hs h]
  rcases exists_of_holds hf hs h with ⟨hgiven, hget⟩ | ⟨v, x, hgiven, hx, hget⟩
  · rw [hgiven, hget, Option.map_none]
  · rw [hgiven, hget, Option.map_some]
    cases v with
    | text =>
        cases hx
        rfl
    | _ => cases hx

theorem declaredType_of_readFields {members : List (String × Json)} {fields : TokenRecord.Fields}
    (h : readFields members = .ok fields) :
    declaredType members = (ownType members).map .text := by
  unfold declaredType ownType
  rw [givenAt_eq_map_textAt TokenRecord.holds_standardType rfl h,
    givenAt_eq_map_textAt TokenRecord.holds_plainType rfl h]
  cases textAt "$type" members <;> rfl

theorem isColorType_map_text {type : Option String} :
    IsColorType (type.map .text) ↔ TokenKind.ofName type = .color := by
  cases type with
  | none => exact iff_of_true trivial rfl
  | some t =>
      rw [Option.map_some, IsColorType, TokenKind.ofName]
      split <;> simp_all

theorem isColorType_of_readFields {members : List (String × Json)} {fields : TokenRecord.Fields}
    (h : readFields members = .ok fields) (inherited : Option String) :
    IsColorType (typeUnder inherited members) ↔
      TokenKind.ofName (fields.type? <|> inherited) = .color := by
  rw [type?_of_readFields h, ← isColorType_map_text, typeUnder, declaredType_of_readFields h]
  cases ownType members <;> rfl

theorem join_eq_givenAt {f : TokenRecord.Field} {key : String}
    {get : TokenRecord.Fields → Option (Option Json)} {members : List (String × Json)}
    {fields : TokenRecord.Fields}
    (hf : TokenRecord.shape.Holds f key get (TokenRecord.orNull .ok))
    (hs : get {} = none) (h : readFields members = .ok fields) :
    (get fields).join = givenAt key members := by
  rcases exists_of_holds hf hs h with ⟨hgiven, hget⟩ | ⟨v, x, hgiven, hx, hget⟩
  · rw [hgiven, hget]
  · cases hx
    rw [hgiven, hget]

theorem value?_of_readFields {members : List (String × Json)} {fields : TokenRecord.Fields}
    (h : readFields members = .ok fields) : fields.value? = declaredValue members := by
  unfold TokenRecord.Fields.value? declaredValue
  rw [join_eq_givenAt TokenRecord.holds_standardValue rfl h,
    join_eq_givenAt TokenRecord.holds_plainValue rfl h]

theorem text_of_tokenOf {path : String} {inherited : Option String} {fields : TokenRecord.Fields}
    {token? : Option Token} (h : (tokenOf path inherited fields).outcome = .ok token?)
    (hkind : TokenKind.ofName (fields.type? <|> inherited) = .color) :
    ∃ text t, fields.value? = some (.text text) ∧ token? = some t ∧ t.value = .classify text := by
  unfold tokenOf at h
  rw [hkind] at h
  simp only at h
  split at h
  · rename_i text hvalue
    split at h
    · cases h
      exact ⟨text, _, hvalue, rfl, rfl⟩
    · rw [Logged.outcome_bind] at h
      obtain ⟨a, -, h⟩ := bind_eq_ok_iff.1 h
      cases h
      exact ⟨text, _, hvalue, rfl, rfl⟩
  · cases h

theorem exists_readFields_of_tokenAt {path : String} {inherited : Option String}
    {members : List (String × Json)} {tokens : List (String × Token)}
    (h : (tokenAt path inherited members).outcome = .ok tokens) :
    ∃ fields token?, readFields members = .ok fields ∧
      (tokenOf path inherited fields).outcome = .ok token? ∧
        tokens = token?.toList.map fun t => (path, t) := by
  unfold tokenAt at h
  split at h
  · cases h
  · rename_i fields hfields
    rw [Logged.outcome_bind] at h
    obtain ⟨token?, htoken, h⟩ := bind_eq_ok_iff.1 h
    cases h
    exact ⟨fields, token?, hfields, htoken, rfl⟩

/-! ### Accepted trees -/

theorem exists_entryTokens_of_mem {path : String} {type : Option String} {group : List (String × Json)}
    {tokens : List (String × Token)} (h : (groupTokens path type group).outcome = .ok tokens)
    {key : String} {v : Json} (hkey : key.toList.head? ≠ some '$') (hv : (key, v) ∈ group) :
    ∃ here, (entryTokens (pathTo path key) type v).outcome = .ok here := by
  induction group generalizing tokens with
  | nil => cases hv
  | cons m rest ih =>
      rw [groupTokens] at h
      split at h
      · rename_i hdollar
        rcases List.mem_cons.1 hv with rfl | hv
        · exact absurd hdollar hkey
        · exact ih h hv
      · simp only [Logged.outcome_bind] at h
        obtain ⟨here, hhere, h⟩ := bind_eq_ok_iff.1 h
        obtain ⟨others, hothers, -⟩ := bind_eq_ok_iff.1 h
        rcases List.mem_cons.1 hv with rfl | hv
        · exact ⟨here, hhere⟩
        · exact ih hothers hv

theorem Reaches.exists_entryTokens {group : List (String × Json)} {keys : List String}
    {groups : List (List (String × Json))} {v : Json} (h : Reaches group keys groups v)
    {path : String} {type : Option String} {tokens : List (String × Token)}
    (hok : (groupTokens path type group).outcome = .ok tokens) :
    ∃ here, (entryTokens (keys.foldl pathTo path) ((handedDown groups).or type) v).outcome =
      .ok here := by
  induction h generalizing path type tokens with
  | entry hkey h => exact exists_entryTokens_of_mem hok hkey h
  | @through group inner key keys groups v hkey h hinner _ ih =>
      obtain ⟨here, hhere⟩ := exists_entryTokens_of_mem hok hkey h
      rw [entryTokens, if_neg (by rw [hinner]; exact Bool.false_ne_true)] at hhere
      rw [handedDown_append, Option.or_assoc, handedDown_singleton, ← groupType_eq]
      exact ih hhere

theorem exists_of_mem_flattened {path : String} {ls : List Leaf} {tokens : List (String × Token)}
    (h : List.Forall₂ (FlattenedTo path) ls tokens) {e : String × Token} (he : e ∈ tokens) :
    ∃ l ∈ ls, FlattenedTo path l e := by
  induction h with
  | nil => cases he
  | cons hl _ ih =>
      rcases List.mem_cons.1 he with rfl | he
      · exact ⟨_, List.mem_cons_self .., hl⟩
      · obtain ⟨l, hmem, hle⟩ := ih he
        exact ⟨l, List.mem_cons_of_mem _ hmem, hle⟩

theorem exists_groupTokens_of_read {r : Reading} {tree : List (String × Json)} {s : TokenSet}
    (htree : colorTree? r = some tree) (h : (TokenSet.read r).outcome = .ok s) :
    ∃ tokens, (groupTokens "" (groupType tree none) tree).outcome = .ok tokens ∧
      s.tokens = some (Dict.ofList tokens) := by
  obtain ⟨fields, hfields, htokens, -⟩ := read_eq_ok h
  rw [colorTree?, hfields] at htree
  obtain ⟨color, hcolor, rfl⟩ := Option.map_eq_some_iff.1 htree
  rcases htokens with ⟨hnone, -⟩ | ⟨color', d, hcolor', hflatten, hd⟩
  · rw [hnone] at hcolor
    cases hcolor
  · rw [hcolor'] at hcolor
    cases hcolor
    unfold flatten at hflatten
    simp only [Logged.outcome_bind] at hflatten
    obtain ⟨tokens, htokens, hflatten⟩ := bind_eq_ok_iff.1 hflatten
    cases hflatten
    exact ⟨tokens, htokens, hd⟩

section Accepted

variable {tree : List (String × Json)} {tokens : List (String × Token)}
  (hok : (groupTokens "" (groupType tree none) tree).outcome = .ok tokens)

include hok

theorem exists_tokenOf_of_reaches {keys : List String} {groups : List (List (String × Json))}
    {members : List (String × Json)} (h : Reaches tree keys groups (.object members))
    (htoken : isToken members = true) : ∃ fields token?, readFields members = .ok fields ∧
      (tokenOf (dotted keys) (handedDown (groups ++ [tree])) fields).outcome = .ok token? := by
  obtain ⟨here, hhere⟩ := h.exists_entryTokens hok
  rw [entryTokens, if_pos htoken, groupType_none, ← handedDown_append] at hhere
  obtain ⟨fields, token?, hfields, htoken?, -⟩ := exists_readFields_of_tokenAt hhere
  exact ⟨fields, token?, hfields, htoken?⟩

/-- The color tokens to which a walk leads are the color leaves. -/
theorem colorTokenAt_iff {keys : List String} {members : List (String × Json)} :
    ColorTokenAt tree keys members ↔ ∃ inherited, ⟨keys, inherited, members⟩ ∈ colorLeaves tree := by
  have hcolor : ∀ groups, Reaches tree keys groups (.object members) → isToken members = true →
      (IsColorType (typeUnder (handedDown (groups ++ [tree])) members) ↔
        Leaf.isColor ⟨keys, handedDown (groups ++ [tree]), members⟩ = true) := by
    intro groups hreaches htoken
    obtain ⟨fields, -, hfields, -⟩ := exists_tokenOf_of_reaches hok hreaches htoken
    rw [isColorType_of_readFields hfields, type?_of_readFields hfields]
    exact decide_eq_true_iff.symm
  simp only [colorLeaves, List.mem_filter]
  constructor
  · rintro ⟨groups, hreaches, htoken, htype⟩
    have hleaf := hreaches.mem_groupLeaves htoken (groupType tree none)
    rw [groupType_none, ← handedDown_append] at hleaf
    exact ⟨_, groupType_none tree ▸ hleaf, (hcolor groups hreaches htoken).1 htype⟩
  · rintro ⟨inherited, hleaf, htype⟩
    obtain ⟨groups, hreaches, htoken, hinherited⟩ := reaches_of_mem_groupLeaves hleaf
    simp only [groupType_none, ← handedDown_append] at hinherited
    subst hinherited
    exact ⟨groups, hreaches, htoken, (hcolor groups hreaches htoken).2 htype⟩

theorem exists_tokenOf_of_get? {name : String} {t : Token}
    (ht : (Dict.ofList tokens).get? name = some t) : ∃ keys members inherited fields,
      ColorTokenAt tree keys members ∧ dotted keys = name ∧ readFields members = .ok fields ∧
        TokenKind.ofName (fields.type? <|> inherited) = .color ∧
        (tokenOf name inherited fields).outcome = .ok (some t) := by
  obtain ⟨l, hl, hname, htoken⟩ :=
    exists_of_mem_flattened (groupTokens_eq_ok hok) (Dict.mem_of_get?_ofList ht)
  obtain ⟨fields, token?, hfields, htoken?, hsingle⟩ := exists_readFields_of_tokenAt htoken
  have hcolor : TokenKind.ofName (fields.type? <|> l.inherited) = .color := by
    rw [type?_of_readFields hfields]
    exact of_decide_eq_true (List.mem_filter.1 hl).2
  obtain ⟨t', rfl⟩ := Option.isSome_iff_exists.1 ((isSome_of_tokenOf htoken?).2 hcolor)
  cases hsingle
  exact ⟨l.keys, l.members, l.inherited, fields, (colorTokenAt_iff hok).2 ⟨l.inherited, hl⟩,
    hname.symm, hfields, hcolor, htoken?⟩

theorem exists_colorTokenAt_of_get? {name : String} {t : Token}
    (ht : (Dict.ofList tokens).get? name = some t) : ∃ keys members text,
      ColorTokenAt tree keys members ∧ dotted keys = name ∧
        declaredValue members = some (.text text) ∧ t.value = .classify text := by
  obtain ⟨keys, members, inherited, fields, hat, hname, hfields, hcolor, htoken⟩ :=
    exists_tokenOf_of_get? hok ht
  obtain ⟨text, t', hvalue, heq, hclassify⟩ := text_of_tokenOf htoken hcolor
  cases heq
  exact ⟨keys, members, text, hat, hname, (value?_of_readFields hfields).symm.trans hvalue, hclassify⟩

theorem mem_keys_iff_colorTokenAt {name : String} : name ∈ (Dict.ofList tokens).keys ↔
    ∃ keys members, ColorTokenAt tree keys members ∧ dotted keys = name := by
  rw [Dict.mem_keys_ofList, names_of_flattenedTo (groupTokens_eq_ok hok), List.mem_map]
  constructor
  · rintro ⟨l, hl, hname⟩
    exact ⟨l.keys, l.members, (colorTokenAt_iff hok).2 ⟨l.inherited, hl⟩, hname⟩
  · rintro ⟨keys, members, hat, hname⟩
    obtain ⟨inherited, hl⟩ := (colorTokenAt_iff hok).1 hat
    exact ⟨_, hl, hname⟩

theorem exists_text_of_colorTokenAt {keys : List String} {members : List (String × Json)}
    (h : ColorTokenAt tree keys members) : ∃ text, declaredValue members = some (.text text) := by
  obtain ⟨groups, hreaches, htoken, htype⟩ := h
  obtain ⟨fields, token?, hfields, htoken?⟩ := exists_tokenOf_of_reaches hok hreaches htoken
  obtain ⟨text, -, hvalue, -⟩ :=
    text_of_tokenOf htoken? ((isColorType_of_readFields hfields _).1 htype)
  exact ⟨text, (value?_of_readFields hfields).symm.trans hvalue⟩

end Accepted

theorem ColorTokenAt.members_unique {tree : List (String × Json)} (hkeys : Increasing tree)
    (hsorted : ∀ m ∈ tree, m.2.IsSorted) {keys : List String} {members members' : List (String × Json)}
    (h : ColorTokenAt tree keys members) (h' : ColorTokenAt tree keys members') :
    members = members' := by
  obtain ⟨groups, hreaches, htoken, -⟩ := h
  obtain ⟨groups', hreaches', htoken', -⟩ := h'
  have hleaf := hreaches.mem_groupLeaves htoken none
  have hleaf' := hreaches'.mem_groupLeaves htoken' none
  have hnodup : ((groupLeaves none tree).map Leaf.keys).Nodup := nodup_groupLeaves hkeys hsorted
  exact congrArg Leaf.members (List.inj_on_of_nodup_map hnodup hleaf hleaf' rfl)

/-- The tokens of an accepted tree are its color tokens: there is one under a name exactly
when some color token comes to that name, and where only one does, its value is read from
the text that this token declares. A tree is refused when an entry is neither a token nor a
group, or a color token has no text for its value. -/
theorem tokens_of_walk {r : Reading} {tree : List (String × Json)} (htree : colorTree? r = some tree) :
    (∀ s, (TokenSet.read r).outcome = .ok s → ∃ d, s.tokens = some d ∧
      (∀ name, name ∈ d.keys ↔ ∃ keys members, ColorTokenAt tree keys members ∧ dotted keys = name) ∧
      ∀ keys members, ColorTokenAt tree keys members →
        (∀ keys' members', ColorTokenAt tree keys' members' → dotted keys' = dotted keys →
          keys' = keys) →
        ∃ text t, declaredValue members = some (.text text) ∧ d.get? (dotted keys) = some t ∧
          t.value = .classify text) ∧
    (∀ keys groups v, Reaches tree keys groups v → (∀ members, v ≠ .object members) →
      ∃ e, (TokenSet.read r).outcome = .error e) ∧
    ∀ keys members, ColorTokenAt tree keys members →
      (∀ text, declaredValue members ≠ some (.text text)) →
        ∃ e, (TokenSet.read r).outcome = .error e := by
  have hsorted : Increasing tree ∧ ∀ m ∈ tree, m.2.IsSorted := by
    obtain ⟨fields, -, hcolor⟩ := Option.bind_eq_some_iff.1 htree
    obtain ⟨color, -, rfl⟩ := Option.map_eq_some_iff.1 hcolor
    exact ⟨Json.increasing_sortedMembers color, Json.isSorted_of_mem_sortedMembers color⟩
  refine ⟨fun s hs => ?_, fun keys groups v hreaches hv => ?_, fun keys members hat hvalue => ?_⟩
  · obtain ⟨tokens, hok, hd⟩ := exists_groupTokens_of_read htree hs
    refine ⟨Dict.ofList tokens, hd, fun name => mem_keys_iff_colorTokenAt hok,
      fun keys members hat hunique => ?_⟩
    have hname : dotted keys ∈ (Dict.ofList tokens).keys :=
      (mem_keys_iff_colorTokenAt hok).2 ⟨keys, members, hat, rfl⟩
    obtain ⟨t, ht⟩ := Option.isSome_iff_exists.1 (Dict.get?_isSome_iff.2 hname)
    obtain ⟨keys', members', text, hat', hdotted, htext, hclassify⟩ :=
      exists_colorTokenAt_of_get? hok ht
    obtain rfl := hunique keys' members' hat' hdotted
    have hsame := hat.members_unique hsorted.1 hsorted.2 hat'
    exact ⟨text, t, hsame ▸ htext, ht, hclassify⟩
  · cases h : (TokenSet.read r).outcome with
    | error e => exact ⟨e, rfl⟩
    | ok s =>
        obtain ⟨tokens, hok, -⟩ := exists_groupTokens_of_read htree h
        obtain ⟨here, hhere⟩ := hreaches.exists_entryTokens hok
        cases v with
        | object members => exact absurd rfl (hv members)
        | _ =>
            unfold entryTokens at hhere
            cases hhere
  · cases h : (TokenSet.read r).outcome with
    | error e => exact ⟨e, rfl⟩
    | ok s =>
        obtain ⟨tokens, hok, -⟩ := exists_groupTokens_of_read htree h
        obtain ⟨text, htext⟩ := exists_text_of_colorTokenAt hok hat
        exact absurd htext (hvalue text)

def shadowed : Reading :=
  Json.scan ("\x7b\"color\":\x7b\"$type\":\"dimension\",\"brand\":\x7b\"$type\":\"Color\"," ++
    "\"deep\":\x7b\"$type\":7,\"ink\":\x7b\"value\":\"#000\"\x7d\x7d\x7d," ++
    "\"gap\":\x7b\"value\":\"8px\"\x7d\x7d\x7d").toUTF8.toList

theorem shadowed_tokens : ∃ tree s, colorTree? shadowed = some tree ∧
    (TokenSet.read shadowed).outcome = .ok s ∧
    (∃ keys members, ColorTokenAt tree keys members ∧ dotted keys = "brand.deep.ink") ∧
      ¬∃ keys members, ColorTokenAt tree keys members ∧ dotted keys = "gap" := by
  have hread : (TokenSet.read shadowed).outcome.toOption.map
      (fun s => s.tokens.map Dict.keys) = some (some ["brand.deep.ink"]) := by decide +kernel
  have hcolor : (colorTree? shadowed).isSome = true := by decide +kernel
  obtain ⟨s, hs, htokens⟩ := exists_of_toOption hread
  obtain ⟨tree, htree⟩ := Option.isSome_iff_exists.1 hcolor
  obtain ⟨d, hd, hnames, -⟩ := (tokens_of_walk htree).1 s hs
  rw [hd, Option.map_some, Option.some.injEq] at htokens
  refine ⟨tree, s, htree, hs, (hnames _).1 (by rw [htokens]; decide), fun hgap => ?_⟩
  have hmem := (hnames _).2 hgap
  rw [htokens] at hmem
  revert hmem
  decide

end TokenSet

end Swatchbook

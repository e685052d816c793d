import Mathlib.Data.List.Forall2
import Mathlib.Data.List.Nodup
import Swatchbook.Proofs.Json.Sorted
import Swatchbook.Proofs.ThemeFile.Record
import Swatchbook.ThemeFile.TokenSet

/-! The tokens in a tree of colors, each with the keys that lead to it. Flattening gives
one entry for each of them whose kind is color, in the order of the tree. -/
namespace Swatchbook

namespace TokenRecord

theorem named_eq_some_iff {k : String} {f : Field} : shape.named k = some f ↔ k = shape.label f := by
  unfold shape
  cases f <;>
  · simp only
    split <;> simp_all

theorem holds_standardType : shape.Holds Field.standardType "$type"
    Fields.standardType (orNull asText) :=
  .of_set (fun _ => named_eq_some_iff) (fun _ => rfl) (fun _ _ => ⟨_, rfl, fun _ => rfl⟩)
    fun _ g _ hne => by
      cases g <;> first | exact absurd rfl hne | exact ⟨_, _, _, rfl, fun _ => rfl⟩

theorem holds_plainType : shape.Holds Field.plainType "type" Fields.plainType (orNull asText) :=
  .of_set (fun _ => named_eq_some_iff) (fun _ => rfl) (fun _ _ => ⟨_, rfl, fun _ => rfl⟩)
    fun _ g _ hne => by
      cases g <;> first | exact absurd rfl hne | exact ⟨_, _, _, rfl, fun _ => rfl⟩

end TokenRecord

namespace TokenSet

open TokenRecord (readFields)

def textAt (key : String) (members : List (String × Json)) : Option String :=
  match members.lookup key with
  | some (.text s) => some s
  | _ => none

def ownType (members : List (String × Json)) : Option String :=
  textAt "$type" members <|> textAt "type" members

theorem join_eq_textAt {f : TokenRecord.Field} {key : String}
    {get : TokenRecord.Fields → Option (Option String)} {members : List (String × Json)}
    {fields : TokenRecord.Fields}
    (hf : TokenRecord.shape.Holds f key get (TokenRecord.orNull TokenRecord.asText))
    (hs : get {} = none) (h : readFields members = .ok fields) :
    (get fields).join = textAt key members := by
  unfold textAt
  rcases hf.of_jsonMembers h hs with ⟨hlookup, hget⟩ | ⟨v, x, hlookup, hx, hget⟩
  · rw [hlookup, hget]
    rfl
  · rw [hlookup, hget]
    cases v with
    | null =>
        cases hx
        rfl
    | text t =>
        cases hx
        rfl
    | _ => cases hx

theorem type?_of_readFields {members : List (String × Json)} {fields : TokenRecord.Fields}
    (h : readFields members = .ok fields) : fields.type? = ownType members := by
  unfold TokenRecord.Fields.type? ownType
  rw [join_eq_textAt TokenRecord.holds_standardType rfl h,
    join_eq_textAt TokenRecord.holds_plainType rfl h]

/-- A token in a tree: the keys that lead to it, the type that its groups hand down, and
its members. -/
structure Leaf where
  keys : List String
  inherited : Option String
  members : List (String × Json)

namespace Leaf

def under (key : String) (l : Leaf) : Leaf :=
  { l with keys := key :: l.keys }

def kind (l : Leaf) : TokenKind :=
  TokenKind.ofName (ownType l.members <|> l.inherited)

def isColor (l : Leaf) : Bool :=
  l.kind = .color

end Leaf

mutual

def entryLeaves (inherited : Option String) : Json → List Leaf
  | .object members =>
    if isToken members then [⟨[], inherited, members⟩]
    else groupLeaves (groupType members inherited) members
  | _ => []

def groupLeaves (type : Option String) : List (String × Json) → List Leaf
  | [] => []
  | (key, entry) :: rest =>
    if key.toList.head? = some '$' then groupLeaves type rest
    else (entryLeaves type entry).map (Leaf.under key) ++ groupLeaves type rest

end

def colorLeaves (tree : List (String × Json)) : List Leaf :=
  (groupLeaves (groupType tree none) tree).filter Leaf.isColor

/-! ### Flattened tokens -/

/-- An entry that flattening gives for a token below the given path. -/
structure FlattenedTo (path : String) (l : Leaf) (e : String × Token) : Prop where
  name : e.1 = l.keys.foldl pathTo path
  token : (tokenAt e.1 l.inherited l.members).outcome = .ok [e]

theorem isSome_of_tokenOf {path : String} {inherited : Option String} {fields : TokenRecord.Fields}
    {token? : Option Token} (h : (tokenOf path inherited fields).outcome = .ok token?) :
    token?.isSome ↔ TokenKind.ofName (fields.type? <|> inherited) = .color := by
  unfold tokenOf at h
  split at h
  · rename_i hkind
    cases h
    rw [hkind]
    simp
  · rename_i hkind
    rw [hkind]
    split at h
    · split at h
      · cases h
        simp
      · rw [Logged.outcome_bind] at h
        obtain ⟨a, -, h⟩ := bind_eq_ok_iff.1 h
        cases h
        simp
    · cases h

theorem tokenAt_eq_ok {path : String} {inherited : Option String} {members : List (String × Json)}
    {tokens : List (String × Token)}
    (h : (tokenAt path inherited members).outcome = .ok tokens) :
    List.Forall₂ (FlattenedTo path) ([⟨[], inherited, members⟩].filter Leaf.isColor) tokens := by
  unfold tokenAt at h
  split at h
  · cases h
  · rename_i fields hfields
    rw [Logged.outcome_bind] at h
    obtain ⟨token?, htoken, h⟩ := bind_eq_ok_iff.1 h
    have hsome : token?.isSome = Leaf.isColor ⟨[], inherited, members⟩ := by
      rw [Bool.eq_iff_iff, isSome_of_tokenOf htoken, type?_of_readFields hfields]
      exact decide_eq_true_iff.symm
    rw [List.filter_cons, ← hsome]
    cases token? with
    | none =>
        cases h
        exact .nil
    | some t =>
        cases h
        refine .cons ⟨rfl, ?_⟩ .nil
        simp only [tokenAt, hfields, Logged.outcome_bind, htoken]
        rfl

mutual

theorem entryTokens_eq_ok {path : String} {inherited : Option String} {tokens : List (String × Token)} :
    {v : Json} → (entryTokens path inherited v).outcome = .ok tokens →
      List.Forall₂ (FlattenedTo path) ((entryLeaves inherited v).filter Leaf.isColor) tokens
  | .object members, h => by
      rw [entryTokens] at h
      rw [entryLeaves]
      split at h
      · rename_i htoken
        rw [if_pos htoken]
        exact tokenAt_eq_ok h
      · rename_i htoken
        rw [if_neg htoken]
        exact groupTokens_eq_ok h
  | .null, h | .bool _, h | .number _, h | .text _, h | .array _, h => by
      unfold entryTokens at h
      cases h

theorem groupTokens_eq_ok {path : String} {type : Option String} {tokens : List (String × Token)} :
    {members : List (String × Json)} → (groupTokens path type members).outcome = .ok tokens →
      List.Forall₂ (FlattenedTo path) ((groupLeaves type members).filter Leaf.isColor) tokens
  | [], h => by
      cases h
      exact .nil
  | (key, entry) :: rest, h => by
      rw [groupTokens] at h
      rw [groupLeaves]
      split at h
      · rename_i hkey
        rw [if_pos hkey]
        exact groupTokens_eq_ok h
      · rename_i hkey
        rw [if_neg hkey]
        simp only [Logged.outcome_bind] at h
        obtain ⟨here, hhere, h⟩ := bind_eq_ok_iff.1 h
        obtain ⟨others, hothers, h⟩ := bind_eq_ok_iff.1 h
        cases h
        rw [List.filter_append, List.filter_map]
        refine List.rel_append ?_ (groupTokens_eq_ok hothers)
        rw [List.forall₂_map_left_iff]
        exact (entryTokens_eq_ok hhere).imp fun l e he => ⟨he.name, he.token⟩

end

/-! ### The keys of the tokens -/

theorem exists_cons_of_mem_groupLeaves {type : Option String} {members : List (String × Json)}
    {l : Leaf} (h : l ∈ groupLeaves type members) :
    ∃ m ∈ members, ∃ keys, l.keys = m.1 :: keys := by
  induction members with
  | nil => cases h
  | cons m rest ih =>
      rw [groupLeaves] at h
      split at h
      · obtain ⟨m', hm', hkeys⟩ := ih h
        exact ⟨m', List.mem_cons_of_mem _ hm', hkeys⟩
      · rcases List.mem_append.1 h with h | h
        · obtain ⟨l', -, rfl⟩ := List.mem_map.1 h
          exact ⟨m, List.mem_cons_self .., l'.keys, rfl⟩
        · obtain ⟨m', hm', hkeys⟩ := ih h
          exact ⟨m', List.mem_cons_of_mem _ hm', hkeys⟩

mutual

theorem nodup_entryLeaves {inherited : Option String} :
    {v : Json} → v.IsSorted → ((entryLeaves inherited v).map Leaf.keys).Nodup
  | .object members, .object hkeys hmembers => by
      rw [entryLeaves]
      split
      · exact List.nodup_singleton _
      · exact nodup_groupLeaves hkeys hmembers
  | .null, _ | .bool _, _ | .number _, _ | .text _, _ | .array _, _ => by
      unfold entryLeaves
      exact List.nodup_nil

theorem nodup_groupLeaves {type : Option String} : {members : List (String × Json)} →
    Increasing members → (∀ m ∈ members, m.2.IsSorted) →
      ((groupLeaves type members).map Leaf.keys).Nodup
  | [], _, _ => List.nodup_nil
  | (key, entry) :: rest, hkeys, hmembers => by
      obtain ⟨hkey, hrest⟩ := List.pairwise_cons.1 hkeys
      rw [List.forall_mem_cons] at hmembers
      rw [groupLeaves]
      split
      · exact nodup_groupLeaves hrest hmembers.2
      · rw [List.map_append, List.map_map, List.nodup_append]
        refine ⟨?_, nodup_groupLeaves hrest hmembers.2, ?_⟩
        · have hbelow : ((entryLeaves type entry).map Leaf.keys).Nodup := nodup_entryLeaves hmembers.1
          have hmap := hbelow.map (List.cons_injective (a := key))
          rwa [List.map_map] at hmap
        · rintro keys hhere keys' hothers rfl
          obtain ⟨l, -, rfl⟩ := List.mem_map.1 hhere
          obtain ⟨l', hl', hl⟩ := List.mem_map.1 hothers
          obtain ⟨m, hm, keys', hkeys'⟩ := exists_cons_of_mem_groupLeaves hl'
          rw [hl] at hkeys'
          have heq : key = m.1 := (List.cons.inj hkeys').1
          exact String.lt_irrefl _ (heq ▸ hkey m hm)

end

end TokenSet

end Swatchbook

import Mathlib.Data.List.Perm.Subperm
import Swatchbook.Proofs.ThemeFile.Leaves
import Swatchbook.Proofs.ThemeFile.Skipped

/-! The names under which the tokens of a tree stand after flattening. The keys that lead
to a token are joined with dots, so tokens meet where a key has a dot inside or where the
first keys are empty, and of tokens that meet one is left. -/
namespace Swatchbook

namespace Dict

variable {α : Type}

theorem subperm_keys_ofList (es : List (String × α)) :
    (ofList es).keys.Subperm (es.map Prod.fst) :=
  (nodup_keys _).subperm fun _ hk => mem_keys_ofList.1 hk

theorem length_keys_ofList_le (es : List (String × α)) : (ofList es).keys.length ≤ es.length := by
  have hle := (subperm_keys_ofList es).length_le
  rwa [List.length_map] at hle

theorem length_keys_ofList_iff {es : List (String × α)} :
    (ofList es).keys.length = es.length ↔ (es.map Prod.fst).Nodup := by
  have hlength : (es.map Prod.fst).length = es.length := List.length_map _
  constructor
  · intro h
    have hperm := (subperm_keys_ofList es).perm_of_length_le (Nat.le_of_eq (hlength.trans h.symm))
    exact hperm.nodup_iff.1 (nodup_keys _)
  · intro h
    have hperm := (List.perm_ext_iff_of_nodup (nodup_keys _) h).2 fun _ => mem_keys_ofList
    exact hperm.length_eq.trans hlength

end Dict

namespace TokenSet

open Json (Reading)
open Text (pieces join)

def dotted (keys : List String) : String :=
  keys.foldl pathTo ""

/-- What the dots of a name leave of the keys: empty keys in front count for nothing, and
keys with dots inside count as several. -/
def segments (keys : List String) : List (List Char) :=
  (keys.dropWhile String.isEmpty).flatMap fun k => pieces '.' k.toList

theorem toList_foldl_pathTo {path : String} (hpath : path ≠ "") (keys : List String) :
    (keys.foldl pathTo path).toList = join ['.'] (path.toList :: keys.map String.toList) := by
  induction keys generalizing path with
  | nil => rfl
  | cons k keys ih =>
      have hstep : pathTo path k = path ++ "." ++ k := by
        unfold pathTo
        rw [if_neg (by simpa using hpath)]
      have hne : path ++ "." ++ k ≠ "" := by simp
      rw [List.foldl_cons, hstep, ih hne]
      cases keys with
      | nil => simp [join]
      | cons k' keys => simp [join]

theorem segments_eq (keys : List String) : segments keys =
    if dotted keys = "" then [] else pieces '.' (dotted keys).toList := by
  induction keys with
  | nil => rfl
  | cons k keys ih =>
      by_cases hk : k = ""
      · subst hk
        exact ih
      · have hdrop : (k :: keys).dropWhile String.isEmpty = k :: keys := by
          rw [List.dropWhile_cons_of_neg (by simpa using hk)]
        have hdotted : (dotted (k :: keys)).toList = join ['.'] ((k :: keys).map String.toList) :=
          toList_foldl_pathTo hk keys
        have hne : dotted (k :: keys) ≠ "" := by
          intro hempty
          rw [hempty] at hdotted
          cases keys <;> simp [join, hk] at hdotted
        rw [if_neg hne, hdotted, Text.pieces_join_eq_flatMap '.' (by simp), List.flatMap_map, segments,
          hdrop]

theorem dotted_eq_iff {keys keys' : List String} :
    dotted keys = dotted keys' ↔ segments keys = segments keys' := by
  have htoList : ∀ keys, (dotted keys).toList = join ['.'] (segments keys) := by
    intro keys
    rw [segments_eq]
    split
    · rename_i h
      rw [h]
      rfl
    · rw [Text.join_pieces]
  constructor
  · intro h
    rw [segments_eq, segments_eq, h]
  · intro h
    rw [← String.toList_inj, htoList, htoList, h]

structure Plain (keys : List String) : Prop where
  head : keys.head? ≠ some ""
  dot : ∀ k ∈ keys, '.' ∉ k.toList

theorem Plain.segments_eq {keys : List String} (h : Plain keys) :
    segments keys = keys.map String.toList := by
  have hdrop : keys.dropWhile String.isEmpty = keys := by
    cases keys with
    | nil => rfl
    | cons k keys => exact List.dropWhile_cons_of_neg (by simpa using h.head)
  rw [segments, hdrop, List.map_eq_flatMap]
  exact List.flatMap_congr fun k hk => Text.pieces_of_not_mem (h.dot k hk)

theorem pairwise_segments_ne {ls : List Leaf} (hkeys : (ls.map Leaf.keys).Nodup)
    (hplain : ∀ l ∈ ls, Plain l.keys) :
    ls.Pairwise fun l l' => segments l.keys ≠ segments l'.keys := by
  refine (List.pairwise_map.1 hkeys).imp_of_mem fun {l l'} hl hl' hne hsegments => hne ?_
  rw [(hplain l hl).segments_eq, (hplain l' hl').segments_eq] at hsegments
  exact (List.map_inj_right fun _ _ => String.toList_inj.1).1 hsegments

theorem names_of_flattenedTo {path : String} {ls : List Leaf} {tokens : List (String × Token)}
    (h : List.Forall₂ (FlattenedTo path) ls tokens) :
    tokens.map Prod.fst = ls.map fun l => l.keys.foldl pathTo path := by
  induction h with
  | nil => rfl
  | cons htoken _ ih => rw [List.map_cons, List.map_cons, htoken.name, ih]

/-- The tree of colors in a text, with the keys of every object in order. -/
def colorTree? (r : Reading) : Option (List (String × Json)) :=
  (fieldsOf r).toOption.bind fun fields => fields.color.join.map Json.sortedMembers

theorem flatten_eq_ok {color : List (String × Json)} {d : Dict Token}
    (h : (flatten color).outcome = .ok d) : ∃ tokens, d = Dict.ofList tokens ∧
      List.Forall₂ (FlattenedTo "") (colorLeaves (Json.sortedMembers color)) tokens := by
  unfold flatten at h
  simp only [Logged.outcome_bind] at h
  obtain ⟨tokens, htokens, h⟩ := bind_eq_ok_iff.1 h
  cases h
  exact ⟨tokens, rfl, groupTokens_eq_ok htokens⟩

/-- What is left of the color tokens of a tree: each name once, and a token for every name.
None is lost exactly when no two tokens have the same segments, which is so where all keys
are plain. -/
structure Flattens (tree : List (String × Json)) (d : Dict Token) : Prop where
  keys_nodup : ((colorLeaves tree).map Leaf.keys).Nodup
  mem_keys_iff : ∀ name, name ∈ d.keys ↔ ∃ l ∈ colorLeaves tree, dotted l.keys = name
  length_le : d.keys.length ≤ (colorLeaves tree).length
  length_eq_iff : d.keys.length = (colorLeaves tree).length ↔
    (colorLeaves tree).Pairwise fun l l' => segments l.keys ≠ segments l'.keys
  length_eq_of_plain : (∀ l ∈ colorLeaves tree, Plain l.keys) →
    d.keys.length = (colorLeaves tree).length

theorem flattens_of_flatten {color : List (String × Json)} {d : Dict Token}
    (h : (flatten color).outcome = .ok d) : Flattens (Json.sortedMembers color) d := by
  obtain ⟨tokens, rfl, htokens⟩ := flatten_eq_ok h
  have hkeys : ((colorLeaves (Json.sortedMembers color)).map Leaf.keys).Nodup :=
    (nodup_groupLeaves (Json.increasing_sortedMembers color)
      (Json.isSorted_of_mem_sortedMembers color)).sublist (List.filter_sublist.map _)
  generalize Json.sortedMembers color = tree at htokens hkeys
  have hnames := names_of_flattenedTo htokens
  have hcount : (Dict.ofList tokens).keys.length = (colorLeaves tree).length ↔
      (colorLeaves tree).Pairwise fun l l' => segments l.keys ≠ segments l'.keys := by
    rw [htokens.length_eq, Dict.length_keys_ofList_iff, hnames, List.Nodup, List.pairwise_map]
    exact List.Pairwise.iff fun _ _ => not_congr dotted_eq_iff
  refine ⟨hkeys, fun name => ?_, ?_, hcount, fun hplain =>
    hcount.2 (pairwise_segments_ne hkeys hplain)⟩
  · rw [Dict.mem_keys_ofList, hnames, List.mem_map]
    rfl
  · rw [htokens.length_eq]
    exact Dict.length_keys_ofList_le tokens

/-- The tokens of a text that is read as a token set are what is left of the color tokens in
its tree. -/
theorem tokens_flatten {r : Reading} {s : TokenSet} {d : Dict Token}
    (h : (TokenSet.read r).outcome = .ok s) (hd : s.tokens = some d) :
    ∃ tree, colorTree? r = some tree ∧ Flattens tree d := by
  obtain ⟨fields, hfields, ⟨-, hnone⟩ | ⟨color, d', hcolor, hflatten, hsome⟩, -⟩ := read_eq_ok h
  · rw [hd] at hnone
    cases hnone
  · rw [hd, Option.some.injEq] at hsome
    subst hsome
    exact ⟨Json.sortedMembers color, by simp [colorTree?, hfields, Except.toOption, hcolor],
      flattens_of_flatten hflatten⟩

def spelledLikeGroup : Reading :=
  Json.scan ("\x7b\"color\":\x7b\"a\":\x7b\"b\":\x7b\"value\":\"#000000\"\x7d\x7d," ++
    "\"a.b\":\x7b\"value\":\"#FFFFFF\"\x7d\x7d\x7d").toUTF8.toList

theorem spelledLikeGroup_loses : ∃ s d tree,
    (TokenSet.read spelledLikeGroup).outcome = .ok s ∧ s.tokens = some d ∧
      colorTree? spelledLikeGroup = some tree ∧ d.keys.length < (colorLeaves tree).length := by
  have hread : (TokenSet.read spelledLikeGroup).outcome.toOption.map
      (fun s => s.tokens.isSome) = some true := by decide +kernel
  obtain ⟨s, hs, hsome⟩ := exists_of_toOption hread
  obtain ⟨d, hd⟩ := Option.isSome_iff_exists.1 hsome
  obtain ⟨tree, htree, hleaves⟩ := tokens_flatten hs hd
  have hseen : (colorTree? spelledLikeGroup).map
      (fun tree => (colorLeaves tree).map fun l => segments l.keys) =
        some [[['a'], ['b']], [['a'], ['b']]] := by decide +kernel
  rw [htree, Option.map_some, Option.some.injEq] at hseen
  refine ⟨s, d, tree, hs, hd, htree, Nat.lt_of_le_of_ne hleaves.length_le fun hlength => ?_⟩
  have hpairs := List.pairwise_map.2 (hleaves.length_eq_iff.1 hlength)
  rw [hseen] at hpairs
  exact absurd hpairs (by decide)

end TokenSet

end Swatchbook

import Swatchbook.Proofs.Json.Fields
import Swatchbook.Proofs.ThemeFile.Entries

/-! Trees of colors that differ in one entry. Flattening the tree with the entry does all
that flattening the tree without it does, and the entry on the way, and the same is so of
reading the two texts that have these trees. -/
namespace Swatchbook

open Json (Draft Lexeme)

namespace TokenSet

def inGroup (f : List (String × Json) → List (String × Json)) : Json → Json
  | .object members => .object (f members)
  | v => v

/-- A group without the entry to which keys lead. -/
def without : List String → List (String × Json) → List (String × Json)
  | [], group => group
  | [key], group => group.filter fun m => m.1 != key
  | key :: next :: keys, group => group.map fun m =>
    (m.1, if m.1 = key then inGroup (without (next :: keys)) m.2 else m.2)

/-- A text with a place for its colors: the value under `color`, or the first of an array. -/
inductive ColorPlace : (Draft → Draft) → Prop where
  | member {before after : List (Lexeme × Draft)} {key : Lexeme} {stop : Option Json.Flaw}
      (hkey : key.text = .ok "color") :
      ColorPlace fun d => .object (before ++ (key, d) :: after) stop
  | item {after : List Draft} {stop : Option Json.Flaw} :
      ColorPlace fun d => .array (d :: after) stop

def treeOf (d : Draft) : Except Json.Flaw (List (String × Json)) :=
  (asMembers d).map Json.sortedMembers

end TokenSet

/-! ### Computations with a step more -/

namespace Logged

variable {ε α β γ : Type}

/-- A computation that does what another does and takes a step more: the same if the step
gives nothing, and refused if the step is refused, for that reason unless for an earlier
one that the other has too. -/
structure ExtendsBy (here : Logged ε (List β)) (x y : Logged ε α) : Prop where
  same : here = pure [] → x = y
  refused : ∀ e, here.outcome = .error e →
    ∃ e', x.outcome = .error e' ∧ (e' = e ∨ y.outcome = .error e')

theorem bind_pure (x : Logged ε α) : x >>= pure = x := by
  obtain ⟨outcome, warnings⟩ := x
  cases outcome with
  | error e => rfl
  | ok a => exact congrArg (Logged.mk (.ok a)) (List.append_nil warnings)

namespace ExtendsBy

variable {here : Logged ε (List β)}

theorem first (y : Logged ε (List β)) :
    ExtendsBy here (here >>= fun a => y >>= fun b => pure (a ++ b)) y where
  same h := by
    subst h
    exact bind_pure y
  refused e h := ⟨e, outcome_bind_of_error h _, .inl rfl⟩

theorem bind {x y : Logged ε α} (h : ExtendsBy here x y) (f : α → Logged ε γ) :
    ExtendsBy here (x >>= f) (y >>= f) where
  same hnone := by rw [h.same hnone]
  refused e herror := by
    obtain ⟨e', hx, hy⟩ := h.refused e herror
    exact ⟨e', outcome_bind_of_error hx f, hy.imp_right fun hy => outcome_bind_of_error hy f⟩

theorem after (x : Logged ε γ) {f g : γ → Logged ε α} (h : ∀ a, ExtendsBy here (f a) (g a)) :
    ExtendsBy here (x >>= f) (x >>= g) where
  same hnone := by rw [funext fun a => (h a).same hnone]
  refused e herror := by
    cases hx : x.outcome with
    | error e' =>
        exact ⟨e', outcome_bind_of_error hx f, .inr (outcome_bind_of_error hx g)⟩
    | ok a =>
        rw [outcome_bind_of_ok hx, outcome_bind_of_ok hx]
        exact (h a).refused e herror

end ExtendsBy

end Logged

namespace TokenSet

/-! ### Trees without an entry -/

theorem lookup_without (key : String) (keys : List String) (group : List (String × Json))
    (k : String) : (without (key :: keys) group).lookup k =
      if k = key then if keys = [] then none else (group.lookup k).map (inGroup (without keys))
      else group.lookup k := by
  cases keys with
  | nil => exact Dict.lookup_filter_ne key group k
  | cons next keys =>
      rw [without, Dict.lookup_map group
        (fun j v => if j = key then inGroup (without (next :: keys)) v else v)]
      by_cases hk : k = key
      · simp [hk]
      · simp [hk]

theorem groupType_without {key : String} (hkey : key.toList.head? ≠ some '$') (keys : List String)
    (group : List (String × Json)) (inherited : Option String) :
    groupType (without (key :: keys) group) inherited = groupType group inherited := by
  have hne : "$type" ≠ key := by
    rintro rfl
    exact hkey rfl
  rw [groupType, lookup_without, if_neg hne, groupType]

theorem isToken_without {key : String} (hkey : key.toList.head? ≠ some '$') (keys : List String)
    {group : List (String × Json)} (h : isToken group = false) :
    isToken (without (key :: keys) group) = false := by
  have hne : "$value" ≠ key := by
    rintro rfl
    exact hkey rfl
  unfold isToken at h ⊢
  rw [Bool.or_eq_false_iff] at h ⊢
  rw [lookup_without _ _ _ "$value", if_neg hne]
  refine ⟨h.1, ?_⟩
  have htype : ((without (key :: keys) group).lookup "type").isSome = true →
      (group.lookup "type").isSome = true := by
    rw [lookup_without]
    split
    · split
      · exact nofun
      · rw [Option.isSome_map]
        exact id
    · exact id
  rw [lookup_without _ _ _ "value"]
  cases hvalue : group.lookup "value" with
  | none => simp
  | some v =>
      rw [hvalue] at h
      cases v with
      | object members =>
          have hfree : ((without (key :: keys) group).lookup "type").isSome = false :=
            Bool.eq_false_iff.2 fun hsome => Bool.eq_false_iff.1 h.2 (htype hsome)
          by_cases hsame : "value" = key
          · by_cases hkeys : keys = []
            · rw [if_pos hsame, if_pos hkeys]
            · rw [if_pos hsame, if_neg hkeys]
              exact hfree
          · rw [if_neg hsame]
            exact hfree
      | _ => cases h.2

theorem Reaches.exists_cons {group : List (String × Json)} {keys : List String}
    {groups : List (List (String × Json))} {v : Json} (h : Reaches group keys groups v) :
    ∃ key rest, keys = key :: rest ∧ key.toList.head? ≠ some '$' := by
  cases h with
  | entry hkey _ => exact ⟨_, _, rfl, hkey⟩
  | through hkey _ _ _ => exact ⟨_, _, rfl, hkey⟩

theorem Reaches.isSorted {group : List (String × Json)} {keys : List String}
    {groups : List (List (String × Json))} {v : Json} (h : Reaches group keys groups v)
    (hgroup : (Json.object group).IsSorted) : v.IsSorted := by
  induction h with
  | entry _ hv =>
      cases hgroup with
      | object _ hmembers => exact hmembers _ hv
  | through _ hinner _ _ ih =>
      cases hgroup with
      | object _ hmembers => exact ih (hmembers _ hinner)

/-! ### Groups with an entry more -/

open Logged (ExtendsBy)

theorem extendsBy_append {path : String} {type : Option String}
    {here : Logged TokenSetError (List (String × Token))} (before : List (String × Json))
    {group group' : List (String × Json)}
    (h : ExtendsBy here (groupTokens path type group) (groupTokens path type group')) :
    ExtendsBy here (groupTokens path type (before ++ group))
      (groupTokens path type (before ++ group')) := by
  induction before with
  | nil => exact h
  | cons m before ih =>
      rw [List.cons_append, List.cons_append, groupTokens, groupTokens]
      split
      · exact ih
      · exact .after _ fun here => ih.bind _

theorem without_middle {key : String} {v : Json} {before after : List (String × Json)}
    (h : ∀ m ∈ before ++ after, m.1 ≠ key) :
    without [key] (before ++ (key, v) :: after) = before ++ after := by
  obtain ⟨hbefore, hafter⟩ := List.forall_mem_append.1 h
  have hkept : ∀ ms : List (String × Json), (∀ m ∈ ms, m.1 ≠ key) →
      ms.filter (fun m => m.1 != key) = ms :=
    fun ms hms => List.filter_eq_self.2 fun m hm => bne_iff_ne.2 (hms m hm)
  rw [without, List.filter_append, List.filter_cons_of_neg (by simp), hkept before hbefore,
    hkept after hafter]

theorem without_inner {key : String} {keys : List String} (hkeys : keys ≠ [])
    {inner before after : List (String × Json)} (h : ∀ m ∈ before ++ after, m.1 ≠ key) :
    without (key :: keys) (before ++ (key, .object inner) :: after) =
      before ++ (key, .object (without keys inner)) :: after := by
  obtain ⟨next, keys, rfl⟩ := List.exists_cons_of_ne_nil hkeys
  obtain ⟨hbefore, hafter⟩ := List.forall_mem_append.1 h
  have hkept : ∀ ms : List (String × Json), (∀ m ∈ ms, m.1 ≠ key) →
      ms.map (fun m => (m.1, if m.1 = key then inGroup (without (next :: keys)) m.2 else m.2)) =
        ms := by
    intro ms hms
    refine (List.map_congr_left fun m hm => ?_).trans (List.map_id _)
    rw [if_neg (hms m hm)]
    rfl
  rw [without, List.map_append, List.map_cons, hkept before hbefore, hkept after hafter, if_pos rfl]
  rfl

/-- Flattening a tree flattens the tree without one of its entries and, on the way, that
entry. -/
theorem Reaches.extendsBy {tree : List (String × Json)} {keys : List String}
    {groups : List (List (String × Json))} {v : Json} (h : Reaches tree keys groups v)
    (htree : (Json.object tree).IsSorted) (path : String) (type : Option String) :
    ExtendsBy (entryTokens (keys.foldl pathTo path) ((handedDown groups).or type) v)
      (groupTokens path type tree) (groupTokens path type (without keys tree)) := by
  induction h generalizing path type with
  | @entry group key v hkey hv =>
      cases htree with
      | object hkeys hmembers =>
          obtain ⟨before, after, rfl, hothers⟩ := Dict.exists_split hkeys hv
          rw [without_middle hothers]
          refine extendsBy_append before ?_
          rw [groupTokens, if_neg hkey]
          exact .first _
  | @through group inner key keys groups v hkey hv hinner hreaches ih =>
      cases htree with
      | object hkeys hmembers =>
          have hrest := ih (hmembers _ hv) (pathTo path key) (groupType inner type)
          obtain ⟨before, after, rfl, hothers⟩ := Dict.exists_split hkeys hv
          obtain ⟨next, rest, rfl, hnext⟩ := hreaches.exists_cons
          rw [without_inner (List.cons_ne_nil next rest) hothers]
          refine extendsBy_append before ?_
          -- Inside, the entry is taken from a group that hands down the same type.
          rw [groupTokens, if_neg hkey, groupTokens, if_neg hkey, entryTokens, entryTokens,
            isToken_without hnext rest hinner, hinner, groupType_without hnext]
          rw [handedDown_append, handedDown_singleton, Option.or_assoc, ← groupType_eq]
          exact hrest.bind _

/-! ### Texts with an entry more -/

def withColor (color : List (String × Json)) (fields : Fields) : Fields :=
  { fields with color := some (some color) }

theorem read_color {d : Draft} {color : List (String × Json)} (h : asMembers d = .ok color)
    (fields : Fields) : shape.read fields .color d = .ok (withColor color fields) := by
  have hnull : d.orNull asMembers = .ok (some color) := by
    cases d with
    | null => cases h
    | _ => exact congrArg (Except.map some) h
  exact congrArg (Except.map _) hnull

theorem exists_take (fields : Fields) (entry : Except Json.Flaw (Option (Field × Draft))) :
    (∃ e, ∀ color, shape.take (fun _ => .mismatched) (withColor color fields) entry = .error e) ∨
      ∃ next, ∀ color, shape.take (fun _ => .mismatched) (withColor color fields) entry =
        .ok (withColor color next) := by
  match entry with
  | .error e => exact .inl ⟨e, fun _ => rfl⟩
  | .ok none => exact .inr ⟨fields, fun _ => rfl⟩
  | .ok (some (.color, d)) => exact .inl ⟨.mismatched, fun _ => rfl⟩
  | .ok (some (.themes, d)) =>
      by_cases hgiven : fields.themes.isSome = true
      · exact .inl ⟨.mismatched, fun color => if_pos hgiven⟩
      · have htake : ∀ color, shape.take (fun _ => .mismatched) (withColor color fields)
            (.ok (some (.themes, d))) = (d.orNull asDeclarations).map fun v =>
              withColor color { fields with themes := some v } := fun color => if_neg hgiven
        cases hread : d.orNull asDeclarations with
        | error e => exact .inl ⟨e, fun color => by rw [htake, hread]; rfl⟩
        | ok v =>
            exact .inr ⟨{ fields with themes := some v }, fun color => by rw [htake, hread]; rfl⟩

theorem exists_foldlM_take (fields : Fields)
    (entries : List (Except Json.Flaw (Option (Field × Draft)))) :
    ∃ x : Except Json.Flaw Fields, ∀ color,
      entries.foldlM (shape.take fun _ => .mismatched) (withColor color fields) =
        x.map (withColor color) := by
  induction entries generalizing fields with
  | nil => exact ⟨.ok fields, fun _ => rfl⟩
  | cons entry entries ih =>
      obtain ⟨e, htake⟩ | ⟨next, htake⟩ := exists_take fields entry
      · exact ⟨.error e, fun color => by rw [List.foldlM_cons, htake]; rfl⟩
      · obtain ⟨x, hx⟩ := ih next
        exact ⟨x, fun color => by rw [List.foldlM_cons, htake]; exact hx color⟩

theorem exists_draftMembers (before after : List (Lexeme × Draft)) {key : Lexeme}
    (hkey : key.text = .ok "color") : ∃ x : Except Json.Flaw Fields, ∀ d color,
      asMembers d = .ok color →
        shape.draftMembers {} (before ++ (key, d) :: after) = x.map (withColor color) := by
  have hentry : ∀ d, shape.draftEntry (key, d) = .ok (some (.color, d)) := by
    intro d
    rw [Json.Shape.draftEntry, hkey]
    rfl
  simp only [Json.Shape.draftMembers_eq, List.map_append, List.map_cons, List.foldlM_append,
    List.foldlM_cons, hentry]
  cases (before.map shape.draftEntry).foldlM (shape.take fun _ => .mismatched) {} with
  | error e => exact ⟨.error e, fun _ _ _ => rfl⟩
  | ok fields =>
      by_cases hgiven : shape.given fields .color = true
      · refine ⟨.error .mismatched, fun d color _ => ?_⟩
        change (shape.take _ fields _).bind _ = _
        rw [Json.Shape.take, if_pos hgiven]
        rfl
      · obtain ⟨x, hx⟩ := exists_foldlM_take fields (after.map shape.draftEntry)
        refine ⟨x, fun d color hd => ?_⟩
        change (shape.take _ fields _).bind _ = _
        rw [Json.Shape.take, if_neg hgiven, read_color hd]
        exact hx color

theorem exists_draftItems (after : List Draft) : ∃ x : Except Json.Flaw Fields, ∀ d color,
    asMembers d = .ok color →
      shape.draftItems {} [.color, .themes] (d :: after) = x.map (withColor color) := by
  have hfirst : ∀ d color, asMembers d = .ok color →
      shape.draftItems {} [.color, .themes] (d :: after) =
        shape.draftItems (withColor color {}) [.themes] after := by
    intro d color hd
    rw [Json.Shape.draftItems, read_color hd]
    rfl
  cases after with
  | nil => exact ⟨.ok {}, hfirst⟩
  | cons themes rest =>
      cases hthemes : themes.orNull asDeclarations with
      | error e =>
          refine ⟨.error e, fun d color hd => (hfirst d color hd).trans ?_⟩
          change ((themes.orNull asDeclarations).map _).bind _ = _
          rw [hthemes]
          rfl
      | ok v =>
          have hsecond : ∀ color, shape.draftItems (withColor color {}) [.themes] (themes :: rest) =
              shape.draftItems (withColor color { themes := some v }) [] rest := by
            intro color
            change ((themes.orNull asDeclarations).map _).bind _ = _
            rw [hthemes]
            rfl
          cases rest with
          | nil =>
              exact ⟨.ok { themes := some v }, fun d color hd =>
                (hfirst d color hd).trans (hsecond color)⟩
          | cons =>
              exact ⟨.error .malformed, fun d color hd =>
                (hfirst d color hd).trans (hsecond color)⟩

theorem exists_fieldsOf {text : Draft → Draft} (h : ColorPlace text) (trailing : Bool) :
    ∃ x : Except Json.Flaw Fields, ∀ d color, asMembers d = .ok color →
      fieldsOf ⟨text d, trailing⟩ = x.map (withColor color) := by
  have hroot : ∃ x : Except Json.Flaw Fields, ∀ d color, asMembers d = .ok color →
      shape.fromDraft {} (text d) = x.map (withColor color) := by
    cases h with
    | @member before after key stop hkey =>
        obtain ⟨x, hx⟩ := exists_draftMembers before after hkey
        refine ⟨x.bind fun fields => (Json.atEnd stop).map fun _ => fields, fun d color hd => ?_⟩
        rw [Json.Shape.fromDraft, hx d color hd]
        cases x <;> cases stop <;> rfl
    | @item after stop =>
        obtain ⟨x, hx⟩ := exists_draftItems after
        refine ⟨x.bind fun fields => (Json.atEnd stop).map fun _ => fields, fun d color hd => ?_⟩
        rw [Json.Shape.fromDraft]
        change (shape.draftItems {} [.color, .themes] (d :: after)).bind _ = _
        rw [hx d color hd]
        cases x <;> cases stop <;> rfl
  obtain ⟨x, hx⟩ := hroot
  refine ⟨x.bind fun fields => if trailing then .error .malformed else .ok fields,
    fun d color hd => ?_⟩
  rw [fieldsOf, hx d color hd]
  cases x <;> cases trailing <;> rfl

theorem read_of_fieldsOf {r : Json.Reading} {fields : Fields} {color : List (String × Json)}
    (h : fieldsOf r = .ok (withColor color fields)) :
    TokenSet.read r = some <$> flatten color >>= fun tokens =>
      Logged.lift (declaredThemes fields.themes.join) >>= fun themes => pure ⟨tokens, themes⟩ := by
  unfold TokenSet.read
  rw [h]
  rfl

theorem read_extendsBy {text : Draft → Draft} (htext : ColorPlace text) (trailing : Bool)
    {d d' : Draft} {tree tree' : List (String × Json)} (htree : treeOf d = .ok tree)
    (htree' : treeOf d' = .ok tree') {here : Logged TokenSetError (List (String × Token))}
    (h : ExtendsBy here (groupTokens "" (groupType tree none) tree)
      (groupTokens "" (groupType tree' none) tree')) :
    ExtendsBy here (TokenSet.read ⟨text d, trailing⟩) (TokenSet.read ⟨text d', trailing⟩) := by
  obtain ⟨color, hcolor, rfl⟩ := map_eq_ok_iff.1 htree
  obtain ⟨color', hcolor', rfl⟩ := map_eq_ok_iff.1 htree'
  obtain ⟨x, hx⟩ := exists_fieldsOf htext trailing
  have hfields := hx d color hcolor
  have hfields' := hx d' color' hcolor'
  cases x with
  | error e =>
      have hfails : ∀ r, fieldsOf r = .error e → TokenSet.read r = .fail (.json e) := by
        intro r hr
        unfold TokenSet.read
        rw [hr]
        rfl
      rw [hfails _ hfields, hfails _ hfields']
      exact ⟨fun _ => rfl, fun _ _ => ⟨.json e, rfl, .inr rfl⟩⟩
  | ok fields =>
      rw [read_of_fieldsOf hfields, read_of_fieldsOf hfields']
      exact ((h.bind fun tokens => pure (Dict.ofList tokens)).bind (pure ∘ some)).bind _

section Token

variable {tree : List (String × Json)} {keys : List String} {groups : List (List (String × Json))}
  {members : List (String × Json)} {d : Draft} (h : Reaches tree keys groups (.object members))
  (htree : treeOf d = .ok tree)

include h htree

theorem Reaches.nodup_keys : (members.map Prod.fst).Nodup := by
  obtain ⟨color, -, rfl⟩ := map_eq_ok_iff.1 htree
  cases h.isSorted (Json.isSorted_sorted (.object color)) with
  | object hkeys _ => exact Dict.nodup_map_fst hkeys

theorem Reaches.read_extendsBy (htoken : isToken members = true) {text : Draft → Draft}
    (htext : ColorPlace text) (trailing : Bool) {d' : Draft} (htree' : treeOf d' = .ok (without keys tree)) :
    ExtendsBy (tokenAt (dotted keys) (handedDown (groups ++ [tree])) members)
      (TokenSet.read ⟨text d, trailing⟩) (TokenSet.read ⟨text d', trailing⟩) := by
  have hsorted : (Json.object tree).IsSorted := by
    obtain ⟨color, -, rfl⟩ := map_eq_ok_iff.1 htree
    exact Json.isSorted_sorted (.object color)
  obtain ⟨key, rest, rfl, hkey⟩ := h.exists_cons
  have hextends := h.extendsBy hsorted "" (groupType tree none)
  rw [entryTokens, if_pos htoken, groupType_none, ← handedDown_append] at hextends
  refine TokenSet.read_extendsBy htext trailing htree htree' ?_
  rwa [groupType_without hkey rest tree, groupType_none]

end Token

end TokenSet

end Swatchbook

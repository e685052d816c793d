import Swatchbook.Proofs.ThemeFile.OtherKinds

/-! Tokens that give all of their standard keys. What such a token says is said by these
keys alone, but its plain keys are read along with them: a token is refused for a plain type
or for plain extensions that cannot be read, though nothing would be taken from them. -/
namespace Swatchbook

namespace TokenRecord

theorem holds_standardExtensions : shape.Holds Field.standardExtensions "$extensions"
    Fields.standardExtensions (orNull readExtensions) :=
  .of_set (fun _ => named_eq_some_iff) (fun _ => rfl) (fun _ _ => ⟨_, rfl, fun _ => rfl⟩)
    fun _ g _ hne => by
      cases g <;> first | exact absurd rfl hne | exact ⟨_, _, _, rfl, fun _ => rfl⟩

theorem holds_plainExtensions : shape.Holds Field.plainExtensions "extensions"
    Fields.plainExtensions (orNull readExtensions) :=
  .of_set (fun _ => named_eq_some_iff) (fun _ => rfl) (fun _ _ => ⟨_, rfl, fun _ => rfl⟩)
    fun _ g _ hne => by
      cases g <;> first | exact absurd rfl hne | exact ⟨_, _, _, rfl, fun _ => rfl⟩

end TokenRecord

namespace TokenSet

open TokenRecord (readFields readExtensions orNull)

def standardKeys : List String :=
  ["$value", "$type", "$extensions"]

def plainKeys : List String :=
  ["value", "type", "extensions"]

/-- What a token says apart from its plain keys. -/
def standardPart (members : List (String × Json)) : List (String × Json) :=
  members.filter fun m => !plainKeys.contains m.1

def plainPart (members : List (String × Json)) : List (String × Json) :=
  members.filter fun m => plainKeys.contains m.1

def declaredExtensions (members : List (String × Json)) : Option Json :=
  givenAt "$extensions" members <|> givenAt "extensions" members

/-! ### What a token declares -/

def modifyIn (extensions : Json) : Option TokenRecord.Modify :=
  (readExtensions extensions).toOption.join

theorem join_eq_map_modifyIn {f : TokenRecord.Field} {key : String}
    {get : TokenRecord.Fields → Option (Option (Option TokenRecord.Modify))}
    {members : List (String × Json)} {fields : TokenRecord.Fields}
    (hf : TokenRecord.shape.Holds f key get (orNull readExtensions))
    (hs : get {} = none) (h : readFields members = .ok fields) :
    (get fields).join = (givenAt key members).map modifyIn := by
  rcases exists_of_holds hf hs h with ⟨hgiven, hget⟩ | ⟨v, x, hgiven, hx, hget⟩
  · rw [hgiven, hget, Option.map_none]
  · rw [hgiven, hget, Option.map_some, modifyIn, hx]
    rfl

theorem modify?_of_readFields {members : List (String × Json)} {fields : TokenRecord.Fields}
    (h : readFields members = .ok fields) :
    fields.modify? = (declaredExtensions members).bind modifyIn := by
  unfold TokenRecord.Fields.modify? declaredExtensions
  rw [join_eq_map_modifyIn TokenRecord.holds_standardExtensions rfl h,
    join_eq_map_modifyIn TokenRecord.holds_plainExtensions rfl h]
  cases givenAt "$extensions" members <;> cases givenAt "extensions" members <;> rfl

theorem tokenAt_congr {members members' : List (String × Json)} {fields fields' : TokenRecord.Fields}
    (h : readFields members = .ok fields) (h' : readFields members' = .ok fields')
    (htype : declaredType members = declaredType members')
    (hvalue : declaredValue members = declaredValue members')
    (hextensions : declaredExtensions members = declaredExtensions members') (path : String)
    (inherited : Option String) :
    tokenAt path inherited members = tokenAt path inherited members' := by
  have htype' : fields.type? = fields'.type? := by
    rw [declaredType_of_readFields h, declaredType_of_readFields h'] at htype
    rw [type?_of_readFields h, type?_of_readFields h']
    exact Option.map_injective (fun _ _ heq => Json.text.inj heq) htype
  simp only [tokenAt, h, h', tokenOf, htype', value?_of_readFields h, value?_of_readFields h',
    modify?_of_readFields h, modify?_of_readFields h', hvalue, hextensions]

/-! ### The order of reading -/

theorem named_isSome_iff {k : String} :
    (TokenRecord.shape.named k).isSome = true ↔ k ∈ standardKeys ∨ k ∈ plainKeys := by
  unfold TokenRecord.shape
  simp only
  split <;> simp_all [standardKeys, plainKeys]

theorem readFields_eq_bind {members : List (String × Json)} (h : Increasing members) :
    readFields members = (readFields (standardPart members)).bind fun fields =>
      TokenRecord.shape.jsonMembers fields (plainPart members) := by
  have hfirst : ∀ j ∈ standardKeys, ∀ k ∈ plainKeys, j < k := by decide
  have hsplit : (members.filter fun m => (TokenRecord.shape.named m.1).isSome) =
      ((standardPart members).filter fun m => (TokenRecord.shape.named m.1).isSome) ++
        plainPart members := by
    refine Dict.eq_of_lookup_eq (h.sublist List.filter_sublist) ?_ fun k => ?_
    · refine List.pairwise_append.2 ⟨h.sublist (List.filter_sublist.trans List.filter_sublist),
        h.sublist List.filter_sublist, fun m hm n hn => ?_⟩
      simp only [standardPart, plainPart, List.mem_filter, named_isSome_iff, Bool.not_eq_true',
        List.contains_eq_mem, decide_eq_false_iff_not, decide_eq_true_eq] at hm hn
      exact hfirst _ (hm.2.resolve_right hm.1.2) _ hn.2
    · rw [List.lookup_append, standardPart, plainPart,
        Dict.lookup_filter_fst fun k => (TokenRecord.shape.named k).isSome,
        Dict.lookup_filter_fst fun k => (TokenRecord.shape.named k).isSome,
        Dict.lookup_filter_fst fun k => !plainKeys.contains k, Dict.lookup_filter_fst plainKeys.contains]
      by_cases hk : k ∈ plainKeys
      · simp [hk, named_isSome_iff]
      · simp [hk]
  rw [readFields, ← Json.Shape.jsonMembers_filter_named, hsplit, Json.Shape.jsonMembers_append,
    Json.Shape.jsonMembers_filter_named]
  rfl

/-! ### Tokens that give their standard keys -/

theorem lookup_standardPart (members : List (String × Json)) (k : String) :
    (standardPart members).lookup k = if k ∈ plainKeys then none else members.lookup k := by
  rw [standardPart, Dict.lookup_filter_fst fun k => !plainKeys.contains k]
  by_cases hk : k ∈ plainKeys <;> simp [hk]

theorem increasing_standardPart {members : List (String × Json)} (h : Increasing members) :
    Increasing (standardPart members) :=
  h.sublist List.filter_sublist

theorem givenAt_standardPart {k : String} (hk : k ∉ plainKeys) (members : List (String × Json)) :
    givenAt k (standardPart members) = givenAt k members := by
  rw [givenAt, lookup_standardPart, if_neg hk, givenAt]

/-- A token that gives its standard keys. -/
def GivesStandard (members : List (String × Json)) : Prop :=
  ∀ k ∈ standardKeys, (givenAt k members).isSome = true

theorem GivesStandard.isToken {members : List (String × Json)} (h : GivesStandard members) :
    isToken members = true := by
  obtain ⟨v, hv⟩ := Option.isSome_iff_exists.1 (h "$value" (by decide))
  rw [TokenSet.isToken, (givenAt_eq_some_iff.1 hv).1]
  rfl

theorem GivesStandard.of_same {members members' : List (String × Json)} (h : GivesStandard members)
    (hsame : standardPart members = standardPart members') : GivesStandard members' := by
  have hnot : ∀ k ∈ standardKeys, k ∉ plainKeys := by decide
  intro k hk
  rw [← givenAt_standardPart (hnot k hk), ← hsame, givenAt_standardPart (hnot k hk)]
  exact h k hk

section Same

variable {members members' : List (String × Json)} (hgiven : GivesStandard members)
  (hsame : standardPart members = standardPart members')

include hgiven hsame

/-- Whatever stands under the plain key of a field, the standard key decides. -/
theorem GivesStandard.declared_eq {standard plain : String} (h : standard ∈ standardKeys) :
    (givenAt standard members <|> givenAt plain members) =
      (givenAt standard members' <|> givenAt plain members') := by
  have hnot : ∀ k ∈ standardKeys, k ∉ plainKeys := by decide
  obtain ⟨v, hv⟩ := Option.isSome_iff_exists.1 (hgiven standard h)
  have hv' : givenAt standard members' = some v := by
    rw [← givenAt_standardPart (hnot standard h), ← hsame, givenAt_standardPart (hnot standard h), hv]
  rw [hv, hv']
  rfl

theorem GivesStandard.tokenAt_eq (hkeys : Increasing members) (hkeys' : Increasing members')
    (h : Legible members) (h' : Legible members') (path : String) (inherited : Option String) :
    tokenAt path inherited members = tokenAt path inherited members' := by
  obtain ⟨fields, hfields⟩ := (exists_readFields_iff (Dict.nodup_map_fst hkeys)).2 h
  obtain ⟨fields', hfields'⟩ := (exists_readFields_iff (Dict.nodup_map_fst hkeys')).2 h'
  exact tokenAt_congr hfields hfields' (hgiven.declared_eq hsame (by decide))
    (hgiven.declared_eq hsame (by decide)) (hgiven.declared_eq hsame (by decide)) path inherited

end Same

theorem tokenAt_of_standardPart {members : List (String × Json)} (hkeys : Increasing members)
    (h : ¬Legible (standardPart members)) (path : String) (inherited : Option String) :
    tokenAt path inherited members = tokenAt path inherited (standardPart members) := by
  have hstandard := (exists_readFields_iff (Dict.nodup_map_fst (increasing_standardPart hkeys))).not.2 h
  unfold tokenAt
  rw [readFields_eq_bind hkeys]
  cases hfields : readFields (standardPart members) with
  | ok fields => exact absurd ⟨fields, hfields⟩ hstandard
  | error cause => rfl

theorem amount_eq_error_iff {path : String} {a : TokenRecord.Amount} {e : TokenSetError} :
    amount path a = .error e ↔ ∃ s, a = .text s ∧
      Decimal.readAmount? (String.ofList (Text.trim s.toList)) = none ∧ e = .invalidAmount path s := by
  cases a with
  | number x => simp [amount]
  | text s =>
      cases h : Decimal.readAmount? (String.ofList (Text.trim s.toList)) <;> simp [amount, h, eq_comm]

theorem outcome_adjustment_ne (path : String) (m : TokenRecord.Modify) (path' : String)
    (cause : Json.Mismatch) : (adjustment path m).outcome ≠ .error (.token path' cause) := by
  unfold adjustment
  cases ha : amount path m.value with
  | error e =>
      obtain ⟨s, -, -, rfl⟩ := amount_eq_error_iff.1 ha
      simp
  | ok x =>
      simp only
      split <;> simp

theorem outcome_tokenOf_ne (path : String) (inherited : Option String) (fields : TokenRecord.Fields)
    (path' : String) (cause : Json.Mismatch) :
    (tokenOf path inherited fields).outcome ≠ .error (.token path' cause) := by
  unfold tokenOf
  split
  · simp
  · split
    · split
      · simp
      · rename_i m _
        rw [Logged.outcome_bind]
        cases ha : (adjustment path m).outcome with
        | ok a => simp [Except.bind]
        | error e =>
            rintro heq
            cases heq
            exact outcome_adjustment_ne path m path' cause ha
    · simp

theorem outcome_tokenAt_ne {members : List (String × Json)} (hkeys : Increasing members)
    (h : Legible members) (path : String) (inherited : Option String) (path' : String)
    (cause : Json.Mismatch) : (tokenAt path inherited members).outcome ≠ .error (.token path' cause) := by
  obtain ⟨fields, hfields⟩ := (exists_readFields_iff (Dict.nodup_map_fst hkeys)).2 h
  have htoken := outcome_tokenOf_ne path inherited fields path' cause
  rw [tokenAt, hfields, Logged.outcome_bind]
  cases ht : (tokenOf path inherited fields).outcome with
  | ok token? => rintro ⟨⟩
  | error e =>
      rw [ht] at htoken
      exact fun heq => htoken (congrArg Except.error (Except.error.inj heq))

/-! ### Groups -/

theorem groupTokens_congr {path : String} {type : Option String} {key : String} {v v' : Json}
    (h : entryTokens (pathTo path key) type v = entryTokens (pathTo path key) type v')
    (before after : List (String × Json)) :
    groupTokens path type (before ++ (key, v) :: after) =
      groupTokens path type (before ++ (key, v') :: after) := by
  induction before with
  | nil => rw [List.nil_append, List.nil_append, groupTokens, groupTokens, h]
  | cons m before ih => rw [List.cons_append, List.cons_append, groupTokens, groupTokens, ih]

theorem groupTokens_of_error {path : String} {type : Option String} {key : String} {v : Json}
    {e : TokenSetError} (hkey : key.toList.head? ≠ some '$')
    (h : (entryTokens (pathTo path key) type v).outcome = .error e) {before : List (String × Json)}
    {tokens : List (String × Token)} (hbefore : (groupTokens path type before).outcome = .ok tokens)
    (after : List (String × Json)) :
    (groupTokens path type (before ++ (key, v) :: after)).outcome = .error e := by
  induction before generalizing tokens with
  | nil =>
      rw [List.nil_append, groupTokens, if_neg hkey]
      exact Logged.outcome_bind_of_error h _
  | cons m before ih =>
      rw [List.cons_append, groupTokens]
      rw [groupTokens] at hbefore
      split at hbefore
      · rename_i hdollar
        rw [if_pos hdollar]
        exact ih hbefore
      · rename_i hentry
        rw [if_neg hentry]
        simp only [Logged.outcome_bind] at hbefore
        obtain ⟨here, hhere, hbefore⟩ := bind_eq_ok_iff.1 hbefore
        obtain ⟨others, hothers, -⟩ := bind_eq_ok_iff.1 hbefore
        rw [Logged.outcome_bind_of_ok hhere]
        exact Logged.outcome_bind_of_error (ih hothers) _

/-- A token that gives its standard keys says what they say, whatever its plain keys hold, as
long as these can be read; and where the standard keys cannot be read, it is refused for
them. But a token is refused for plain keys that cannot be read, as no legible token is. -/
theorem groupTokens_of_standard_keys {members members' : List (String × Json)}
    (hkeys : Increasing members) (hkeys' : Increasing members')
    (hsame : standardPart members = standardPart members') (hgiven : GivesStandard members)
    {key : String} (hkey : key.toList.head? ≠ some '$') (path : String) (type : Option String)
    (before after : List (String × Json)) :
    (Legible members ∧ Legible members' ∨ ¬Legible (standardPart members) →
      entryTokens (pathTo path key) type (.object members) =
          entryTokens (pathTo path key) type (.object members') ∧
        groupTokens path type (before ++ (key, .object members) :: after) =
          groupTokens path type (before ++ (key, .object members') :: after)) ∧
    (¬Legible members' →
      ∃ cause, (entryTokens (pathTo path key) type (.object members')).outcome =
          .error (.token (pathTo path key) cause) ∧
        ∀ tokens, (groupTokens path type before).outcome = .ok tokens →
          (groupTokens path type (before ++ (key, .object members') :: after)).outcome =
            .error (.token (pathTo path key) cause)) ∧
    (Legible members → ∀ path' cause,
      (entryTokens (pathTo path key) type (.object members)).outcome ≠ .error (.token path' cause)) := by
  have htoken : ∀ path, entryTokens path type (.object members) = tokenAt path type members :=
    fun path => by rw [entryTokens, if_pos hgiven.isToken]
  have htoken' : ∀ path, entryTokens path type (.object members') = tokenAt path type members' :=
    fun path => by rw [entryTokens, if_pos (hgiven.of_same hsame).isToken]
  refine ⟨fun h => ?_, fun h' => ?_, fun h => ?_⟩
  · have hentry : entryTokens (pathTo path key) type (.object members) =
        entryTokens (pathTo path key) type (.object members') := by
      rw [htoken, htoken']
      rcases h with ⟨h, h'⟩ | h
      · exact hgiven.tokenAt_eq hsame hkeys hkeys' h h' _ _
      · rw [tokenAt_of_standardPart hkeys h, tokenAt_of_standardPart hkeys' (hsame ▸ h), hsame]
    exact ⟨hentry, groupTokens_congr hentry before after⟩
  · have hrefused : ∃ cause, (tokenAt (pathTo path key) type members').outcome =
        .error (.token (pathTo path key) cause) :=
      tokenAt_of_not_legible (Dict.nodup_map_fst hkeys') h'
    obtain ⟨cause, hcause⟩ := hrefused
    rw [← htoken'] at hcause
    exact ⟨cause, hcause, fun tokens hbefore => groupTokens_of_error hkey hcause hbefore after⟩
  · rw [htoken]
    exact outcome_tokenAt_ne hkeys h _ _

def inkTyped (type : Json) : List (String × Json) :=
  [("$extensions", .object []), ("$type", .text "color"), ("$value", .text "#000000"), ("type", type)]

theorem ink_retyped :
    groupTokens "" none [("ink", .object (inkTyped (.text "color")))] =
        groupTokens "" none [("ink", .object (inkTyped (.text "dimension")))] ∧
      (groupTokens "" none [("ink", .object (inkTyped (.text "color")))]).outcome.isOk = true ∧
      ∃ cause, (groupTokens "" none [("ink", .object (inkTyped (.number ⟨false, [7], [], none⟩)))]).outcome =
        .error (.token "ink" cause) := by
  have hkeys : ∀ type, Increasing (inkTyped type) := by
    intro type
    simp only [Increasing, inkTyped, List.pairwise_cons, List.forall_mem_cons]
    decide
  have hgiven : GivesStandard (inkTyped (.text "color")) := by unfold GivesStandard; decide
  have hlegible : ∀ type, Legible (inkTyped (.text type)) := fun type =>
    (exists_readFields_iff (Dict.nodup_map_fst (hkeys _))).1 ⟨_, rfl⟩
  have hnumber : ¬Legible (inkTyped (.number ⟨false, [7], [], none⟩)) := by
    intro h
    obtain ⟨s, hs⟩ := h.types "type" (by decide) (.number ⟨false, [7], [], none⟩) rfl
    cases hs
  have hsame : ∀ type, standardPart (inkTyped (.text "color")) = standardPart (inkTyped type) :=
    fun type => rfl
  have hink : "ink".toList.head? ≠ some '$' := by decide
  obtain ⟨cause, -, hrefused⟩ := (groupTokens_of_standard_keys (hkeys _) (hkeys _) (hsame _) hgiven
    hink "" none [] []).2.1 hnumber
  exact ⟨((groupTokens_of_standard_keys (hkeys _) (hkeys _) (hsame _) hgiven hink "" none [] []).1
    (.inl ⟨hlegible _, hlegible _⟩)).2, rfl, cause, hrefused [] rfl⟩

end TokenSet

end Swatchbook

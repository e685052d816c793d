import Swatchbook.Proofs.Alike
import Swatchbook.Proofs.Dict
import Swatchbook.Proofs.Json.Sorted
import Swatchbook.Proofs.ThemeFile.Record

/-! Values that differ in the order of their members only. Decoding keeps the relation,
and sorting removes the difference, as long as no key is given twice. -/
namespace Swatchbook.Json

/-- Whole strings of the same text, or both of none. -/
structure SameText (s s' : Lexeme) : Prop where
  whole : s.stop = none
  whole' : s'.stop = none
  text : s.text = s'.text

mutual

/-- Whole values that are equal up to the order of members and the spelling of strings. -/
inductive Draft.Reordered : Draft → Draft → Prop where
  | null : Draft.Reordered .null .null
  | bool (b : Bool) : Draft.Reordered (.bool b) (.bool b)
  | number (n : Numeral) : Draft.Reordered (.number n) (.number n)
  | text {s s' : Lexeme} (h : SameText s s') : Draft.Reordered (.text s) (.text s')
  | array {items items' : List Draft} (h : Draft.ReorderedItems items items') :
      Draft.Reordered (.array items none) (.array items' none)
  | object {members ordered members' : List (Lexeme × Draft)} (hperm : members.Perm ordered)
      (h : Draft.ReorderedMembers ordered members') :
      Draft.Reordered (.object members none) (.object members' none)

inductive Draft.ReorderedItems : List Draft → List Draft → Prop where
  | nil : Draft.ReorderedItems [] []
  | cons {d d' : Draft} {items items' : List Draft} (h : Draft.Reordered d d')
      (hrest : Draft.ReorderedItems items items') : Draft.ReorderedItems (d :: items) (d' :: items')

inductive Draft.ReorderedMembers : List (Lexeme × Draft) → List (Lexeme × Draft) → Prop where
  | nil : Draft.ReorderedMembers [] []
  | cons {k k' : Lexeme} {d d' : Draft} {members members' : List (Lexeme × Draft)}
      (hkey : SameText k k') (h : Draft.Reordered d d')
      (hrest : Draft.ReorderedMembers members members') :
      Draft.ReorderedMembers ((k, d) :: members) ((k', d') :: members')

end

/-- No object gives a key twice. -/
inductive Draft.DistinctKeys : Draft → Prop where
  | null : Draft.DistinctKeys .null
  | bool (b : Bool) : Draft.DistinctKeys (.bool b)
  | number (n : Numeral) : Draft.DistinctKeys (.number n)
  | text (s : Lexeme) : Draft.DistinctKeys (.text s)
  | array {items : List Draft} {stop : Option Flaw} (h : ∀ d ∈ items, Draft.DistinctKeys d) :
      Draft.DistinctKeys (.array items stop)
  | object {members : List (Lexeme × Draft)} {stop : Option Flaw}
      (hkeys : members.Pairwise fun m n => ∀ k, m.1.text = .ok k → n.1.text ≠ .ok k)
      (h : ∀ m ∈ members, Draft.DistinctKeys m.2) : Draft.DistinctKeys (.object members stop)

mutual

/-- Decoded values that are equal up to the order of members, none of which share a key. -/
inductive Reordered : Json → Json → Prop where
  | null : Reordered .null .null
  | bool (b : Bool) : Reordered (.bool b) (.bool b)
  | number (n : Numeral) : Reordered (.number n) (.number n)
  | text (s : String) : Reordered (.text s) (.text s)
  | array {items items' : List Json} (h : ReorderedItems items items') :
      Reordered (.array items) (.array items')
  | object {members ordered members' : List (String × Json)} (hkeys : (members.map Prod.fst).Nodup)
      (hperm : members.Perm ordered) (h : ReorderedMembers ordered members') :
      Reordered (.object members) (.object members')

inductive ReorderedItems : List Json → List Json → Prop where
  | nil : ReorderedItems [] []
  | cons {v v' : Json} {items items' : List Json} (h : Reordered v v')
      (hrest : ReorderedItems items items') : ReorderedItems (v :: items) (v' :: items')

inductive ReorderedMembers : List (String × Json) → List (String × Json) → Prop where
  | nil : ReorderedMembers [] []
  | cons {k : String} {v v' : Json} {members members' : List (String × Json)} (h : Reordered v v')
      (hrest : ReorderedMembers members members') :
      ReorderedMembers ((k, v) :: members) ((k, v') :: members')

end

/-! ### Skipping -/

theorem skipMembers_eq_ok_iff {members : List (Lexeme × Draft)} :
    skipMembers members = .ok () ↔ ∀ m ∈ members, m.1.stop = none ∧ m.2.skip = .ok () := by
  induction members with
  | nil => exact ⟨fun _ => nofun, fun _ => rfl⟩
  | cons m members ih =>
      rw [List.forall_mem_cons, ← ih]
      constructor
      · intro h
        obtain ⟨u, hstop, h⟩ := bind_eq_ok_iff.1 h
        obtain ⟨v, hskip, h⟩ := bind_eq_ok_iff.1 h
        exact ⟨⟨atEnd_eq_ok_iff.1 hstop, hskip⟩, h⟩
      · rintro ⟨⟨hstop, hskip⟩, h⟩
        exact bind_eq_ok_iff.2 ⟨(), atEnd_eq_ok_iff.2 hstop, bind_eq_ok_iff.2 ⟨(), hskip, h⟩⟩

mutual

theorem Draft.Reordered.skip {d d' : Draft} :
    Draft.Reordered d d' → d.skip = .ok () ∧ d'.skip = .ok ()
  | .null => ⟨rfl, rfl⟩
  | .bool _ => ⟨rfl, rfl⟩
  | .number _ => ⟨rfl, rfl⟩
  | .text h => ⟨atEnd_eq_ok_iff.2 h.whole, atEnd_eq_ok_iff.2 h.whole'⟩
  | .array h => by
      obtain ⟨hitems, hitems'⟩ := Draft.ReorderedItems.skip h
      exact ⟨bind_eq_ok_iff.2 ⟨(), hitems, rfl⟩, bind_eq_ok_iff.2 ⟨(), hitems', rfl⟩⟩
  | .object hperm h => by
      obtain ⟨hordered, hmembers'⟩ := Draft.ReorderedMembers.skip h
      have hmembers : skipMembers _ = .ok () := skipMembers_eq_ok_iff.2 fun m hm =>
        skipMembers_eq_ok_iff.1 hordered m (hperm.subset hm)
      exact ⟨bind_eq_ok_iff.2 ⟨(), hmembers, rfl⟩, bind_eq_ok_iff.2 ⟨(), hmembers', rfl⟩⟩

theorem Draft.ReorderedItems.skip {items items' : List Draft} :
    Draft.ReorderedItems items items' → skipItems items = .ok () ∧ skipItems items' = .ok ()
  | .nil => ⟨rfl, rfl⟩
  | .cons h hrest => by
      obtain ⟨hskip, hskip'⟩ := Draft.Reordered.skip h
      obtain ⟨hitems, hitems'⟩ := Draft.ReorderedItems.skip hrest
      exact ⟨bind_eq_ok_iff.2 ⟨(), hskip, hitems⟩, bind_eq_ok_iff.2 ⟨(), hskip', hitems'⟩⟩

theorem Draft.ReorderedMembers.skip {members members' : List (Lexeme × Draft)} :
    Draft.ReorderedMembers members members' →
      skipMembers members = .ok () ∧ skipMembers members' = .ok ()
  | .nil => ⟨rfl, rfl⟩
  | .cons hkey h hrest => by
      obtain ⟨hskip, hskip'⟩ := Draft.Reordered.skip h
      obtain ⟨hmembers, hmembers'⟩ := Draft.ReorderedMembers.skip hrest
      rw [skipMembers_eq_ok_iff] at hmembers hmembers' ⊢
      rw [skipMembers_eq_ok_iff]
      exact ⟨List.forall_mem_cons.2 ⟨⟨hkey.whole, hskip⟩, hmembers⟩,
        List.forall_mem_cons.2 ⟨⟨hkey.whole', hskip'⟩, hmembers'⟩⟩

end

/-! ### Decoding -/

def readMember {α : Type} (read : Draft → Except Flaw α) (m : Lexeme × Draft) :
    Except Flaw (String × α) :=
  m.1.text.bind fun k => (read m.2).map (k, ·)

theorem nodup_keys_of_readMember {α : Type} {read : Draft → Except Flaw α}
    {members : List (Lexeme × Draft)} {es : List (String × α)}
    (hkeys : members.Pairwise fun m n => ∀ k, m.1.text = .ok k → n.1.text ≠ .ok k)
    (h : members.mapM (readMember read) = .ok es) : (es.map Prod.fst).Nodup := by
  refine List.pairwise_map.2 (pairwise_of_mapM h hkeys fun hne hm hn heq => ?_)
  obtain ⟨k, hk, hm⟩ := bind_eq_ok_iff.1 hm
  obtain ⟨v, -, rfl⟩ := map_eq_ok_iff.1 hm
  obtain ⟨j, hj, hn⟩ := bind_eq_ok_iff.1 hn
  obtain ⟨w, -, rfl⟩ := map_eq_ok_iff.1 hn
  exact hne k hk (hj.trans (congrArg Except.ok heq.symm))

theorem alike_readMembers {α : Type} {members ordered : List (Lexeme × Draft)}
    (hkeys : members.Pairwise fun m n => ∀ k, m.1.text = .ok k → n.1.text ≠ .ok k)
    (hperm : members.Perm ordered) (read : Draft → Except Flaw α) :
    Alike (fun es fs => es.Perm fs ∧ (es.map Prod.fst).Nodup) (members.mapM (readMember read))
      (ordered.mapM (readMember read)) :=
  (Alike.mapM_perm hperm _).and_left fun _ => nodup_keys_of_readMember hkeys

theorem decodeMembers_eq (room : Nat) (members : List (Lexeme × Draft)) :
    decodeMembers room members = members.mapM (readMember (Draft.decode room)) := by
  induction members with
  | nil => rfl
  | cons m members ih =>
      rw [List.mapM_cons, ← ih, decodeMembers, readMember]
      cases m.1.text with
      | error f => rfl
      | ok k => cases m.2.decode room <;> rfl

theorem decode_array_eq (room : Nat) (items : List Draft) : (Draft.array items none).decode room =
    if room = 0 then .error .malformed else (decodeItems (room - 1) items).map .array := by
  rw [Draft.decode]
  split
  · rfl
  · cases decodeItems (room - 1) items <;> rfl

theorem decode_object_eq (room : Nat) (members : List (Lexeme × Draft)) :
    (Draft.object members none).decode room =
      if room = 0 then .error .malformed else (decodeMembers (room - 1) members).map .object := by
  rw [Draft.decode]
  split
  · rfl
  · cases decodeMembers (room - 1) members <;> rfl

/-- Members are first put in the order of the other object and then compared in turn. -/
theorem alike_decode_object {room : Nat} {members ordered members' : List (Lexeme × Draft)}
    (hkeys : members.Pairwise fun m n => ∀ k, m.1.text = .ok k → n.1.text ≠ .ok k)
    (hperm : members.Perm ordered)
    (h : Alike ReorderedMembers (decodeMembers (room - 1) ordered)
      (decodeMembers (room - 1) members')) :
    Alike Reordered ((Draft.object members none).decode room)
      ((Draft.object members' none).decode room) := by
  rw [decode_object_eq, decode_object_eq]
  split
  · exact .error _ _
  · have hsame := alike_readMembers hkeys hperm (Draft.decode (room - 1))
    rw [← decodeMembers_eq, ← decodeMembers_eq] at hsame
    have hall := hsame.trans h fun ms os ms' hos hms' =>
      Reordered.object hos.2 hos.1 hms'
    exact hall.map fun _ _ h => h

mutual

theorem Draft.Reordered.decode {d d' : Draft} (room : Nat) : Draft.Reordered d d' →
    d.DistinctKeys → Alike Json.Reordered (d.decode room) (d'.decode room)
  | .null, _ => .ok .null
  | .bool b, _ => .ok (.bool b)
  | .number n, _ => by
      rw [Draft.decode]
      split
      · exact .ok (.number n)
      · exact .error _ _
  | .text h, _ => by
      rw [Draft.decode, Draft.decode, h.text]
      exact (Alike.of_eq rfl).map fun s s' hs => hs ▸ .text s
  | .array h, hd => by
      rw [decode_array_eq, decode_array_eq]
      split
      · exact .error _ _
      · cases hd with
        | array hd => exact (Draft.ReorderedItems.decode (room - 1) h hd).map fun _ _ h => .array h
  | .object hperm h, hd => by
      cases hd with
      | object hkeys hd =>
          exact alike_decode_object hkeys hperm
            (Draft.ReorderedMembers.decode (room - 1) h fun m hm => hd m (hperm.mem_iff.2 hm))

theorem Draft.ReorderedItems.decode {items items' : List Draft} (room : Nat) :
    Draft.ReorderedItems items items' → (∀ d ∈ items, d.DistinctKeys) →
      Alike Json.ReorderedItems (decodeItems room items) (decodeItems room items')
  | .nil, _ => .ok .nil
  | .cons h hrest, hd => by
      obtain ⟨hfirst, hothers⟩ := List.forall_mem_cons.1 hd
      exact (Draft.Reordered.decode room h hfirst).bind fun v v' hv =>
        (Draft.ReorderedItems.decode room hrest hothers).bind fun _ _ hvs => .ok (.cons hv hvs)

theorem Draft.ReorderedMembers.decode {members members' : List (Lexeme × Draft)} (room : Nat) :
    Draft.ReorderedMembers members members' → (∀ m ∈ members, m.2.DistinctKeys) →
      Alike Json.ReorderedMembers (decodeMembers room members) (decodeMembers room members')
  | .nil, _ => .ok .nil
  | .cons hkey h hrest, hd => by
      obtain ⟨hfirst, hothers⟩ := List.forall_mem_cons.1 hd
      refine (Alike.of_eq hkey.text).bind fun k k' hk => ?_
      subst hk
      exact (Draft.Reordered.decode room h hfirst).bind fun v v' hv =>
        (Draft.ReorderedMembers.decode room hrest hothers).bind fun _ _ hms => .ok (.cons hv hms)

end

/-! ### Sorting -/

theorem lookup_sortedMembers {members : List (String × Json)} (hkeys : (members.map Prod.fst).Nodup)
    (k : String) : (sortedMembers members).lookup k = (members.lookup k).map sorted := by
  induction members generalizing k with
  | nil => rfl
  | cons m members ih =>
      obtain ⟨hnew, hkeys⟩ := List.nodup_cons.1 hkeys
      have hnone : members.lookup m.1 = none := by
        rw [← Option.not_isSome_iff_eq_none, Dict.lookup_isSome_iff]
        exact hnew
      have hnot : ¬((sortedMembers members).lookup m.1).isSome := by
        rw [ih hkeys, hnone]
        exact nofun
      rw [sortedMembers, if_neg hnot, Dict.lookup_insertEntry, Dict.lookup_cons_eq, ih hkeys]
      split <;> rfl

theorem sortedMembers_perm {members ordered : List (String × Json)}
    (hkeys : (members.map Prod.fst).Nodup) (h : members.Perm ordered) :
    sortedMembers members = sortedMembers ordered := by
  refine Dict.eq_of_lookup_eq (increasing_sortedMembers members) (increasing_sortedMembers ordered)
    fun k => ?_
  rw [lookup_sortedMembers hkeys, lookup_sortedMembers ((h.map Prod.fst).nodup hkeys),
    Dict.lookup_perm hkeys h]

mutual

theorem Reordered.sorted_eq {v v' : Json} : Reordered v v' → v.sorted = v'.sorted
  | .null => rfl
  | .bool _ => rfl
  | .number _ => rfl
  | .text _ => rfl
  | .array h => congrArg Json.array (ReorderedItems.sortedItems_eq h)
  | .object hkeys hperm h => congrArg Json.object
      ((sortedMembers_perm hkeys hperm).trans (ReorderedMembers.sortedMembers_eq h))

theorem ReorderedItems.sortedItems_eq {items items' : List Json} :
    ReorderedItems items items' → sortedItems items = sortedItems items'
  | .nil => rfl
  | .cons h hrest => by
      rw [sortedItems, sortedItems, Reordered.sorted_eq h, ReorderedItems.sortedItems_eq hrest]

theorem ReorderedMembers.sortedMembers_eq {members members' : List (String × Json)} :
    ReorderedMembers members members' → sortedMembers members = sortedMembers members'
  | .nil => rfl
  | .cons h hrest => by
      rw [sortedMembers, sortedMembers, Reordered.sorted_eq h,
        ReorderedMembers.sortedMembers_eq hrest]

end

/-! ### Reading -/

theorem Draft.ReorderedMembers.forall₂ {members members' : List (Lexeme × Draft)} :
    Draft.ReorderedMembers members members' →
      List.Forall₂ (fun m m' => SameText m.1 m'.1 ∧ Draft.Reordered m.2 m'.2) members members'
  | .nil => .nil
  | .cons hkey h hrest => .cons ⟨hkey, h⟩ (Draft.ReorderedMembers.forall₂ hrest)

theorem ReorderedItems.forall₂ {items items' : List Json} :
    ReorderedItems items items' → List.Forall₂ Reordered items items'
  | .nil => .nil
  | .cons h hrest => .cons h (ReorderedItems.forall₂ hrest)

theorem ReorderedMembers.forall₂ {members members' : List (String × Json)} :
    ReorderedMembers members members' →
      List.Forall₂ (fun m m' => m.1 = m'.1 ∧ Reordered m.2 m'.2) members members'
  | .nil => .nil
  | .cons h hrest => .cons ⟨rfl, h⟩ (ReorderedMembers.forall₂ hrest)

theorem Draft.Reordered.asText {d d' : Draft} (h : Draft.Reordered d d') :
    Alike Eq d.asText d'.asText := by
  cases h with
  | text h => exact .of_eq h.text
  | null | bool | number | array | object => exact .error _ _

theorem Draft.Reordered.orNull {α γ : Type} {read : Draft → Except Flaw α} {g : α → γ} {d d' : Draft}
    (h : Draft.Reordered d d') (hread : Alike (fun a a' => g a = g a') (read d) (read d')) :
    Alike (fun o o' => o.map g = o'.map g) (d.orNull read) (d'.orNull read) := by
  have hsome : Alike (fun o o' => o.map g = o'.map g) ((read d).map some) ((read d').map some) :=
    hread.map fun a a' ha => congrArg some ha
  cases h with
  | null => exact .ok rfl
  | text | bool | number | array | object => exact hsome

theorem textMembers_eq (members : List (Lexeme × Draft)) :
    textMembers members = members.mapM (readMember Draft.asText) := by
  induction members with
  | nil => rfl
  | cons m members ih =>
      rw [List.mapM_cons, ← ih, textMembers, readMember]
      cases m.1.text with
      | error f => rfl
      | ok k => cases m.2.asText <;> rfl

theorem asTexts_object_eq (members : List (Lexeme × Draft)) :
    (Draft.object members none).asTexts = members.mapM (readMember Draft.asText) := by
  rw [Draft.asTexts, ← textMembers_eq]
  cases textMembers members <;> rfl

theorem alike_readMember_asText {m m' : Lexeme × Draft}
    (h : SameText m.1 m'.1 ∧ Draft.Reordered m.2 m'.2) :
    Alike Eq (readMember Draft.asText m) (readMember Draft.asText m') := by
  refine (Alike.of_eq h.1.text).bind fun k k' hk => h.2.asText.map fun v v' hv => ?_
  rw [hk, hv]

theorem Draft.Reordered.asTexts {d d' : Draft} (h : Draft.Reordered d d') (hd : d.DistinctKeys) :
    Alike (fun es es' => Dict.ofList es = Dict.ofList es') d.asTexts d'.asTexts := by
  cases h with
  | object hperm h =>
      cases hd with
      | object hkeys hd =>
          have hsame := alike_readMembers hkeys hperm Draft.asText
          have hall := Alike.mapM (h.forall₂.imp fun m m' => alike_readMember_asText)
          rw [asTexts_object_eq, asTexts_object_eq]
          refine hsame.trans hall fun es fs es' hfs hes' => ?_
          rw [List.forall₂_eq_eq_eq] at hes'
          rw [Dict.ofList_perm hfs.2 hfs.1, hes']
  | null | bool | number | text | array => exact .error _ _

end Swatchbook.Json

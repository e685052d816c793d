import Mathlib.Data.List.Nodup
import Swatchbook.Dict

/-! Dictionaries made of lists. A list that gives no key twice says the same in any order. -/
namespace Swatchbook

theorem eq_of_increasing {ks ls : List String} (hks : ks.Pairwise (· < ·))
    (hls : ls.Pairwise (· < ·)) (h : ∀ k, k ∈ ks ↔ k ∈ ls) : ks = ls :=
  ((List.perm_ext_iff_of_nodup (nodup_of_increasing hks) (nodup_of_increasing hls)).2 h).eq_of_pairwise
    (fun _ _ _ _ hkl hlk => absurd hlk (String.lt_asymm hkl)) hks hls

namespace Dict

variable {α : Type}

theorem lookup_eq_some_iff_mem {es : List (String × α)} (h : (es.map Prod.fst).Nodup) {k : String}
    {v : α} : es.lookup k = some v ↔ (k, v) ∈ es := by
  induction es with
  | nil => simp
  | cons e es ih =>
      obtain ⟨hnew, hes⟩ := List.nodup_cons.1 h
      rw [lookup_cons_eq, List.mem_cons]
      by_cases hk : k = e.1
      · subst hk
        have hnot : (e.1, v) ∉ es := fun he => hnew (List.mem_map.2 ⟨_, he, rfl⟩)
        rw [if_pos rfl, Option.some.injEq, or_iff_left hnot, eq_comm, Prod.ext_iff]
        exact ⟨fun h => ⟨rfl, h⟩, fun h => h.2⟩
      · have hne : (k, v) ≠ e := fun he => hk (congrArg Prod.fst he)
        rw [if_neg hk, ih hes, or_iff_right hne]

theorem nodup_map_fst {es : List (String × α)} (h : Increasing es) : (es.map Prod.fst).Nodup :=
  nodup_keys ⟨es, h⟩

theorem exists_split {es : List (String × α)} (h : Increasing es) {k : String} {v : α}
    (hk : (k, v) ∈ es) :
    ∃ before after, es = before ++ (k, v) :: after ∧ ∀ e ∈ before ++ after, e.1 ≠ k := by
  obtain ⟨before, after, rfl⟩ := List.append_of_mem hk
  refine ⟨before, after, rfl, fun e he heq => ?_⟩
  have hnodup := nodup_map_fst h
  rw [List.map_append, List.map_cons, List.nodup_middle, ← List.map_append] at hnodup
  exact (List.nodup_cons.1 hnodup).1 (List.mem_map.2 ⟨e, he, heq⟩)

theorem map_fst_insertEntry {es : List (String × α)} (h : Increasing es) {k : String} (v : α)
    (hk : k ∈ es.map Prod.fst) : (insertEntry k v es).map Prod.fst = es.map Prod.fst := by
  induction es with
  | nil => cases hk
  | cons e r ih =>
      obtain ⟨hlt, hr⟩ := List.pairwise_cons.1 h
      have hle : ¬k < e.1 := by
        rintro hlt'
        rcases List.mem_cons.1 hk with rfl | hk
        · exact String.lt_irrefl _ hlt'
        · obtain ⟨d, hd, rfl⟩ := List.mem_map.1 hk
          exact String.lt_irrefl _ (String.lt_trans hlt' (hlt d hd))
      rw [insertEntry, if_neg hle]
      split
      · rename_i hne
        have hk' : k ∈ r.map Prod.fst := by
          refine (List.mem_cons.1 hk).resolve_left fun heq => ?_
          rw [heq] at hne
          exact String.lt_irrefl _ hne
        rw [List.map_cons, List.map_cons, ih hr hk']
      · rename_i hle'
        rw [List.map_cons, List.map_cons, eq_of_not_lt hle hle']

theorem keys_insert_of_mem {d : Dict α} {k : String} {v : α} (h : k ∈ d.keys) :
    (d.insert k v).keys = d.keys :=
  map_fst_insertEntry d.increasing v h

theorem lookup_perm {es fs : List (String × α)} (hkeys : (es.map Prod.fst).Nodup) (h : es.Perm fs)
    (k : String) : es.lookup k = fs.lookup k := by
  have hkeys' : (fs.map Prod.fst).Nodup := (h.map Prod.fst).nodup hkeys
  apply Option.ext
  intro v
  rw [lookup_eq_some_iff_mem hkeys, lookup_eq_some_iff_mem hkeys', h.mem_iff]

theorem lookup_filter_fst (p : String → Bool) (entries : List (String × α)) (k : String) :
    (entries.filter fun e => p e.1).lookup k = if p k then entries.lookup k else none := by
  induction entries with
  | nil => simp
  | cons e r ih =>
      obtain ⟨j, v⟩ := e
      rw [List.filter_cons, List.lookup_cons]
      by_cases hk : k = j
      · subst hk
        cases hp : p k <;> simp [hp, ih]
      · have hb : (k == j) = false := by simpa using hk
        cases hp : p j <;> simp [List.lookup_cons, hb, ih]

theorem lookup_filter_ne (name : String) (entries : List (String × α)) (k : String) :
    (entries.filter fun e => e.1 != name).lookup k =
      if k = name then none else entries.lookup k := by
  rw [lookup_filter_fst (· != name)]
  by_cases hk : k = name <;> simp [hk]

theorem get?_eq_none_iff {d : Dict α} {k : String} : d.get? k = none ↔ k ∉ d.keys := by
  rw [← get?_isSome_iff, Option.not_isSome_iff_eq_none]

theorem contains_eq_of_rel {β : Type} {r : α → β → Prop} {d : Dict α} {e : Dict β}
    (h : ∀ k, Option.Rel r (d.get? k) (e.get? k)) (k : String) : e.contains k = d.contains k := by
  have hk := h k
  unfold contains
  generalize d.get? k = v at hk ⊢
  generalize e.get? k = w at hk ⊢
  cases hk <;> rfl

theorem keys_eq_of_rel {β : Type} {r : α → β → Prop} {d : Dict α} {e : Dict β}
    (h : ∀ k, Option.Rel r (d.get? k) (e.get? k)) : e.keys = d.keys :=
  eq_of_increasing e.pairwise_keys d.pairwise_keys fun k => by
    rw [← get?_isSome_iff, ← get?_isSome_iff]
    exact Bool.eq_iff_iff.1 (contains_eq_of_rel h k)

theorem entries_mapWithKey (d : Dict α) {β : Type} (f : String → β) :
    (d.mapWithKey fun k _ => f k).entries = d.keys.map fun k => (k, f k) := by
  rw [keys, List.map_map]
  rfl

theorem mapWithKey_eq_of_keys {β γ : Type} {d : Dict α} {e : Dict β} (h : e.keys = d.keys)
    (f : String → γ) : e.mapWithKey (fun k _ => f k) = d.mapWithKey fun k _ => f k := by
  apply ext_get?
  intro k
  rw [get?, get?, entries_mapWithKey, entries_mapWithKey, h]

theorem get?_restrict (d : Dict α) (p : String → Bool) (k : String) :
    (d.restrict p).get? k = if p k then d.get? k else none :=
  lookup_filter_fst p d.entries k

theorem keys_restrict (d : Dict α) (p : String → Bool) :
    (d.restrict p).keys = d.keys.filter p := by
  rw [keys, restrict, keys, List.filter_map]
  rfl

theorem get?_ofList (es : List (String × α)) (k : String) :
    (ofList es).get? k = es.reverse.lookup k := by
  have hfold : ∀ (es : List (String × α)) (d : Dict α),
      (es.foldl (fun d e => d.insert e.1 e.2) d).get? k = (es.reverse.lookup k).or (d.get? k) := by
    intro es
    induction es with
    | nil => exact fun d => rfl
    | cons e es ih =>
        intro d
        rw [List.foldl_cons, ih, get?_insert, List.reverse_cons, List.lookup_append, Option.or_assoc,
          lookup_cons_eq]
        by_cases hk : k = e.1
        · rw [if_pos hk, if_pos hk]
          rfl
        · rw [if_neg hk, if_neg hk]
          rfl
  rw [ofList, hfold]
  exact Option.or_none

theorem mem_of_get?_ofList {es : List (String × α)} {k : String} {v : α}
    (h : (ofList es).get? k = some v) : (k, v) ∈ es := by
  rw [get?_ofList] at h
  obtain ⟨before, after, hes, -⟩ := List.lookup_eq_some_iff.1 h
  exact List.mem_reverse.1 (by rw [hes]; simp)

theorem get?_ofList_of_nodup {es : List (String × α)} (h : (es.map Prod.fst).Nodup) (k : String) :
    (ofList es).get? k = es.lookup k := by
  rw [get?_ofList]
  exact (lookup_perm h (List.reverse_perm es).symm k).symm

theorem ofList_entries (d : Dict α) : ofList d.entries = d :=
  ext_get? (get?_ofList_of_nodup d.nodup_keys)

theorem ofList_perm {es fs : List (String × α)} (hkeys : (es.map Prod.fst).Nodup) (h : es.Perm fs) :
    ofList es = ofList fs := by
  apply ext_get?
  intro k
  rw [get?_ofList_of_nodup hkeys, get?_ofList_of_nodup ((h.map Prod.fst).nodup hkeys),
    lookup_perm hkeys h]

theorem find?_entries_eq_some_iff {d : Dict α} {p : α → Bool} {k : String} {v : α} :
    d.entries.find? (fun e => p e.2) = some (k, v) ↔
      d.get? k = some v ∧ p v = true ∧ ∀ j w, d.get? j = some w → p w = true → k ≤ j := by
  have hfound : ∀ {k : String} {v : α}, d.entries.find? (fun e => p e.2) = some (k, v) →
      d.get? k = some v ∧ p v = true ∧ ∀ j w, d.get? j = some w → p w = true → k ≤ j := by
    intro k v h
    obtain ⟨hp, before, after, hsplit, hbefore⟩ := List.find?_eq_some_iff_append.1 h
    have hincreasing := d.increasing
    rw [hsplit, Increasing, List.pairwise_append, List.pairwise_cons] at hincreasing
    refine ⟨mem_entries_iff.1 (hsplit ▸ List.mem_append_right _ List.mem_cons_self), hp, ?_⟩
    intro j w hw hpw
    have hmem := mem_entries_iff.2 hw
    rw [hsplit, List.mem_append, List.mem_cons] at hmem
    rcases hmem with hmem | hmem | hmem
    · have hnot := hbefore _ hmem
      rw [hpw] at hnot
      cases hnot
    · cases hmem
      exact String.le_refl _
    · exact String.not_lt.1 (String.lt_asymm (hincreasing.2.1.1 _ hmem))
  refine ⟨hfound, ?_⟩
  rintro ⟨hk, hp, hleast⟩
  have hsome : (d.entries.find? fun e => p e.2).isSome = true :=
    List.find?_isSome.2 ⟨(k, v), mem_entries_iff.2 hk, hp⟩
  obtain ⟨⟨j, w⟩, hj⟩ := Option.isSome_iff_exists.1 hsome
  obtain ⟨hget, hpw, hleast'⟩ := hfound hj
  obtain rfl : k = j := String.le_antisymm (hleast j w hget hpw) (hleast' k v hk hp)
  rw [hj, Option.some.inj (hk.symm.trans hget)]

end Dict

end Swatchbook

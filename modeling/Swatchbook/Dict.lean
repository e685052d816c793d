/-!
Dictionaries with text keys. The entries stand in increasing order of their keys (the order of code
points, which is the order of the encoded bytes), each key once, so two dictionaries with the same
content are equal.
-/
namespace Swatchbook

def insertEntry {α : Type} (k : String) (v : α) : List (String × α) → List (String × α)
  | [] => [(k, v)]
  | (j, w) :: r =>
    if k < j then (k, v) :: (j, w) :: r
    else if j < k then (j, w) :: insertEntry k v r
    else (k, v) :: r

def Increasing {α : Type} (es : List (String × α)) : Prop :=
  es.Pairwise fun a b => a.1 < b.1

theorem eq_of_not_lt {a b : String} (h : ¬a < b) (h' : ¬b < a) : a = b :=
  String.le_antisymm (String.not_lt.1 h') (String.not_lt.1 h)

theorem nodup_of_increasing {ks : List String} (h : ks.Pairwise (· < ·)) : ks.Nodup := by
  refine List.Pairwise.imp (fun hlt heq => ?_) h
  rw [heq] at hlt
  exact String.lt_irrefl _ hlt

theorem fst_of_mem_insertEntry {α : Type} {k : String} {v : α} {es : List (String × α)}
    {e : String × α} (h : e ∈ insertEntry k v es) : e = (k, v) ∨ e ∈ es := by
  induction es with
  | nil => simp_all [insertEntry]
  | cons d r ih =>
    rw [insertEntry] at h
    split at h
    · simpa using h
    · split at h
      · rcases List.mem_cons.1 h with h | h
        · exact .inr (by simp [h])
        · exact (ih h).imp id (List.mem_cons_of_mem _)
      · rcases List.mem_cons.1 h with h | h
        · exact .inl h
        · exact .inr (List.mem_cons_of_mem _ h)

theorem Increasing.insertEntry {α : Type} {es : List (String × α)} (h : Increasing es) (k : String)
    (v : α) : Increasing (insertEntry k v es) := by
  induction es with
  | nil => simp [Swatchbook.insertEntry, Increasing]
  | cons d r ih =>
    obtain ⟨hd, hr⟩ := List.pairwise_cons.1 h
    rw [Swatchbook.insertEntry]
    split
    · next hk =>
      refine List.pairwise_cons.2 ⟨fun e he => ?_, h⟩
      rcases List.mem_cons.1 he with rfl | he
      · exact hk
      · exact String.lt_trans hk (hd e he)
    · split
      · next hk =>
        refine List.pairwise_cons.2 ⟨fun e he => ?_, ih hr⟩
        rcases fst_of_mem_insertEntry he with rfl | he
        · exact hk
        · exact hd e he
      · next hk hk' =>
        have : k = d.1 := eq_of_not_lt hk hk'
        exact List.pairwise_cons.2 ⟨fun e he => this ▸ hd e he, hr⟩

/-- A finite map from texts. -/
structure Dict (α : Type) where
  entries : List (String × α)
  increasing : Increasing entries
deriving DecidableEq

namespace Dict

variable {α β : Type}

def empty : Dict α := ⟨[], List.Pairwise.nil⟩

def insert (d : Dict α) (k : String) (v : α) : Dict α :=
  ⟨insertEntry k v d.entries, d.increasing.insertEntry k v⟩

/-- Later pairs win over earlier ones with the same key. -/
def ofList (es : List (String × α)) : Dict α :=
  es.foldl (fun d e => d.insert e.1 e.2) empty

def get? (d : Dict α) (k : String) : Option α :=
  d.entries.lookup k

def contains (d : Dict α) (k : String) : Bool :=
  (d.get? k).isSome

def keys (d : Dict α) : List String :=
  d.entries.map Prod.fst

def mapWithKey (d : Dict α) (f : String → α → β) : Dict β :=
  ⟨d.entries.map fun e => (e.1, f e.1 e.2),
    List.pairwise_map.2 (d.increasing.imp fun h => h)⟩

def restrict (d : Dict α) (p : String → Bool) : Dict α :=
  ⟨d.entries.filter fun e => p e.1, d.increasing.sublist List.filter_sublist⟩

theorem lookup_isSome_iff {es : List (String × α)} {k : String} :
    (es.lookup k).isSome ↔ k ∈ es.map Prod.fst := by
  induction es with
  | nil => simp
  | cons e r ih =>
    obtain ⟨j, v⟩ := e
    rw [List.lookup_cons]
    by_cases h : k = j
    · subst h; simp
    · have hb : (k == j) = false := by simpa using h
      simp [hb, h, ih]

theorem get?_isSome_iff {d : Dict α} {k : String} : (d.get? k).isSome ↔ k ∈ d.keys :=
  lookup_isSome_iff

theorem mem_keys_of_get? {d : Dict α} {k : String} {v : α} (h : d.get? k = some v) : k ∈ d.keys :=
  get?_isSome_iff.1 (Option.isSome_of_eq_some h)

theorem mem_entries_iff {d : Dict α} {k : String} {v : α} :
    (k, v) ∈ d.entries ↔ d.get? k = some v := by
  rw [get?, List.lookup_eq_some_iff]
  constructor
  · intro h
    obtain ⟨before, after, hd⟩ := List.append_of_mem h
    refine ⟨before, after, hd, fun e he => ?_⟩
    have hincreasing := d.increasing
    rw [hd, Increasing, List.pairwise_append] at hincreasing
    have hlt := hincreasing.2.2 e he (k, v) (List.mem_cons_self ..)
    rw [bne_iff_ne]
    rintro rfl
    exact String.lt_irrefl _ hlt
  · rintro ⟨before, after, hd, -⟩
    rw [hd]
    exact List.mem_append_right _ (List.mem_cons_self ..)

theorem lookup_eq_none_of_lt {es : List (String × α)} {k : String} (h : ∀ e ∈ es, k < e.1) :
    es.lookup k = none := by
  cases hk : es.lookup k with
  | none => rfl
  | some v =>
    obtain ⟨e, he, rfl⟩ := List.mem_map.1 (lookup_isSome_iff.1 (by rw [hk]; rfl))
    exact absurd (h e he) (String.lt_irrefl _)

theorem head_le_of_lookup_eq {j k : String} {v w : α} {r s : List (String × α)}
    (hlt : ∀ e ∈ s, j < e.1) (h : List.lookup k ((k, v) :: r) = List.lookup k ((j, w) :: s)) :
    ¬k < j := by
  intro hk
  have hnone : List.lookup k ((j, w) :: s) = none := by
    refine lookup_eq_none_of_lt fun e he => ?_
    rcases List.mem_cons.1 he with rfl | he
    · exact hk
    · exact String.lt_trans hk (hlt e he)
  rw [hnone] at h
  simp at h

theorem eq_of_lookup_eq {es fs : List (String × α)} (hes : Increasing es) (hfs : Increasing fs)
    (h : ∀ k, es.lookup k = fs.lookup k) : es = fs := by
  induction es generalizing fs with
  | nil =>
    cases fs with
    | nil => rfl
    | cons f s =>
      obtain ⟨j, w⟩ := f
      have := h j
      simp at this
  | cons e r ih =>
    obtain ⟨k, v⟩ := e
    obtain ⟨hlt, hr⟩ := List.pairwise_cons.1 hes
    cases fs with
    | nil =>
      have := h k
      simp at this
    | cons f s =>
      obtain ⟨j, w⟩ := f
      obtain ⟨hlt', hs⟩ := List.pairwise_cons.1 hfs
      obtain rfl : k = j :=
        eq_of_not_lt (head_le_of_lookup_eq hlt' (h k)) (head_le_of_lookup_eq hlt (h j).symm)
      obtain rfl : v = w := by simpa using h k
      refine congrArg _ (ih hr hs fun i => ?_)
      by_cases hi : i = k
      · subst hi
        rw [lookup_eq_none_of_lt hlt, lookup_eq_none_of_lt hlt']
      · have hb : (i == k) = false := by simpa using hi
        simpa [List.lookup_cons, hb] using h i

theorem ext_get? {d e : Dict α} (h : ∀ k, d.get? k = e.get? k) : d = e := by
  obtain ⟨es, hes⟩ := d
  obtain ⟨fs, hfs⟩ := e
  cases eq_of_lookup_eq hes hfs h
  rfl

theorem pairwise_keys (d : Dict α) : d.keys.Pairwise (· < ·) :=
  List.pairwise_map.2 d.increasing

@[simp] theorem keys_mapWithKey (d : Dict α) (f : String → α → β) :
    (d.mapWithKey f).keys = d.keys := by
  simp [keys, mapWithKey]

theorem lookup_map (es : List (String × α)) (f : String → α → β) (k : String) :
    (es.map fun e => (e.1, f e.1 e.2)).lookup k = (es.lookup k).map (f k) := by
  induction es with
  | nil => rfl
  | cons e r ih =>
    rw [List.map_cons, List.lookup_cons, List.lookup_cons]
    by_cases h : k = e.1
    · subst h
      simp
    · have hb : (k == e.1) = false := by simpa using h
      simpa [hb] using ih

theorem get?_mapWithKey (d : Dict α) (f : String → α → β) (k : String) :
    (d.mapWithKey f).get? k = (d.get? k).map (f k) :=
  lookup_map d.entries f k

theorem lookup_cons_eq (j : String) (e : String × α) (es : List (String × α)) :
    (e :: es).lookup j = if j = e.1 then some e.2 else es.lookup j := by
  rw [List.lookup_cons]
  by_cases h : j = e.1
  · simp [h]
  · rw [if_neg h, beq_false_of_ne h]

theorem lookup_insertEntry (k j : String) (v : α) (es : List (String × α)) :
    (insertEntry k v es).lookup j = if j = k then some v else es.lookup j := by
  induction es with
  | nil => rw [insertEntry, lookup_cons_eq]
  | cons e r ih =>
    rw [insertEntry]
    split
    · rw [lookup_cons_eq]
    · split
      · next hk =>
        rw [lookup_cons_eq, lookup_cons_eq, ih]
        by_cases h : j = k
        · have hne : j ≠ e.1 := fun he => String.lt_irrefl j (by rwa [← he, ← h] at hk)
          rw [if_neg hne, if_pos h, if_pos h]
        · rw [if_neg h, if_neg h]
      · next hk hk' =>
        have he : k = e.1 := eq_of_not_lt hk hk'
        rw [lookup_cons_eq, lookup_cons_eq]
        by_cases h : j = k
        · rw [if_pos h, if_pos h]
        · rw [if_neg h, if_neg h, if_neg (he ▸ h)]

theorem get?_insert (d : Dict α) (k j : String) (v : α) :
    (d.insert k v).get? j = if j = k then some v else d.get? j :=
  lookup_insertEntry k j v d.entries

theorem mem_keys_ofList {es : List (String × α)} {k : String} :
    k ∈ (ofList es).keys ↔ k ∈ es.map Prod.fst := by
  have hfold : ∀ (es : List (String × α)) (d : Dict α),
      k ∈ (es.foldl (fun d e => d.insert e.1 e.2) d).keys ↔ k ∈ d.keys ∨ k ∈ es.map Prod.fst := by
    intro es
    induction es with
    | nil => simp
    | cons e es ih =>
      intro d
      have hinsert : k ∈ (d.insert e.1 e.2).keys ↔ k = e.1 ∨ k ∈ d.keys := by
        rw [← get?_isSome_iff, ← get?_isSome_iff, get?_insert]
        by_cases h : k = e.1 <;> simp [h]
      rw [List.foldl_cons, ih, hinsert, List.map_cons, List.mem_cons, or_comm (a := k = e.1), or_assoc]
  rw [ofList, hfold]
  simp [empty, keys]

theorem nodup_keys (d : Dict α) : d.keys.Nodup :=
  nodup_of_increasing d.pairwise_keys

end Dict

def sortedDistinct (ks : List String) : List String :=
  (Dict.ofList (ks.map fun k => (k, ()))).keys

theorem pairwise_sortedDistinct (ks : List String) : (sortedDistinct ks).Pairwise (· < ·) :=
  Dict.pairwise_keys _

theorem mem_sortedDistinct {ks : List String} {k : String} : k ∈ sortedDistinct ks ↔ k ∈ ks := by
  rw [sortedDistinct, Dict.mem_keys_ofList, List.map_map]
  simp

end Swatchbook

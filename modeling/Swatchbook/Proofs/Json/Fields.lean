import Swatchbook.Proofs.Json.Reordered

/-! Records whose fields may be read in any order. A repeated field is refused wherever it
stands, so which of the two comes first does not count either. -/
namespace Swatchbook.Json.Shape

variable {φ δ ε σ : Type}

/-- Reading one field marks it as given, leaves the marks of the others, and can be swapped
with reading another. -/
structure AnyOrder (sh : Shape φ δ ε σ) : Prop where
  marks : ∀ {s s' f d}, sh.read s f d = .ok s' → sh.given s' f = true
  keeps : ∀ {s s' f g d}, g ≠ f → sh.read s f d = .ok s' → sh.given s' g = sh.given s g
  swaps : ∀ {s s' t f g d e}, g ≠ f → sh.read s f d = .ok s' → sh.read s' g e = .ok t →
    ∃ u, sh.read s g e = .ok u ∧ sh.read u f d = .ok t

def take (sh : Shape φ δ ε σ) (repeated : φ → ε) (s : σ) : Except ε (Option (φ × δ)) → Except ε σ
  | .error e => .error e
  | .ok none => .ok s
  | .ok (some (f, d)) => if sh.given s f then .error (repeated f) else sh.read s f d

namespace AnyOrder

variable {sh : Shape φ δ ε σ} {repeated : φ → ε} {s : σ} {f g : φ}

theorem take_twice (hsh : AnyOrder sh) (s : σ) (f : φ) (d e : δ) :
    ∃ fault, ((sh.take repeated s (.ok (some (f, d)))).bind fun s =>
      sh.take repeated s (.ok (some (f, e)))) = .error fault := by
  simp only [take]
  split
  · exact ⟨_, rfl⟩
  · cases h : sh.read s f d with
    | error fault => exact ⟨fault, rfl⟩
    | ok s' => exact ⟨repeated f, by simp only [Except.bind, hsh.marks h, if_true]⟩

theorem take_given (hsh : AnyOrder sh) (hfg : f ≠ g) (hf : sh.given s f = true) (d e : δ) :
    ∃ fault, ((sh.take repeated s (.ok (some (g, e)))).bind fun s =>
      sh.take repeated s (.ok (some (f, d)))) = .error fault := by
  simp only [take]
  split
  · exact ⟨_, rfl⟩
  · cases h : sh.read s g e with
    | error fault => exact ⟨fault, rfl⟩
    | ok s' => exact ⟨repeated f, by simp only [Except.bind, hsh.keeps hfg h, hf, if_true]⟩

theorem take_free (hsh : AnyOrder sh) (hfg : f ≠ g) (hf : ¬sh.given s f = true)
    (hg : ¬sh.given s g = true) (d e : δ) :
    ((sh.take repeated s (.ok (some (f, d)))).bind fun s =>
      sh.take repeated s (.ok (some (g, e)))) =
        (sh.read s f d).bind fun s => sh.read s g e := by
  simp only [take]
  rw [if_neg hf]
  cases h : sh.read s f d with
  | error fault => rfl
  | ok s' =>
      change (if sh.given s' g then _ else _) = _
      rw [hsh.keeps hfg.symm h, if_neg hg]
      rfl

theorem alike_read (hsh : AnyOrder sh) (hfg : f ≠ g) (s : σ) (d e : δ) :
    Alike Eq ((sh.read s f d).bind fun s => sh.read s g e)
      ((sh.read s g e).bind fun s => sh.read s f d) := by
  refine .of_ok_iff fun t => ⟨fun h => ?_, fun h => ?_⟩
  · obtain ⟨s', hs', ht⟩ := bind_eq_ok_iff.1 h
    exact bind_eq_ok_iff.2 (hsh.swaps hfg.symm hs' ht)
  · obtain ⟨s', hs', ht⟩ := bind_eq_ok_iff.1 h
    exact bind_eq_ok_iff.2 (hsh.swaps hfg hs' ht)

theorem take_swap (hsh : AnyOrder sh) (repeated : φ → ε) (s : σ) (a b : Except ε (Option (φ × δ))) :
    Alike Eq ((sh.take repeated s a).bind fun s => sh.take repeated s b)
      ((sh.take repeated s b).bind fun s => sh.take repeated s a) := by
  have hfault : ∀ (x : Except ε σ) (e : ε),
      ∃ e', (x.bind fun _ => .error e : Except ε σ) = .error e' := by
    intro x e
    cases x with
    | error e' => exact ⟨e', rfl⟩
    | ok s => exact ⟨e, rfl⟩
  have hnone : ∀ x : Except ε σ, x.bind Except.ok = x := by
    intro x
    cases x <;> rfl
  -- Only two values of fields are of interest: a fault fails both orders, and a member that is
  -- passed over changes neither.
  match a, b with
  | .error e, b => exact .of_error ⟨e, rfl⟩ (hfault _ e)
  | a, .error e => exact .of_error (hfault _ e) ⟨e, rfl⟩
  | .ok none, b => exact .of_eq (hnone _).symm
  | a, .ok none => exact .of_eq (hnone _)
  | .ok (some (f, d)), .ok (some (g, e)) =>
      by_cases hfg : f = g
      · subst hfg
        exact .of_error (hsh.take_twice s f d e) (hsh.take_twice s f e d)
      · by_cases hf : sh.given s f = true
        · refine .of_error ⟨repeated f, ?_⟩ (hsh.take_given hfg hf d e)
          simp only [take, hf, if_true]
          rfl
        · by_cases hg : sh.given s g = true
          · refine .of_error (hsh.take_given (Ne.symm hfg) hg e d) ⟨repeated g, ?_⟩
            simp only [take, hg, if_true]
            rfl
          · rw [hsh.take_free hfg hf hg, hsh.take_free (Ne.symm hfg) hg hf]
            exact hsh.alike_read hfg s d e

theorem foldlM_take_middle (hsh : AnyOrder sh) {before after : List (Except ε (Option (φ × δ)))}
    {d : δ} {t : σ} : (before ++ .ok (some (f, d)) :: after).foldlM (sh.take repeated) s = .ok t ↔
      ∃ u, (before ++ after).foldlM (sh.take repeated) s = .ok u ∧ sh.given u f = false ∧
        sh.read u f d = .ok t := by
  have hlast : (before ++ .ok (some (f, d)) :: after).Perm (before ++ after ++ [.ok (some (f, d))]) :=
    List.perm_middle.trans (List.perm_append_singleton _ _).symm
  have htake : ∀ u, sh.take repeated u (.ok (some (f, d))) = .ok t ↔
      sh.given u f = false ∧ sh.read u f d = .ok t := by
    intro u
    cases h : sh.given u f <;> simp [take, h]
  rw [(Alike.foldlM_perm hlast (hsh.take_swap repeated) s).eq_ok_iff, List.foldlM_append]
  exact bind_eq_ok_iff.trans (exists_congr fun u => and_congr_right fun _ => by
    rw [List.foldlM_cons, ← htake u]
    exact bind_eq_ok_iff.trans (by simp [pure, Except.pure]))

end AnyOrder

/-- Reading keeps a relation `R` of records for values related by `V`. -/
structure Respects (sh : Shape φ δ ε σ) (V : δ → δ → Prop) (R : σ → σ → Prop) : Prop where
  given : ∀ {s s'}, R s s' → ∀ f, sh.given s f = sh.given s' f
  read : ∀ {s s' d d'}, R s s' → ∀ f, V d d' → Alike R (sh.read s f d) (sh.read s' f d')

/-- Two members of no interest, or related values of one field. -/
def SameEntry (V : δ → δ → Prop) : Option (φ × δ) → Option (φ × δ) → Prop :=
  Option.Rel fun x x' => x.1 = x'.1 ∧ V x.2 x'.2

namespace Respects

variable {sh : Shape φ δ ε σ} {V : δ → δ → Prop} {R : σ → σ → Prop} {s s' : σ}

theorem alike_take (hsh : Respects sh V R) (repeated : φ → ε) {x x' : Except ε (Option (φ × δ))}
    (hs : R s s') (h : Alike (SameEntry V) x x') :
    Alike R (sh.take repeated s x) (sh.take repeated s' x') := by
  cases h with
  | error e e' => exact .error e e'
  | ok h =>
      cases h with
      | none => exact .ok hs
      | @some y y' h =>
          obtain ⟨f, d⟩ := y
          obtain ⟨f', d'⟩ := y'
          obtain ⟨rfl, hd⟩ := h
          simp only [take]
          rw [hsh.given hs f]
          split
          · exact .error _ _
          · exact hsh.read hs f hd

/-- Members in another order, with related values, make related records. -/
theorem alike_foldlM (hsh : Respects sh V R) (horder : AnyOrder sh) (repeated : φ → ε)
    {xs ys xs' : List (Except ε (Option (φ × δ)))} (hperm : xs.Perm ys)
    (h : List.Forall₂ (Alike (SameEntry V)) ys xs') (hs : R s s') :
    Alike R (xs.foldlM (sh.take repeated) s) (xs'.foldlM (sh.take repeated) s') := by
  have hsame := Alike.foldlM_perm hperm (horder.take_swap repeated) s
  have hall := Alike.foldlM h (fun _ _ _ _ => hsh.alike_take repeated) hs
  exact hsame.trans hall fun _ _ _ heq hR => heq ▸ hR

end Respects

/-! ### Texts -/

def draftEntry (sh : Shape φ Draft Flaw σ) (m : Lexeme × Draft) :
    Except Flaw (Option (φ × Draft)) :=
  m.1.text.bind fun k =>
    match sh.named k with
    | none => m.2.skip.map fun _ => none
    | some f => .ok (some (f, m.2))

theorem draftMembers_eq (sh : Shape φ Draft Flaw σ) (s : σ) (members : List (Lexeme × Draft)) :
    sh.draftMembers s members =
      (members.map sh.draftEntry).foldlM (sh.take fun _ => .mismatched) s := by
  induction members generalizing s with
  | nil => rfl
  | cons m members ih =>
      rw [draftMembers, List.map_cons, List.foldlM_cons, draftEntry]
      cases m.1.text with
      | error f => rfl
      | ok k =>
          simp only [bind, Except.bind]
          cases sh.named k with
          | none =>
              cases m.2.skip with
              | error f => rfl
              | ok u => exact ih s
          | some f =>
              simp only [take]
              split
              · rfl
              · cases sh.read s f m.2 with
                | error f => rfl
                | ok s' => exact ih s'

theorem draftMembers_middle {sh : Shape φ Draft Flaw σ} (hsh : AnyOrder sh)
    {before after : List (Lexeme × Draft)} {key : Lexeme} {k : String} {f : φ}
    (hkey : key.text = .ok k) (hf : sh.named k = some f) {d : Draft} {s t : σ} :
    sh.draftMembers s (before ++ (key, d) :: after) = .ok t ↔
      ∃ u, sh.draftMembers s (before ++ after) = .ok u ∧ sh.given u f = false ∧
        sh.read u f d = .ok t := by
  have hentry : sh.draftEntry (key, d) = .ok (some (f, d)) := by
    rw [draftEntry, hkey]
    simp [Except.bind, hf]
  simp only [draftMembers_eq, List.map_append, List.map_cons, hentry]
  exact hsh.foldlM_take_middle

namespace Respects

/-- Values of a text that are equal up to the order of members, with no key given twice. -/
def SameDraft (d d' : Draft) : Prop :=
  Draft.Reordered d d' ∧ d.DistinctKeys

variable {sh : Shape φ Draft Flaw σ} {R : σ → σ → Prop} {s s' : σ}

theorem alike_draftEntry (sh : Shape φ Draft Flaw σ) {m m' : Lexeme × Draft} (hkey : SameText m.1 m'.1)
    (h : SameDraft m.2 m'.2) : Alike (SameEntry SameDraft) (sh.draftEntry m) (sh.draftEntry m') := by
  refine (Alike.of_eq hkey.text).bind fun k k' hk => ?_
  subst hk
  cases sh.named k with
  | none =>
      rw [h.1.skip.1, h.1.skip.2]
      exact .ok .none
  | some f => exact .ok (.some ⟨rfl, h⟩)

theorem alike_draftEntries (sh : Shape φ Draft Flaw σ) {members members' : List (Lexeme × Draft)}
    (h : Draft.ReorderedMembers members members') (hd : ∀ m ∈ members, m.2.DistinctKeys) :
    List.Forall₂ (Alike (SameEntry SameDraft)) (members.map sh.draftEntry)
      (members'.map sh.draftEntry) := by
  have hall := h.forall₂
  clear h
  induction hall with
  | nil => exact .nil
  | cons hm _ ih =>
      obtain ⟨hfirst, hothers⟩ := List.forall_mem_cons.1 hd
      exact .cons (alike_draftEntry sh hm.1 ⟨hm.2, hfirst⟩) (ih hothers)

theorem alike_draftItems (hsh : Respects sh SameDraft R) {items items' : List Draft} (fs : List φ) :
    Draft.ReorderedItems items items' → (∀ d ∈ items, d.DistinctKeys) → ∀ {s s' : σ}, R s s' →
      Alike R (sh.draftItems s fs items) (sh.draftItems s' fs items')
  | .nil, _, _, _, hs => by
      rw [draftItems, draftItems]
      exact .ok hs
  | .cons h hrest, hd, s, s', hs => by
      obtain ⟨hfirst, hothers⟩ := List.forall_mem_cons.1 hd
      cases fs with
      | nil => exact .error _ _
      | cons f fs =>
          exact (hsh.read hs f ⟨h, hfirst⟩).bind fun t t' ht =>
            alike_draftItems hsh fs hrest hothers ht

/-- A record of a text is read alike however its objects are ordered. -/
theorem alike_fromDraft (hsh : Respects sh SameDraft R) (horder : AnyOrder sh) {d d' : Draft}
    (h : SameDraft d d') (hs : R s s') : Alike R (sh.fromDraft s d) (sh.fromDraft s' d') := by
  obtain ⟨h, hd⟩ := h
  cases h with
  | object hperm h =>
      cases hd with
      | object hkeys hd =>
          have hentries := alike_draftEntries sh h fun m hm => hd m (hperm.mem_iff.2 hm)
          have hall := hsh.alike_foldlM horder (fun _ => .mismatched) (hperm.map sh.draftEntry)
            hentries hs
          rw [← draftMembers_eq, ← draftMembers_eq] at hall
          exact hall.bind fun _ _ h => .ok h
  | array h =>
      cases hd with
      | array hd => exact (hsh.alike_draftItems sh.fields h hd hs).bind fun _ _ h => .ok h
  | null | bool | number | text => exact .error _ _

end Respects

/-! ### Decoded values -/

def jsonEntry (sh : Shape φ Json Mismatch σ) (m : String × Json) :
    Except Mismatch (Option (φ × Json)) :=
  .ok ((sh.named m.1).map (·, m.2))

theorem jsonMembers_eq (sh : Shape φ Json Mismatch σ) (s : σ) (members : List (String × Json)) :
    sh.jsonMembers s members =
      (members.map sh.jsonEntry).foldlM (sh.take fun f => .repeated (sh.label f)) s := by
  induction members generalizing s with
  | nil => rfl
  | cons m members ih =>
      rw [jsonMembers, List.map_cons, List.foldlM_cons, jsonEntry]
      cases sh.named m.1 with
      | none => exact ih s
      | some f =>
          simp only [Option.map_some, take]
          split
          · rfl
          · cases sh.read s f m.2 with
            | error f => rfl
            | ok s' => exact ih s'

theorem jsonMembers_append (sh : Shape φ Json Mismatch σ) (s : σ) (before after : List (String × Json)) :
    sh.jsonMembers s (before ++ after) =
      (sh.jsonMembers s before).bind fun t => sh.jsonMembers t after := by
  simp only [jsonMembers_eq, List.map_append, List.foldlM_append]
  rfl

theorem jsonMembers_filter_named (sh : Shape φ Json Mismatch σ) (s : σ)
    (members : List (String × Json)) :
    sh.jsonMembers s (members.filter fun m => (sh.named m.1).isSome) = sh.jsonMembers s members := by
  induction members generalizing s with
  | nil => rfl
  | cons m members ih =>
      rw [List.filter_cons]
      cases hf : sh.named m.1 with
      | none => simp [jsonMembers, hf, ih]
      | some f => simp [jsonMembers, hf, ih]

theorem jsonMembers_middle {sh : Shape φ Json Mismatch σ} (hsh : AnyOrder sh)
    {before after : List (String × Json)} {k : String} {f : φ} (hf : sh.named k = some f) {v : Json}
    {s t : σ} : sh.jsonMembers s (before ++ (k, v) :: after) = .ok t ↔
      ∃ u, sh.jsonMembers s (before ++ after) = .ok u ∧ sh.given u f = false ∧
        sh.read u f v = .ok t := by
  have hentry : sh.jsonEntry (k, v) = .ok (some (f, v)) := by
    rw [jsonEntry, hf, Option.map_some]
  simp only [jsonMembers_eq, List.map_append, List.map_cons, hentry]
  exact hsh.foldlM_take_middle

theorem jsonMembers_perm {sh : Shape φ Json Mismatch σ} (hsh : AnyOrder sh)
    {members members' : List (String × Json)} (h : members.Perm members') {s t : σ} :
    sh.jsonMembers s members = .ok t ↔ sh.jsonMembers s members' = .ok t := by
  rw [jsonMembers_eq, jsonMembers_eq]
  exact (Alike.foldlM_perm (h.map _) (hsh.take_swap _) s).eq_ok_iff

namespace Respects

variable {sh : Shape φ Json Mismatch σ} {R : σ → σ → Prop} {s s' : σ}

theorem alike_jsonEntry (sh : Shape φ Json Mismatch σ) {m m' : String × Json}
    (h : m.1 = m'.1 ∧ Reordered m.2 m'.2) :
    Alike (SameEntry Reordered) (sh.jsonEntry m) (sh.jsonEntry m') := by
  refine .ok ?_
  rw [h.1]
  cases sh.named m'.1 with
  | none => exact .none
  | some f => exact .some ⟨rfl, h.2⟩

theorem alike_jsonEntries (sh : Shape φ Json Mismatch σ) {members members' : List (String × Json)}
    (h : ReorderedMembers members members') :
    List.Forall₂ (Alike (SameEntry Reordered)) (members.map sh.jsonEntry)
      (members'.map sh.jsonEntry) := by
  rw [List.forall₂_map_left_iff, List.forall₂_map_right_iff]
  exact h.forall₂.imp fun m m' => alike_jsonEntry sh

theorem alike_jsonItems (hsh : Respects sh Reordered R) {items items' : List Json} (fs : List φ) :
    ReorderedItems items items' → ∀ {s s' : σ}, R s s' →
      Alike R (sh.jsonItems s fs items) (sh.jsonItems s' fs items')
  | .nil, _, _, hs => by
      cases fs <;> exact .ok hs
  | .cons h hrest, s, s', hs => by
      cases fs with
      | nil => exact .ok hs
      | cons f fs =>
          exact (hsh.read hs f h).bind fun t t' ht => alike_jsonItems hsh fs hrest ht

theorem alike_fromJson (hsh : Respects sh Reordered R) (horder : AnyOrder sh) {v v' : Json}
    (h : Reordered v v') (name : String) (hs : R s s') :
    Alike R (sh.fromJson name s v) (sh.fromJson name s' v') := by
  cases h with
  | object hkeys hperm h =>
      have hall := hsh.alike_foldlM horder (fun f => .repeated (sh.label f))
        (hperm.map sh.jsonEntry) (alike_jsonEntries sh h) hs
      rw [← jsonMembers_eq, ← jsonMembers_eq] at hall
      exact hall
  | array h =>
      refine (hsh.alike_jsonItems sh.fields h hs).bind fun t t' ht => ?_
      rw [h.forall₂.length_eq]
      split
      · exact .error _ _
      · exact .ok ht
  | null | bool | number | text => exact .error _ _

end Respects

end Swatchbook.Json.Shape

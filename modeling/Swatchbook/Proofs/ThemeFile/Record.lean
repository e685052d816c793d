import Swatchbook.Json.Shape
import Swatchbook.Proofs.Except

/-! What a successful reading of an object says of its members. The same members are read
as a decoded value and as a record, so what one reading finds under a key the other finds
there too. -/
namespace Swatchbook

namespace Json

theorem atEnd_eq_ok_iff {stop : Option Flaw} {u : Unit} : atEnd stop = .ok u ↔ stop = none := by
  cases stop <;> simp [atEnd]

theorem exists_of_decodeMembers {room : Nat} {ds : List (Lexeme × Draft)}
    {ms : List (String × Json)} (h : decodeMembers room ds = .ok ms) {e : Lexeme × Draft}
    (he : e ∈ ds) : ∃ m ∈ ms, e.1.text = .ok m.1 ∧ e.2.decode room = .ok m.2 := by
  induction ds generalizing ms with
  | nil => cases he
  | cons d ds ih =>
      rw [decodeMembers] at h
      obtain ⟨k, hk, h⟩ := bind_eq_ok_iff.1 h
      obtain ⟨v, hv, h⟩ := bind_eq_ok_iff.1 h
      obtain ⟨rest, hrest, h⟩ := bind_eq_ok_iff.1 h
      cases h
      rcases List.mem_cons.1 he with rfl | he
      · exact ⟨(k, v), List.mem_cons_self .., hk, hv⟩
      · obtain ⟨m, hm, hread⟩ := ih hrest he
        exact ⟨m, List.mem_cons_of_mem _ hm, hread⟩

theorem lookup_isSome_of_decodeMembers {room : Nat} {ds : List (Lexeme × Draft)}
    {ms : List (String × Json)} (h : decodeMembers room ds = .ok ms) {e : Lexeme × Draft}
    (he : e ∈ ds) {k : String} (hk : e.1.text = .ok k) : (ms.lookup k).isSome := by
  obtain ⟨m, hm, htext, -⟩ := exists_of_decodeMembers h he
  rw [hk, Except.ok.injEq] at htext
  exact Dict.lookup_isSome_iff.2 (htext ▸ List.mem_map_of_mem hm)

theorem decode_object {room : Nat} {members : List (Lexeme × Draft)} {v : Json}
    (h : (Draft.object members none).decode room = .ok v) :
    ∃ ms, v = .object ms ∧ decodeMembers (room - 1) members = .ok ms := by
  rw [Draft.decode] at h
  split at h
  · cases h
  · obtain ⟨ms, hmembers, h⟩ := bind_eq_ok_iff.1 h
    cases h
    exact ⟨ms, rfl, hmembers⟩

theorem eq_object_of_decode {room : Nat} {d : Draft} {ms : List (String × Json)}
    (h : d.decode room = .ok (.object ms)) :
    ∃ members, d = .object members none ∧ decodeMembers (room - 1) members = .ok ms := by
  cases d with
  | object members stop =>
      rw [Draft.decode] at h
      split at h
      · cases h
      · obtain ⟨ms', hmembers, h⟩ := bind_eq_ok_iff.1 h
        obtain ⟨u, hstop, h⟩ := bind_eq_ok_iff.1 h
        cases h
        rw [atEnd_eq_ok_iff.1 hstop]
        exact ⟨members, rfl, hmembers⟩
  | array items stop =>
      rw [Draft.decode] at h
      split at h
      · cases h
      · obtain ⟨vs, -, h⟩ := bind_eq_ok_iff.1 h
        obtain ⟨u, -, h⟩ := bind_eq_ok_iff.1 h
        cases h
  | text s =>
      rw [Draft.decode] at h
      obtain ⟨t, -, h⟩ := map_eq_ok_iff.1 h
      cases h
  | number n =>
      rw [Draft.decode] at h
      split at h <;> cases h
  | null | bool b | broken f | unfinished =>
      rw [Draft.decode] at h
      cases h

namespace Shape

variable {φ σ : Type}

theorem fromDraft_object_iff {sh : Shape φ Draft Flaw σ} {start s : σ}
    {members : List (Lexeme × Draft)} {stop : Option Flaw} :
    sh.fromDraft start (.object members stop) = .ok s ↔
      stop = none ∧ sh.draftMembers start members = .ok s := by
  refine bind_eq_ok_iff.trans ?_
  cases stop <;> simp [atEnd, bind, Except.bind, pure, Except.pure]

theorem fromDraft_array_iff {sh : Shape φ Draft Flaw σ} {start s : σ} {items : List Draft}
    {stop : Option Flaw} : sh.fromDraft start (.array items stop) = .ok s ↔
      stop = none ∧ sh.draftItems start sh.fields items = .ok s := by
  refine bind_eq_ok_iff.trans ?_
  cases stop <;> simp [atEnd, bind, Except.bind, pure, Except.pure]

theorem fromDraft_eq_ok {sh : Shape φ Draft Flaw σ} {start s : σ} {d : Draft}
    (h : sh.fromDraft start d = .ok s) :
    (∃ members, d = .object members none ∧ sh.draftMembers start members = .ok s) ∨
      ∃ items, d = .array items none ∧ sh.draftItems start sh.fields items = .ok s := by
  cases d with
  | object members stop =>
      obtain ⟨rfl, hs⟩ := fromDraft_object_iff.1 h
      exact Or.inl ⟨members, rfl, hs⟩
  | array items stop =>
      obtain ⟨rfl, hs⟩ := fromDraft_array_iff.1 h
      exact Or.inr ⟨items, rfl, hs⟩
  | null | bool | number | text | broken | unfinished => cases h

/-- What holds at the start and is kept by every field that the members name holds at the
end. -/
theorem draftMembers_keeps {sh : Shape φ Draft Flaw σ} {P : σ → Prop}
    {members : List (Lexeme × Draft)} {s s' : σ}
    (hkeeps : ∀ e ∈ members, ∀ k f s s', e.1.text = .ok k → sh.named k = some f →
      sh.read s f e.2 = .ok s' → P s → P s')
    (h : sh.draftMembers s members = .ok s') (hs : P s) : P s' := by
  induction members generalizing s with
  | nil =>
      rw [draftMembers] at h
      cases h
      exact hs
  | cons e members ih =>
      rw [List.forall_mem_cons] at hkeeps
      rw [draftMembers] at h
      obtain ⟨k, hk, h⟩ := bind_eq_ok_iff.1 h
      split at h
      · obtain ⟨u, -, h⟩ := bind_eq_ok_iff.1 h
        exact ih hkeeps.2 h hs
      · rename_i f hf
        split at h
        · cases h
        · obtain ⟨next, hnext, h⟩ := bind_eq_ok_iff.1 h
          exact ih hkeeps.2 h (hkeeps.1 k f s next hk hf hnext hs)

section Kept

variable {sh : Shape φ Json Mismatch σ} {P : σ → Prop}
  (hkeeps : ∀ {s s' f v}, sh.read s f v = .ok s' → P s → P s')

include hkeeps

theorem jsonMembers_keeps {members : List (String × Json)} {s s' : σ}
    (h : sh.jsonMembers s members = .ok s') (hs : P s) : P s' := by
  induction members generalizing s with
  | nil =>
      cases h
      exact hs
  | cons m members ih =>
      rw [jsonMembers] at h
      split at h
      · exact ih h hs
      · split at h
        · cases h
        · obtain ⟨next, hnext, h⟩ := bind_eq_ok_iff.1 h
          exact ih h (hkeeps hnext hs)

theorem jsonItems_keeps {fs : List φ} {items : List Json} {s s' : σ}
    (h : sh.jsonItems s fs items = .ok s') (hs : P s) : P s' := by
  induction items generalizing s fs with
  | nil =>
      cases fs <;>
      · cases h
        exact hs
  | cons v items ih =>
      cases fs with
      | nil =>
          cases h
          exact hs
      | cons f fs =>
          obtain ⟨next, hnext, h⟩ := bind_eq_ok_iff.1 h
          exact ih h (hkeeps hnext hs)

theorem fromJson_keeps {name : String} {start s : σ} {v : Json} (h : sh.fromJson name start v = .ok s)
    (hs : P start) : P s := by
  cases v with
  | object members => exact jsonMembers_keeps hkeeps h hs
  | array items =>
      obtain ⟨last, hlast, h⟩ := bind_eq_ok_iff.1 h
      split at h
      · cases h
      · cases h
        exact jsonItems_keeps hkeeps hlast hs
  | null | bool | number | text => cases h

end Kept

/-- A field that goes by one name, and that nothing but its own value changes. -/
structure Holds {γ : Type} (sh : Shape φ Json Mismatch σ) (f : φ) (key : String)
    (get : σ → Option γ) (value : Json → Except Mismatch γ) : Prop where
  named : ∀ k, sh.named k = some f ↔ k = key
  given : ∀ s, sh.given s f = (get s).isSome
  reads : ∀ {s s' v}, sh.read s f v = .ok s' → ∃ x, value v = .ok x ∧ get s' = some x
  keeps : ∀ {s s' g v}, g ≠ f → sh.read s g v = .ok s' → get s' = get s

namespace Holds

variable {γ : Type} {sh : Shape φ Json Mismatch σ} {f : φ} {key : String} {get : σ → Option γ}
  {value : Json → Except Mismatch γ} {members : List (String × Json)} {s s' : σ} {x : γ}

theorem of_set (hnamed : ∀ k, sh.named k = some f ↔ k = key)
    (hgiven : ∀ s, sh.given s f = (get s).isSome)
    (hreads : ∀ s v, ∃ set, sh.read s f v = (value v).map set ∧ ∀ x, get (set x) = some x)
    (hkeeps : ∀ s g v, g ≠ f → ∃ (β : Type) (w : Except Mismatch β) (set : β → σ),
      sh.read s g v = w.map set ∧ ∀ x, get (set x) = get s) : Holds sh f key get value where
  named := hnamed
  given := hgiven
  reads {s s' v} h := by
    obtain ⟨set, hread, hset⟩ := hreads s v
    obtain ⟨x, hx, rfl⟩ := map_eq_ok_iff.1 (hread.symm.trans h)
    exact ⟨x, hx, hset x⟩
  keeps {s s' g v} hne h := by
    obtain ⟨β, w, set, hread, hset⟩ := hkeeps s g v hne
    obtain ⟨x, -, rfl⟩ := map_eq_ok_iff.1 (hread.symm.trans h)
    exact hset x

theorem stays (hf : Holds sh f key get value) (h : sh.jsonMembers s members = .ok s')
    (hx : get s = some x) : get s' = some x := by
  induction members generalizing s with
  | nil =>
      cases h
      exact hx
  | cons m members ih =>
      rw [jsonMembers] at h
      split at h
      · exact ih h hx
      · rename_i g hg
        split at h
        · cases h
        · rename_i hgiven
          obtain ⟨next, hnext, h⟩ := bind_eq_ok_iff.1 h
          refine ih h ((hf.keeps (fun hgf => ?_) hnext).trans hx)
          rw [hgf, hf.given, hx] at hgiven
          exact hgiven rfl

theorem of_jsonMembers (hf : Holds sh f key get value) (h : sh.jsonMembers s members = .ok s')
    (hs : get s = none) :
    members.lookup key = none ∧ get s' = none ∨
      ∃ v x, members.lookup key = some v ∧ value v = .ok x ∧ get s' = some x := by
  induction members generalizing s with
  | nil =>
      cases h
      exact Or.inl ⟨rfl, hs⟩
  | cons m members ih =>
      obtain ⟨k, v⟩ := m
      rw [Dict.lookup_cons_eq]
      rw [jsonMembers] at h
      split at h
      · rename_i hk
        have hne : key ≠ k := by
          rintro rfl
          rw [(hf.named key).2 rfl] at hk
          cases hk
        rw [if_neg hne]
        exact ih h hs
      · rename_i g hg
        split at h
        · cases h
        · obtain ⟨next, hnext, h⟩ := bind_eq_ok_iff.1 h
          by_cases hgf : g = f
          · subst hgf
            obtain ⟨x, hx, hget⟩ := hf.reads hnext
            rw [if_pos ((hf.named k).1 hg).symm]
            exact Or.inr ⟨v, x, rfl, hx, hf.stays h hget⟩
          · have hne : key ≠ k := by
              rintro rfl
              exact hgf (Option.some.inj (hg.symm.trans ((hf.named key).2 rfl)))
            rw [if_neg hne]
            exact ih h ((hf.keeps hgf hnext).trans hs)

end Holds

theorem jsonMembers_isOk_iff {sh : Shape φ Json Mismatch σ} {P : φ → Json → Prop}
    (hread : ∀ s f v, (∃ s', sh.read s f v = .ok s') ↔ P f v)
    (hkeeps : ∀ {s s' f g v}, g ≠ f → sh.read s f v = .ok s' → sh.given s' g = sh.given s g)
    (hnamed : ∀ {j k f}, sh.named j = some f → sh.named k = some f → j = k)
    {members : List (String × Json)} (hkeys : (members.map Prod.fst).Nodup) {s : σ}
    (hs : ∀ m ∈ members, ∀ f, sh.named m.1 = some f → sh.given s f = false) :
    (∃ s', sh.jsonMembers s members = .ok s') ↔
      ∀ m ∈ members, ∀ f, sh.named m.1 = some f → P f m.2 := by
  induction members generalizing s with
  | nil => exact iff_of_true ⟨s, rfl⟩ nofun
  | cons m members ih =>
      obtain ⟨hnew, hkeys⟩ := List.nodup_cons.1 hkeys
      rw [List.forall_mem_cons] at hs ⊢
      rw [jsonMembers]
      cases hf : sh.named m.1 with
      | none =>
          refine (ih hkeys hs.2).trans ⟨fun h => ⟨nofun, h⟩, fun h => h.2⟩
      | some f =>
          have hfree := hs.1 f hf
          simp only [hfree, Bool.false_eq_true, if_false, Option.some.injEq, forall_eq']
          rw [← hread s f m.2]
          -- The fields of the other members are still free.
          have hnext : ∀ s', sh.read s f m.2 = .ok s' →
              ∀ n ∈ members, ∀ g, sh.named n.1 = some g → sh.given s' g = false := by
            intro s' hs' n hn g hg
            have hne : g ≠ f := by
              rintro rfl
              exact hnew (hnamed hf hg ▸ List.mem_map_of_mem hn)
            rw [hkeeps hne hs']
            exact hs.2 n hn g hg
          constructor
          · rintro ⟨last, hlast⟩
            obtain ⟨s', hs', hlast⟩ := bind_eq_ok_iff.1 hlast
            exact ⟨⟨s', hs'⟩, (ih hkeys (hnext s' hs')).1 ⟨last, hlast⟩⟩
          · rintro ⟨⟨s', hs'⟩, hothers⟩
            obtain ⟨last, hlast⟩ := (ih hkeys (hnext s' hs')).2 hothers
            exact ⟨last, bind_eq_ok_iff.2 ⟨s', hs', hlast⟩⟩

end Shape

end Json

end Swatchbook

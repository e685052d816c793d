import Mathlib.Data.List.Forall2
import Swatchbook.Proofs.Except

/-! Computations that fail together, each for its own reason, or succeed together with
results that are related. -/
namespace Swatchbook

variable {ε ε' ε'' α α' α'' β β' σ σ' : Type}

inductive Alike (R : α → α' → Prop) : Except ε α → Except ε' α' → Prop where
  | error (e : ε) (e' : ε') : Alike R (.error e) (.error e')
  | ok {a : α} {a' : α'} (h : R a a') : Alike R (.ok a) (.ok a')

namespace Alike

variable {R : α → α' → Prop} {S : β → β' → Prop}

theorem of_eq {x y : Except ε α} (h : x = y) : Alike Eq x y := by
  subst h
  cases x with
  | error e => exact .error e e
  | ok a => exact .ok rfl

theorem of_error {x : Except ε α} {x' : Except ε' α'} (h : ∃ e, x = .error e)
    (h' : ∃ e, x' = .error e) : Alike R x x' := by
  obtain ⟨e, rfl⟩ := h
  obtain ⟨e', rfl⟩ := h'
  exact .error e e'

theorem bind {x : Except ε α} {x' : Except ε' α'} {f : α → Except ε β} {f' : α' → Except ε' β'}
    (h : Alike R x x') (hf : ∀ a a', R a a' → Alike S (f a) (f' a')) :
    Alike S (x.bind f) (x'.bind f') := by
  cases h with
  | error e e' => exact .error e e'
  | ok h => exact hf _ _ h

theorem map {x : Except ε α} {x' : Except ε' α'} {f : α → β} {f' : α' → β'} (h : Alike R x x')
    (hf : ∀ a a', R a a' → S (f a) (f' a')) : Alike S (x.map f) (x'.map f') := by
  cases h with
  | error e e' => exact .error e e'
  | ok h => exact .ok (hf _ _ h)

theorem mapError {x : Except ε α} {x' : Except ε' α'} {f : ε → σ} {f' : ε' → σ'} (h : Alike R x x') :
    Alike R (x.mapError f) (x'.mapError f') := by
  cases h with
  | error e e' => exact .error (f e) (f' e')
  | ok h => exact .ok h

theorem trans {T : α → α'' → Prop} {Q : α' → α'' → Prop} {x : Except ε α} {y : Except ε' α'}
    {z : Except ε'' α''} (h : Alike R x y) (h' : Alike Q y z)
    (hT : ∀ a b c, R a b → Q b c → T a c) : Alike T x z := by
  cases h with
  | error e e' =>
      cases h' with
      | error _ e'' => exact .error e e''
  | ok h =>
      cases h' with
      | ok h' => exact .ok (hT _ _ _ h h')

theorem and_left {P : α → Prop} {x : Except ε α} {y : Except ε' α'} (h : Alike R x y)
    (hP : ∀ a, x = .ok a → P a) : Alike (fun a a' => R a a' ∧ P a) x y := by
  cases h with
  | error e e' => exact .error e e'
  | ok h => exact .ok ⟨h, hP _ rfl⟩

theorem exists_ok {x : Except ε α} {y : Except ε' α'} (h : Alike R x y) {a : α} (hx : x = .ok a) :
    ∃ a', y = .ok a' ∧ R a a' := by
  cases h with
  | error e e' => cases hx
  | ok h =>
      cases hx
      exact ⟨_, rfl, h⟩

theorem eq_ok_iff {x : Except ε α} {y : Except ε' α} (h : Alike Eq x y) {a : α} :
    x = .ok a ↔ y = .ok a := by
  cases h with
  | error e e' => exact ⟨nofun, nofun⟩
  | ok h =>
      subst h
      rw [Except.ok.injEq, Except.ok.injEq]

theorem of_ok_iff {x y : Except ε α} (h : ∀ a, x = .ok a ↔ y = .ok a) : Alike Eq x y := by
  cases x with
  | ok a => exact .of_eq ((h a).1 rfl).symm
  | error e =>
      cases y with
      | ok a => cases (h a).2 rfl
      | error e' => exact .error e e'

theorem exists_error_iff {x : Except ε α} {y : Except ε' α'} (h : Alike R x y) :
    (∃ e, x = .error e) ↔ ∃ e, y = .error e := by
  cases h with
  | error e e' => exact ⟨fun _ => ⟨e', rfl⟩, fun _ => ⟨e, rfl⟩⟩
  | ok h => exact ⟨nofun, nofun⟩

end Alike

/-! ### Rows -/

theorem exists_of_mem_mapM {l : List α} {r : List β} {f : α → Except ε β} (h : l.mapM f = .ok r)
    {b : β} (hb : b ∈ r) : ∃ a ∈ l, f a = .ok b := by
  induction l generalizing r with
  | nil =>
      cases h
      cases hb
  | cons a l ih =>
      rw [List.mapM_cons] at h
      obtain ⟨b', hb', h⟩ := bind_eq_ok_iff.1 h
      obtain ⟨r', hr', h⟩ := bind_eq_ok_iff.1 h
      cases h
      rcases List.mem_cons.1 hb with rfl | hb
      · exact ⟨a, List.mem_cons_self .., hb'⟩
      · obtain ⟨a', ha', hf⟩ := ih hr' hb
        exact ⟨a', List.mem_cons_of_mem _ ha', hf⟩

theorem mapM_congr {l : List α} {f g : α → Except ε β} (h : ∀ a ∈ l, f a = g a) :
    l.mapM f = l.mapM g := by
  induction l with
  | nil => rfl
  | cons a l ih =>
      rw [List.forall_mem_cons] at h
      rw [List.mapM_cons, List.mapM_cons, h.1, ih h.2]

theorem mapM_eq_ok_iff {f : α → Except ε β} {l : List α} {r : List β} :
    l.mapM f = .ok r ↔ List.Forall₂ (fun a b => f a = .ok b) l r := by
  induction l generalizing r with
  | nil =>
      rw [List.forall₂_nil_left_iff]
      exact ⟨fun h => (Except.ok.inj h).symm, fun h => congrArg Except.ok h.symm⟩
  | cons a l ih =>
      rw [List.mapM_cons, List.forall₂_cons_left_iff]
      constructor
      · intro h
        obtain ⟨b, hb, h⟩ := bind_eq_ok_iff.1 h
        obtain ⟨r', hr', h⟩ := bind_eq_ok_iff.1 h
        exact ⟨b, r', hb, ih.1 hr', (Except.ok.inj h).symm⟩
      · rintro ⟨b, r', hb, hr', rfl⟩
        exact bind_eq_ok_iff.2 ⟨b, hb, bind_eq_ok_iff.2 ⟨r', ih.2 hr', rfl⟩⟩

theorem mapM_eq_error_iff {f : α → Except ε β} {l : List α} {e : ε} :
    l.mapM f = .error e ↔ ∃ before a after, l = before ++ a :: after ∧
      (∀ a' ∈ before, ∃ b, f a' = .ok b) ∧ f a = .error e := by
  induction l with
  | nil => simp [pure, Except.pure]
  | cons a l ih =>
      rw [List.mapM_cons]
      constructor
      · intro h
        cases ha : f a with
        | error e' =>
            rw [ha] at h
            cases h
            exact ⟨[], a, l, rfl, by simp, ha⟩
        | ok b =>
            cases hl : l.mapM f with
            | ok r =>
                rw [ha, hl] at h
                cases h
            | error e' =>
                rw [ha, hl] at h
                cases h
                obtain ⟨before, a', after, rfl, hbefore, ha'⟩ := ih.1 hl
                exact ⟨a :: before, a', after, rfl, List.forall_mem_cons.2 ⟨⟨b, ha⟩, hbefore⟩, ha'⟩
      · rintro ⟨before, a', after, hsplit, hbefore, ha'⟩
        cases before with
        | nil =>
            cases hsplit
            rw [ha']
            rfl
        | cons _ before =>
            cases hsplit
            rw [List.forall_mem_cons] at hbefore
            obtain ⟨⟨b, hb⟩, hbefore⟩ := hbefore
            rw [hb, ih.2 ⟨before, a', after, rfl, hbefore, ha'⟩]
            rfl

theorem pairwise_of_mapM {l : List α} {r : List β} {f : α → Except ε β} {P : α → α → Prop}
    {Q : β → β → Prop} (h : l.mapM f = .ok r) (hl : l.Pairwise P)
    (hPQ : ∀ {a a' b b'}, P a a' → f a = .ok b → f a' = .ok b' → Q b b') : r.Pairwise Q := by
  induction l generalizing r with
  | nil =>
      cases h
      exact .nil
  | cons a l ih =>
      obtain ⟨ha, hl⟩ := List.pairwise_cons.1 hl
      rw [List.mapM_cons] at h
      obtain ⟨b, hb, h⟩ := bind_eq_ok_iff.1 h
      obtain ⟨r', hr', h⟩ := bind_eq_ok_iff.1 h
      cases h
      refine List.pairwise_cons.2 ⟨fun b' hb' => ?_, ih hr' hl⟩
      obtain ⟨a', ha', hf⟩ := exists_of_mem_mapM hr' hb'
      exact hPQ (ha a' ha') hb hf

namespace Alike

variable {S : β → β' → Prop}

theorem mapM_perm {l l' : List α} (h : l.Perm l') (f : α → Except ε β) :
    Alike List.Perm (l.mapM f) (l'.mapM f) := by
  induction h with
  | nil => exact .ok .nil
  | cons a h ih =>
      rw [List.mapM_cons, List.mapM_cons]
      refine (of_eq rfl).bind fun b b' hb => ih.bind fun r r' hr => .ok ?_
      subst hb
      exact hr.cons b
  | swap a b l =>
      simp only [List.mapM_cons]
      cases f a with
      | error e =>
          cases f b with
          | error e' => exact .error e' e
          | ok y => exact .error e e
      | ok x =>
          cases f b with
          | error e => exact .error e e
          | ok y =>
              cases l.mapM f with
              | error e => exact .error e e
              | ok r => exact .ok (.swap x y r)
  | trans _ _ ih ih' => exact ih.trans ih' fun _ _ _ h h' => h.trans h'

theorem mapM {l : List α} {l' : List α'} {f : α → Except ε β} {f' : α' → Except ε' β'}
    (h : List.Forall₂ (fun a a' => Alike S (f a) (f' a')) l l') :
    Alike (List.Forall₂ S) (l.mapM f) (l'.mapM f') := by
  induction h with
  | nil => exact .ok .nil
  | cons h _ ih =>
      rw [List.mapM_cons, List.mapM_cons]
      exact h.bind fun b b' hb => ih.bind fun r r' hr => .ok (.cons hb hr)

theorem foldlM_perm {l l' : List α} (h : l.Perm l') {step : σ → α → Except ε σ}
    (hswap : ∀ s a b, Alike Eq ((step s a).bind fun s => step s b) ((step s b).bind fun s => step s a))
    (s : σ) : Alike Eq (l.foldlM step s) (l'.foldlM step s) := by
  induction h generalizing s with
  | nil => exact .ok rfl
  | cons a h ih =>
      rw [List.foldlM_cons, List.foldlM_cons]
      refine (of_eq rfl).bind fun t t' ht => ?_
      subst ht
      exact ih t
  | swap a b l =>
      simp only [List.foldlM_cons]
      have hassoc : ∀ a b, (step s a >>= fun s => step s b >>= fun s => l.foldlM step s) =
          ((step s a).bind fun s => step s b).bind fun s => l.foldlM step s := by
        intro a b
        cases step s a <;> rfl
      rw [hassoc, hassoc]
      exact (hswap s b a).bind fun t t' ht => of_eq (ht ▸ rfl)
  | trans _ _ ih ih' => exact (ih s).trans (ih' s) fun _ _ _ h h' => h.trans h'

theorem foldlM {l : List α} {l' : List α'} {Q : α → α' → Prop} {R : σ → σ' → Prop}
    {step : σ → α → Except ε σ} {step' : σ' → α' → Except ε' σ'} (h : List.Forall₂ Q l l')
    (hstep : ∀ s s' a a', R s s' → Q a a' → Alike R (step s a) (step' s' a')) {s : σ} {s' : σ'}
    (hs : R s s') : Alike R (l.foldlM step s) (l'.foldlM step' s') := by
  induction h generalizing s s' with
  | nil => exact .ok hs
  | cons h _ ih =>
      rw [List.foldlM_cons, List.foldlM_cons]
      exact (hstep s s' _ _ hs h).bind fun t t' ht => ih ht

end Alike

end Swatchbook

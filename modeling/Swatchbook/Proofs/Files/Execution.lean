import Mathlib.Order.Defs.Unbundled
import Swatchbook.Proofs.Files.Effects

/-! Programs carried out on a tree, and what they leave alone. A relation between
trees that is a preorder holds between the tree before a program and the tree after
it once it does so for each operation of the program. -/
namespace Swatchbook.FileTree

variable {ε ε' α β : Type}

/-- The result of a program on a tree, and the tree it leaves. -/
def exec (t : FileTree) (program : ExceptT ε (StateM FileTree) α) : Except ε α × FileTree :=
  program.run.run t

theorem exec_pure (t : FileTree) (a : α) :
    t.exec (pure a : ExceptT ε (StateM FileTree) α) = (.ok a, t) :=
  rfl

theorem exec_bind (t : FileTree) (x : ExceptT ε (StateM FileTree) α)
    (f : α → ExceptT ε (StateM FileTree) β) :
    t.exec (x >>= f) =
      match t.exec x with
      | (.ok a, t') => t'.exec (f a)
      | (.error e, t') => (.error e, t') := by
  unfold exec
  rw [ExceptT.run_bind, StateT.run_bind]
  cases h : x.run.run t with
  | mk r t' => cases r <;> rfl

theorem exec_lift (t : FileTree) (x : StateM FileTree α) :
    t.exec (liftM x : ExceptT ε (StateM FileTree) α) = (.ok (x.run t).1, (x.run t).2) :=
  rfl

theorem exec_except (t : FileTree) (x : Except ε α) :
    t.exec (liftM x : ExceptT ε (StateM FileTree) α) = (x, t) := by
  cases x <;> rfl

theorem exec_except_bind (t : FileTree) (x : Except ε α)
    (f : α → ExceptT ε (StateM FileTree) β) :
    t.exec (liftM x >>= f) =
      match x with
      | .ok a => t.exec (f a)
      | .error e => (.error e, t) := by
  rw [exec_bind, exec_except]
  cases x <;> rfl

theorem exec_adapt (t : FileTree) (x : ExceptT ε (StateM FileTree) α) (f : ε → ε') :
    t.exec (x.adapt f) = ((t.exec x).1.mapError f, (t.exec x).2) :=
  rfl

theorem exec_bind_eq_ok {t t' : FileTree} {x : ExceptT ε (StateM FileTree) α}
    {f : α → ExceptT ε (StateM FileTree) β} {b : β} (h : t.exec (x >>= f) = (.ok b, t')) :
    ∃ a middle, t.exec x = (.ok a, middle) ∧ middle.exec (f a) = (.ok b, t') := by
  rw [exec_bind] at h
  cases hx : t.exec x with
  | mk r middle =>
      rw [hx] at h
      cases r with
      | error e => cases h
      | ok a => exact ⟨a, middle, rfl, h⟩

theorem exec_bind_of_ok {t t₁ : FileTree} {x : ExceptT ε (StateM FileTree) α}
    {f : α → ExceptT ε (StateM FileTree) β} {a : α} (hx : t.exec x = (.ok a, t₁)) :
    t.exec (x >>= f) = t₁.exec (f a) := by
  rw [exec_bind, hx]

theorem run_bind {α β : Type} (t : FileTree) (x : StateM FileTree α) (f : α → StateM FileTree β) :
    (x >>= f).run t = (f (x.run t).1).run (x.run t).2 :=
  rfl

theorem run_apply (t : FileTree) (f : FileTree → Except FileFault FileTree) :
    (apply f).run t =
      match f t with
      | .ok t' => (.ok (), t')
      | .error e => (.error e, t) :=
  rfl

/-- Wherever the program is run, the tree it leaves is so related to the tree before. -/
def Obeys (R : FileTree → FileTree → Prop) (x : StateM FileTree α) : Prop :=
  ∀ t, R t (x.run t).2

section Obeys

variable {R : FileTree → FileTree → Prop}

theorem obeys_lift {x : StateM FileTree α} (hx : Obeys R x) :
    Obeys R (liftM x : ExceptT ε (StateM FileTree) α).run :=
  hx

theorem obeys_adapt {x : ExceptT ε (StateM FileTree) α} (f : ε → ε') (hx : Obeys R x.run) :
    Obeys R (x.adapt f).run :=
  hx

theorem rel_of_exec {x : ExceptT ε (StateM FileTree) α} (hx : Obeys R x.run) {t t' : FileTree}
    {r : Except ε α} (h : t.exec x = (r, t')) : R t t' := by
  have ht := hx t
  unfold exec at h
  rw [h] at ht
  exact ht

variable [IsPreorder FileTree R]

theorem obeys_of_same {x : StateM FileTree α} (h : ∀ t, (x.run t).2 = t) : Obeys R x := by
  intro t
  rw [h]
  exact refl_of R t

theorem obeys_pure (a : α) : Obeys R (pure a : StateM FileTree α) :=
  obeys_of_same fun _ => rfl

theorem obeys_bind {x : StateM FileTree α} {f : α → StateM FileTree β} (hx : Obeys R x)
    (hf : ∀ a, Obeys R (f a)) : Obeys R (x >>= f) :=
  fun t => trans_of R (hx t) (hf (x.run t).1 (x.run t).2)

theorem obeys_apply {f : FileTree → Except FileFault FileTree}
    (h : ∀ t t', f t = .ok t' → R t t') : Obeys R (apply f) := by
  intro t
  rw [run_apply]
  cases hf : f t with
  | error e => exact refl_of R t
  | ok t' => exact h t t' hf

theorem obeys_throw (e : ε) : Obeys R (throw e : ExceptT ε (StateM FileTree) α).run :=
  obeys_of_same fun _ => rfl

theorem obeys_run_bind {x : ExceptT ε (StateM FileTree) α}
    {f : α → ExceptT ε (StateM FileTree) β} (hx : Obeys R x.run)
    (hf : ∀ a, Obeys R (f a).run) : Obeys R (x >>= f).run := by
  rw [ExceptT.run_bind]
  apply obeys_bind hx
  intro r
  cases r with
  | error e => exact obeys_pure _
  | ok a => exact hf a

theorem obeys_except_bind {x : Except ε α} {f : α → ExceptT ε (StateM FileTree) β}
    (hf : ∀ a, x = .ok a → Obeys R (f a).run) :
    Obeys R (liftM x >>= f : ExceptT ε (StateM FileTree) β).run := by
  cases x with
  | error e => exact obeys_of_same fun _ => rfl
  | ok a => exact hf a rfl

end Obeys

/-- Directories are still directories. -/
structure Keeps (t t' : FileTree) : Prop where
  here_eq : t'.here = t.here
  look_eq : ∀ q, t.look q = some .directory → t'.look q = some .directory

theorem Keeps.trans {t t' t'' : FileTree} (h : t.Keeps t') (h' : t'.Keeps t'') : t.Keeps t'' :=
  ⟨h'.here_eq.trans h.here_eq, fun q hq => h'.look_eq q (h.look_eq q hq)⟩

instance : IsPreorder FileTree Keeps where
  refl _ := ⟨rfl, fun _ h => h⟩
  trans _ _ _ := Keeps.trans

theorem Sets.keeps {t t' : FileTree} {p : String} {e : Entry} (h : t.Sets t' p e) :
    t.Keeps t' := by
  refine ⟨h.here_eq, fun q hq => ?_⟩
  rw [h.look_eq, if_neg]
  · exact hq
  · rintro rfl
    exact h.look_old hq

theorem Keeps.ends {t t' : FileTree} {p name : String} {above : List String} (h : t.Keeps t')
    (hends : t.Ends p above name) : t'.Ends p above name := by
  apply hends.congr h.here_eq
  intro q hq
  have hdirectory := hends.look_of_passes hq
  rw [hdirectory]
  exact h.look_eq q hdirectory

theorem Keeps.names {t t' : FileTree} {p : String} (h : t.Keeps t') (hnames : t.Names p) :
    t'.Names p := by
  refine ⟨hnames.accepted, ?_⟩
  rw [start_eq h.here_eq]
  apply hnames.enters.congr
  intro path hpath
  have hdirectory := hnames.enters.look_of_prefix hpath
  rw [hdirectory]
  exact h.look_eq _ hdirectory

/-- Only places of `work` are touched, but for directories that appear on the `route`.
Both are fixed for a program that is run at one place of the tree. -/
structure Spares (here : List String) (work route : List String → Prop) (t t' : FileTree) :
    Prop where
  here_eq : t'.here = t.here
  look_eq : t.here = here → ∀ q, ¬work q → t'.look q = t.look q ∨
    route q ∧ t.look q = none ∧ t'.look q = some .directory

section Spares

variable {here : List String} {work route : List String → Prop} {t t' : FileTree} {p : String}

instance : IsPreorder FileTree (Spares here work route) where
  refl _ := ⟨rfl, fun _ _ _ => Or.inl rfl⟩
  trans _ _ _ h h' := by
    refine ⟨h'.here_eq.trans h.here_eq, fun hhere q hq => ?_⟩
    have hnext := h'.look_eq (h.here_eq.trans hhere) q hq
    rcases h.look_eq hhere q hq with hsame | ⟨hroute, hnone, hdirectory⟩
    · rw [← hsame]
      exact hnext
    · rcases hnext with hsame' | ⟨-, hnone', -⟩
      · exact Or.inr ⟨hroute, hnone, hsame'.trans hdirectory⟩
      · rw [hdirectory] at hnone'
        cases hnone'

theorem Sets.spares {e : Entry} (h : t.Sets t' p e) (hp : t.here = here → work (t.place p)) :
    Spares here work route t t' := by
  refine ⟨h.here_eq, fun hhere q hq => Or.inl ?_⟩
  rw [h.look_eq, if_neg]
  rintro rfl
  exact hq (hp hhere)

theorem Empties.spares (h : t.Empties t' p)
    (hp : t.here = here → ∀ below, work (t.place p ++ below)) : Spares here work route t t' := by
  refine ⟨h.here_eq, fun hhere q hq => Or.inl (h.look_off q ?_)⟩
  rintro ⟨below, rfl⟩
  exact hq (hp hhere below)

theorem obeys_makeDirectory (h : ∀ t : FileTree, t.here = here →
      (∃ above name, isName name = true ∧ steps p = above ++ [name]) →
      work (t.place p) ∨ route (t.place p)) :
    Obeys (Spares here work route) (FileSystem.makeDirectory p : StateM FileTree _) := by
  apply obeys_apply
  intro t t' hok
  obtain ⟨hsets, hnone⟩ := makeDirectory_sets hok
  refine ⟨hsets.here_eq, fun hhere q hq => ?_⟩
  rw [hsets.look_eq]
  split
  · rename_i heq
    subst heq
    obtain ⟨above, name, hname, hends⟩ := hsets.ends
    have hroute := (h t hhere ⟨above, name, hname, hends.steps_eq⟩).resolve_left hq
    exact Or.inr ⟨hroute, hnone, rfl⟩
  · exact Or.inl rfl

theorem obeys_makeDirectoryChain (ps : List String)
    (h : ∀ t : FileTree, t.here = here → ∀ p ∈ ps, p ≠ "" →
      (∃ above name, isName name = true ∧ steps p = above ++ [name]) →
      work (t.place p) ∨ route (t.place p)) :
    Obeys (Spares here work route) (FileSystem.makeDirectoryChain (m := StateM FileTree) ps) := by
  induction ps with
  | nil => exact obeys_pure _
  | cons p above ih =>
      rw [FileSystem.makeDirectoryChain]
      split
      · exact obeys_pure _
      · rename_i hp
        have hmake : Obeys (Spares here work route)
            (FileSystem.makeDirectory p : StateM FileTree _) :=
          obeys_makeDirectory fun t ht => h t ht p (List.mem_cons_self ..) (by simpa using hp)
        have hlook : ∀ e : FileFault, Obeys (Spares here work route)
            (do return if ← FileSystem.isDirectory p then .ok () else .error e :
              StateM FileTree (Except FileFault Unit)) :=
          fun e => obeys_bind (obeys_of_same fun _ => rfl) fun _ => obeys_pure _
        apply obeys_bind hmake
        intro r
        split
        · exact obeys_pure _
        · apply obeys_bind (ih fun t ht q hq => h t ht q (List.mem_cons_of_mem _ hq))
          intro r
          split
          · exact obeys_pure _
          · apply obeys_bind hmake
            intro r
            split
            · exact obeys_pure _
            · exact hlook _
        · exact hlook _

end Spares

end Swatchbook.FileTree

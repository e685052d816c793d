import Swatchbook.Proofs.Resolution.MarkedSearch

/-! What the marks of a search say. The stack is a simple path of dependencies whose tokens have
all been looked at, but for the innermost, and no other token is marked as visited; a token
that is done has a value, and so has all it leads to. Hence no fallback is ever used. -/
namespace Swatchbook.MarkedSearch

variable {tokens : Dict Token} {s : MarkedSearch}

/-- What holds of a search each time its innermost token is looked at. -/
structure Sound (tokens : Dict Token) (s : MarkedSearch) : Prop where
  nodup : s.stack.Nodup
  known : ∀ n ∈ s.stack, n ∈ tokens.keys
  below : ∀ n ∈ s.stack.tail, s.mark n = .visiting
  path : s.stack.IsChain fun inner outer => DependsOn tokens outer inner
  onStack : ∀ n, s.mark n = .visiting → n ∈ s.stack
  valued : ∀ n, s.mark n = .done ↔ ∃ v, s.slot n = some v
  closed : ∀ n, s.mark n = .done → ∀ d, DependsOn tokens n d → s.mark d = .done

/-- The states in which searches from any tokens, one after the other, look at their innermost
token, and those in which they have come to an end. -/
inductive Reached (tokens : Dict Token) : MarkedSearch → Prop
  | start : Reached tokens start
  | root {s : MarkedSearch} {name : String} (hs : Reached tokens s) (hend : s.stack = [])
      (hk : name ∈ tokens.keys) : Reached tokens { s with stack := [name] }
  | step {s next : MarkedSearch} {ws : List Warning} (hs : Reached tokens s)
      (h : step tokens s = .goOn next ws) : Reached tokens next

theorem mark_visit (s : MarkedSearch) (name n : String) :
    (s.visit name).mark n = if n = name then .visiting else s.mark n :=
  rfl

theorem mark_settle (s : MarkedSearch) (name value : String) (rest : List String) (n : String) :
    (s.settle name value rest).mark n = if n = name then .done else s.mark n :=
  rfl

theorem slot_settle (s : MarkedSearch) (name value : String) (rest : List String) (n : String) :
    (s.settle name value rest).slot n = if n = name then some value else s.slot n :=
  rfl

theorem mark_visit_eq_done_iff {name : String} (h : s.mark name ≠ .done) (n : String) :
    (s.visit name).mark n = .done ↔ s.mark n = .done := by
  rw [mark_visit]
  split
  · rename_i heq
    exact iff_of_false nofun (heq ▸ h)
  · rfl

theorem mark_settle_of_done {n : String} (name value : String) (rest : List String)
    (h : s.mark n = .done) : (s.settle name value rest).mark n = .done := by
  rw [mark_settle, h, ite_self]

theorem sound_start (tokens : Dict Token) : Sound tokens start where
  nodup := .nil
  known := nofun
  below := nofun
  path := .nil
  onStack := nofun
  valued _ := ⟨nofun, nofun⟩
  closed := nofun

theorem Sound.root {name : String} (hs : Sound tokens s) (hend : s.stack = [])
    (hk : name ∈ tokens.keys) : Sound tokens { s with stack := [name] } where
  nodup := List.nodup_singleton name
  known := List.forall_mem_singleton.2 hk
  below := nofun
  path := .singleton name
  onStack n hn := by
    have hmem := hs.onStack n hn
    rw [hend] at hmem
    cases hmem
  valued := hs.valued
  closed := hs.closed

section Innermost

variable {name : String} {rest : List String}

theorem Sound.mark_visit_iff (hs : Sound tokens s) (hstack : s.stack = name :: rest) (n : String) :
    (s.visit name).mark n = .visiting ↔ n ∈ s.stack := by
  rw [mark_visit]
  split
  · rename_i heq
    rw [heq, hstack]
    exact iff_of_true rfl List.mem_cons_self
  · rename_i hne
    refine ⟨hs.onStack n, fun hn => hs.below n ?_⟩
    rw [hstack] at hn ⊢
    exact (List.mem_cons.1 hn).resolve_left hne

theorem Sound.mem_rest (hs : Sound tokens s) (hstack : s.stack = name :: rest) {n : String}
    (hn : s.mark n = .visiting) (hne : n ≠ name) : n ∈ rest := by
  have hmem := hs.onStack n hn
  rw [hstack] at hmem
  exact (List.mem_cons.1 hmem).resolve_left hne

theorem Sound.leave (hs : Sound tokens s) (hstack : s.stack = name :: rest)
    (hdone : s.mark name = .done) : Sound tokens { s with stack := rest } where
  nodup := (hstack ▸ hs.nodup).of_cons
  known n hn := hs.known n (hstack ▸ List.mem_cons_of_mem _ hn)
  below n hn := hs.below n (hstack ▸ List.mem_of_mem_tail hn)
  path := (hstack ▸ hs.path).of_cons
  onStack n hn := by
    refine hs.mem_rest hstack hn ?_
    rintro rfl
    rw [hdone] at hn
    cases hn
  valued := hs.valued
  closed := hs.closed

theorem Sound.wait {target : String} (hs : Sound tokens s) (hstack : s.stack = name :: rest)
    (hnot : s.mark name ≠ .done) (hd : DependsOn tokens name target) (hk : target ∈ tokens.keys)
    (hp : (s.visit name).mark target = .pending) : Sound tokens ((s.visit name).push target) where
  nodup := by
    -- A token without a mark is not on the stack.
    refine List.nodup_cons.2 ⟨fun hmem => ?_, hs.nodup⟩
    rw [(hs.mark_visit_iff hstack target).2 hmem] at hp
    cases hp
  known := List.forall_mem_cons.2 ⟨hk, hs.known⟩
  below n hn := (hs.mark_visit_iff hstack n).2 hn
  path := by
    have hpath := hs.path
    change (target :: s.stack).IsChain _
    rw [hstack] at hpath ⊢
    exact hpath.cons_cons hd
  onStack n hn := List.mem_cons_of_mem _ ((hs.mark_visit_iff hstack n).1 hn)
  valued n := (mark_visit_eq_done_iff hnot n).trans (hs.valued n)
  closed n hn d hdep :=
    (mark_visit_eq_done_iff hnot d).2 (hs.closed n ((mark_visit_eq_done_iff hnot n).1 hn) d hdep)

theorem Sound.settle {t : Token} (hs : Sound tokens s) (hstack : s.stack = name :: rest)
    (hnot : s.mark name ≠ .done) (ht : tokens.get? name = some t)
    (hd : ∀ d ∈ t.dependencies, (s.visit name).mark d = .done) (value : String) :
    Sound tokens (s.settle name value rest) where
  nodup := (hstack ▸ hs.nodup).of_cons
  known n hn := hs.known n (hstack ▸ List.mem_cons_of_mem _ hn)
  below n hn := by
    have hmem : n ∈ rest := List.mem_of_mem_tail hn
    have hne : n ≠ name := by
      rintro rfl
      exact (List.nodup_cons.1 (hstack ▸ hs.nodup)).1 hmem
    rw [mark_settle, if_neg hne]
    exact hs.below n (hstack ▸ hmem)
  path := (hstack ▸ hs.path).of_cons
  onStack n hn := by
    rw [mark_settle] at hn
    split at hn
    · cases hn
    · rename_i hne
      exact hs.mem_rest hstack hn hne
  valued n := by
    rw [mark_settle, slot_settle]
    split
    · exact iff_of_true rfl ⟨value, rfl⟩
    · exact hs.valued n
  closed n hn d hdep := by
    refine mark_settle_of_done name value rest ?_
    rw [mark_settle] at hn
    split at hn
    · rename_i heq
      rw [heq] at hdep
      exact (mark_visit_eq_done_iff hnot d).1 (hd d ((dependsOn_iff ht).1 hdep))
    · exact hs.closed n hn d hdep

end Innermost

theorem Sound.step {next : MarkedSearch} {ws : List Warning} (hs : Sound tokens s)
    (h : step tokens s = .goOn next ws) : Sound tokens next := by
  obtain ⟨name, rest, hstack, hgoes⟩ := goes_of_step h
  cases hgoes with
  | leave hleave =>
      refine hs.leave hstack (hleave.resolve_right fun hnone => ?_)
      have hk := hs.known name (hstack ▸ List.mem_cons_self)
      rw [← Dict.get?_isSome_iff, hnone] at hk
      cases hk
  | wait hnot ht hd hk hp => exact hs.wait hstack hnot ((dependsOn_iff ht).2 hd) hk hp
  | settle hnot ht hd => exact hs.settle hstack hnot ht hd _

theorem sound_of_reached (h : Reached tokens s) : Sound tokens s := by
  induction h with
  | start => exact sound_start tokens
  | root _ hend hk ih => exact ih.root hend hk
  | step _ h ih => exact ih.step h

end Swatchbook.MarkedSearch

/-!
Cutting a text at a separator. `pieces` cuts everywhere, `cut?` at the first occurrence only, and
`piecesAtPairs` at every two separators in a row. Joining the pieces gives the text back.
-/
namespace Swatchbook.Text

def extendFirst (c : Char) : List (List Char) → List (List Char)
  | [] => [[c]]
  | p :: ps => (c :: p) :: ps

/-- The pieces between the occurrences of `sep`: always one more than there are occurrences. -/
def pieces (sep : Char) : List Char → List (List Char)
  | [] => [[]]
  | c :: r => if c = sep then [] :: pieces sep r else extendFirst c (pieces sep r)

/-- The pieces between the places where `sep` stands twice, each pair taken as early as can be. -/
def piecesAtPairs (sep : Char) : List Char → List (List Char)
  | [] => [[]]
  | [c] => [[c]]
  | c :: d :: r =>
    if c = sep ∧ d = sep then [] :: piecesAtPairs sep r
    else extendFirst c (piecesAtPairs sep (d :: r))

def hasPair (sep : Char) : List Char → Bool
  | c :: d :: r => (c == sep && d == sep) || hasPair sep (d :: r)
  | _ => false

def cut? (sep : Char) : List Char → Option (List Char × List Char)
  | [] => none
  | c :: r => if c = sep then some ([], r) else (cut? sep r).map fun (a, b) => (c :: a, b)

def join (sep : List Char) : List (List Char) → List Char
  | [] => []
  | [p] => p
  | p :: q :: ps => p ++ sep ++ join sep (q :: ps)

theorem pieces_ne_nil (sep : Char) (s : List Char) : pieces sep s ≠ [] := by
  cases s with
  | nil => simp [pieces]
  | cons c r =>
    rw [pieces]
    split
    · simp
    · cases pieces sep r <;> simp [extendFirst]

theorem join_extendFirst (sep : List Char) (c : Char) {ps : List (List Char)} (h : ps ≠ []) :
    join sep (extendFirst c ps) = c :: join sep ps := by
  match ps with
  | [] => exact absurd rfl h
  | [p] => rfl
  | p :: q :: ps => simp [extendFirst, join]

/-- Cutting at a separator loses nothing. -/
theorem join_pieces (sep : Char) (s : List Char) : join [sep] (pieces sep s) = s := by
  induction s with
  | nil => rfl
  | cons c r ih =>
    rw [pieces]
    split
    · next h =>
      subst h
      obtain ⟨p, ps, hp⟩ := List.exists_cons_of_ne_nil (pieces_ne_nil c r)
      rw [hp] at ih ⊢
      simp [join, ih]
    · rw [join_extendFirst _ _ (pieces_ne_nil sep r), ih]

theorem not_mem_of_mem_pieces {sep : Char} {s p : List Char} (h : p ∈ pieces sep s) : sep ∉ p := by
  induction s generalizing p with
  | nil => simp_all [pieces]
  | cons c r ih =>
    rw [pieces] at h
    split at h
    · rcases List.mem_cons.1 h with rfl | h
      · simp
      · exact ih h
    · next hc =>
      obtain ⟨q, qs, hq⟩ := List.exists_cons_of_ne_nil (pieces_ne_nil sep r)
      rw [hq] at h ih
      rcases List.mem_cons.1 h with rfl | h
      · exact fun hs => (List.mem_cons.1 hs).elim (fun e => hc e.symm) (ih (List.mem_cons_self ..))
      · exact ih (List.mem_cons_of_mem _ h)

theorem pieces_of_not_mem {sep : Char} {s : List Char} (h : sep ∉ s) : pieces sep s = [s] := by
  induction s with
  | nil => rfl
  | cons c r ih =>
    rw [List.mem_cons, not_or] at h
    rw [pieces, if_neg (Ne.symm h.1), ih h.2]
    rfl

theorem pieces_append (sep : Char) (s r : List Char) :
    pieces sep (s ++ sep :: r) = pieces sep s ++ pieces sep r := by
  induction s with
  | nil => simp [pieces]
  | cons c s ih =>
    rw [List.cons_append, pieces, pieces, ih]
    split
    · rfl
    · obtain ⟨p, ps, hp⟩ := List.exists_cons_of_ne_nil (pieces_ne_nil sep s)
      rw [hp]
      rfl

theorem pieces_join {sep : Char} {ps : List (List Char)} (hne : ps ≠ [])
    (h : ∀ p ∈ ps, sep ∉ p) : pieces sep (join [sep] ps) = ps := by
  induction ps with
  | nil => exact absurd rfl hne
  | cons p ps ih =>
    have hp := pieces_of_not_mem (h p (List.mem_cons_self ..))
    cases ps with
    | nil => exact hp
    | cons q ps =>
      have hrest := ih (by simp) fun x hx => h x (List.mem_cons_of_mem _ hx)
      rw [join, List.append_assoc, List.singleton_append, pieces_append, hp, hrest]
      rfl

theorem pieces_join_eq_flatMap (sep : Char) {ps : List (List Char)} (hne : ps ≠ []) :
    pieces sep (join [sep] ps) = ps.flatMap (pieces sep) := by
  induction ps with
  | nil => exact absurd rfl hne
  | cons p ps ih =>
    cases ps with
    | nil => simp [join]
    | cons q ps =>
      rw [join, List.append_assoc, List.singleton_append, pieces_append, ih (by simp)]
      rfl

theorem cut?_append {sep : Char} {s : List Char} (h : sep ∉ s) (r : List Char) :
    cut? sep (s ++ sep :: r) = some (s, r) := by
  induction s with
  | nil => exact if_pos rfl
  | cons c s ih =>
    rw [List.mem_cons, not_or] at h
    rw [List.cons_append, cut?, if_neg (Ne.symm h.1), ih h.2]
    rfl

theorem cut?_eq_some_iff {sep : Char} {s before after : List Char} :
    cut? sep s = some (before, after) ↔ s = before ++ sep :: after ∧ sep ∉ before := by
  constructor
  · intro h
    induction s generalizing before with
    | nil => simp [cut?] at h
    | cons c r ih =>
      rw [cut?] at h
      split at h
      · next hc =>
        simp only [Option.some.injEq, Prod.mk.injEq] at h
        simp [← h.1, ← h.2, hc]
      · next hc =>
        rw [Option.map_eq_some_iff] at h
        obtain ⟨⟨a, b⟩, hcut, heq⟩ := h
        simp only [Prod.mk.injEq] at heq
        obtain ⟨rfl, hnot⟩ := ih (heq.2 ▸ hcut)
        simp [← heq.1, hnot, Ne.symm hc]
  · rintro ⟨rfl, hnot⟩
    exact cut?_append hnot after

theorem piecesAtPairs_ne_nil (sep : Char) (s : List Char) : piecesAtPairs sep s ≠ [] := by
  match s with
  | [] => simp [piecesAtPairs]
  | [c] => simp [piecesAtPairs]
  | c :: d :: r =>
    rw [piecesAtPairs]
    split
    · simp
    · cases piecesAtPairs sep (d :: r) <;> simp [extendFirst]

theorem piecesAtPairs_of_not_mem {sep : Char} {s : List Char} (h : sep ∉ s) :
    piecesAtPairs sep s = [s] := by
  induction s with
  | nil => rfl
  | cons c s ih =>
    rw [List.mem_cons, not_or] at h
    cases s with
    | nil => rfl
    | cons d s =>
      rw [piecesAtPairs, if_neg fun hc => h.1 hc.1.symm, ih h.2]
      rfl

theorem piecesAtPairs_append {sep : Char} {s : List Char} (h : sep ∉ s) (r : List Char) :
    piecesAtPairs sep (s ++ sep :: sep :: r) = s :: piecesAtPairs sep r := by
  induction s with
  | nil => rw [List.nil_append, piecesAtPairs, if_pos ⟨rfl, rfl⟩]
  | cons c s ih =>
    rw [List.mem_cons, not_or] at h
    obtain ⟨d, t, ht⟩ : ∃ d t, s ++ sep :: sep :: r = d :: t :=
      List.exists_cons_of_ne_nil (by simp)
    rw [List.cons_append, ht, piecesAtPairs, if_neg fun hc => h.1 hc.1.symm, ← ht, ih h.2]
    rfl

theorem join_piecesAtPairs (sep : Char) (s : List Char) :
    join [sep, sep] (piecesAtPairs sep s) = s := by
  induction s using piecesAtPairs.induct sep with
  | case1 => rfl
  | case2 c => rfl
  | case3 c d r hpair ih =>
    obtain ⟨rfl, rfl⟩ := hpair
    obtain ⟨p, ps, hp⟩ := List.exists_cons_of_ne_nil (piecesAtPairs_ne_nil d r)
    rw [piecesAtPairs, if_pos ⟨rfl, rfl⟩, hp, join, ← hp, ih]
    rfl
  | case4 c d r hpair ih =>
    rw [piecesAtPairs, if_neg hpair, join_extendFirst _ _ (piecesAtPairs_ne_nil sep _), ih]

theorem piecesAtPairs_join {sep : Char} {ps : List (List Char)} (hne : ps ≠ [])
    (h : ∀ p ∈ ps, sep ∉ p) : piecesAtPairs sep (join [sep, sep] ps) = ps := by
  induction ps with
  | nil => exact absurd rfl hne
  | cons p ps ih =>
    have hp := h p (List.mem_cons_self ..)
    cases ps with
    | nil => exact piecesAtPairs_of_not_mem hp
    | cons q ps =>
      have hrest := ih (by simp) fun x hx => h x (List.mem_cons_of_mem _ hx)
      rw [join, List.append_assoc, List.cons_append, List.singleton_append,
        piecesAtPairs_append hp, hrest]

theorem hasPair_iff {sep : Char} {s : List Char} : hasPair sep s = true ↔ [sep, sep] <:+: s := by
  induction s using hasPair.induct with
  | case1 c d r ih =>
    rw [hasPair, Bool.or_eq_true, List.infix_cons_iff, ih, List.cons_prefix_cons,
      List.cons_prefix_cons, Bool.and_eq_true, beq_iff_eq, beq_iff_eq]
    simp [eq_comm]
  | case2 s hs =>
    match s with
    | [] => simp [hasPair]
    | [c] => simp [hasPair, List.infix_cons_iff]
    | c :: d :: r => exact absurd rfl (hs c d r)

end Swatchbook.Text

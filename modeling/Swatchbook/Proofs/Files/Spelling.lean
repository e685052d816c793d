import Swatchbook.Files.Tree

/-! The steps of paths that are taken apart and put together as texts. -/
namespace Swatchbook.Path

open FileTree (steps isName)

def names (xs : List (List Char)) : List String :=
  (xs.filter (· ≠ [])).map String.ofList

theorem names_append (xs ys : List (List Char)) : names (xs ++ ys) = names xs ++ names ys := by
  unfold names
  rw [List.filter_append, List.map_append]

def spell (head : List Char) (xs : List (List Char)) : String :=
  String.ofList (head ++ Text.join ['/'] xs)

/-- Parts that a path can be taken into. -/
structure Spelled (head : List Char) (xs : List (List Char)) : Prop where
  head_eq : head = ['/'] ∨ head = ['.'] ∧ (xs = [] ∨ xs.head? = some []) ∨
    head = [] ∧ (xs = [[]] ∨ xs.head? ≠ some [])
  no_slash : ∀ x ∈ xs, '/' ∉ x

theorem Spelled.of_append {head : List Char} {xs ys : List (List Char)}
    (h : Spelled head (xs ++ ys)) : Spelled head xs := by
  refine ⟨?_, fun x hx => h.no_slash x (List.mem_append_left _ hx)⟩
  cases xs with
  | nil =>
      rcases h.head_eq with hroot | hdot | hnone
      · exact Or.inl hroot
      · exact Or.inr (Or.inl ⟨hdot.1, Or.inl rfl⟩)
      · exact Or.inr (Or.inr ⟨hnone.1, Or.inr (by simp)⟩)
  | cons x xs =>
      rcases h.head_eq with hroot | hdot | hnone
      · exact Or.inl hroot
      · exact Or.inr (Or.inl ⟨hdot.1, Or.inr (by simpa using hdot.2)⟩)
      · refine Or.inr (Or.inr ⟨hnone.1, ?_⟩)
        rcases hnone.2 with heq | hne
        · left
          simp only [List.cons_append, List.cons.injEq, List.append_eq_nil_iff] at heq
          rw [heq.1, heq.2.1]
        · exact Or.inr hne

theorem steps_spell {head : List Char} {xs : List (List Char)} (h : Spelled head xs) :
    steps (spell head xs) = names (if head = ['.'] then ['.'] :: xs else xs) := by
  have hjoin : xs ≠ [] → Text.pieces '/' (Text.join ['/'] xs) = xs :=
    fun hne => Text.pieces_join hne h.no_slash
  unfold steps spell names
  rw [String.toList_ofList]
  rcases h.head_eq with rfl | ⟨rfl, hdot⟩ | ⟨rfl, -⟩
  · have hslash := Text.pieces_append '/' [] (Text.join ['/'] xs)
    rw [List.nil_append] at hslash
    rw [List.singleton_append, hslash]
    by_cases hne : xs = []
    · subst hne
      rfl
    · rw [hjoin hne]
      rfl
  · rw [if_pos rfl]
    cases xs with
    | nil => rfl
    | cons x xs =>
        simp only [reduceCtorEq, List.head?_cons, Option.some.injEq, false_or] at hdot
        subst hdot
        cases xs with
        | nil => rfl
        | cons y ys =>
            have htail : Text.pieces '/' (Text.join ['/'] (y :: ys)) = y :: ys :=
              Text.pieces_join (by simp) fun x hx =>
                h.no_slash x (List.mem_cons_of_mem _ hx)
            rw [Text.join, List.nil_append, List.singleton_append, List.singleton_append,
              show '.' :: '/' :: Text.join ['/'] (y :: ys) =
                ['.'] ++ '/' :: Text.join ['/'] (y :: ys) from rfl,
              Text.pieces_append, htail]
            rfl
  · by_cases hne : xs = []
    · subst hne
      rfl
    · rw [List.nil_append, hjoin hne]
      rfl

theorem isAbsolute_spell {head : List Char} {xs : List (List Char)} (h : Spelled head xs) :
    isAbsolute (spell head xs) = decide (head = ['/']) := by
  unfold isAbsolute spell
  rw [String.toList_ofList]
  rcases h.head_eq with rfl | ⟨rfl, -⟩ | ⟨rfl, hfirst⟩
  · simp
  · simp
  · cases xs with
    | nil => rfl
    | cons x xs =>
        cases x with
        | nil =>
            simp only [List.cons.injEq, true_and, List.head?_cons, ne_eq, not_true_eq_false,
              or_false] at hfirst
            subst hfirst
            rfl
        | cons c cs =>
            have hc : c ≠ '/' := fun heq =>
              h.no_slash _ (List.mem_cons_self ..) (heq ▸ List.mem_cons_self ..)
            cases xs <;> simp [Text.join, hc]

theorem names_of_isIdle {xs : List (List Char)} (h : ∀ x ∈ xs, isIdle x = true) :
    ∀ step ∈ names xs, step = "." := by
  intro step hstep
  unfold names at hstep
  rw [List.mem_map] at hstep
  obtain ⟨x, hx, rfl⟩ := hstep
  rw [List.mem_filter] at hx
  have hidle := h x hx.1
  simp only [isIdle, Bool.or_eq_true, decide_eq_true_eq] at hidle hx
  rw [hidle.resolve_left hx.2]

theorem upToLast_append (xs : List (List Char)) :
    ∃ idle, xs = upToLast xs ++ idle ∧ ∀ x ∈ idle, isIdle x = true := by
  refine ⟨(xs.reverse.takeWhile isIdle).reverse, ?_, ?_⟩
  · unfold upToLast
    rw [← List.reverse_append, List.takeWhile_append_dropWhile, List.reverse_reverse]
  · intro x hx
    rw [List.mem_reverse] at hx
    exact List.all_eq_true.1 List.all_takeWhile x hx

theorem isIdle_of_getLast? {xs : List (List Char)} {x : List Char}
    (h : (upToLast xs).getLast? = some x) : isIdle x = false := by
  unfold upToLast at h
  rw [List.getLast?_reverse] at h
  cases hdrop : xs.reverse.dropWhile isIdle with
  | nil =>
      rw [hdrop] at h
      cases h
  | cons y ys =>
      rw [hdrop] at h
      cases h
      have hhead := List.head_dropWhile_not (p := isIdle) (l := xs.reverse) (by simp [hdrop])
      simp only [hdrop, List.head_cons] at hhead
      exact hhead

theorem parts_spelled (p : String) :
    ∃ head xs, parts p = ⟨head, upToLast xs⟩ ∧ Spelled head xs ∧ p = spell head xs := by
  have hpieces : ∀ cs : List Char, ∀ x ∈ Text.pieces '/' cs, '/' ∉ x :=
    fun cs x hx => Text.not_mem_of_mem_pieces hx
  unfold parts
  split
  · rename_i r hp
    refine ⟨_, _, rfl, ⟨Or.inl rfl, hpieces r⟩, ?_⟩
    rw [spell, Text.join_pieces, ← String.ofList_toList (s := p), hp]
    rfl
  · rename_i hp
    refine ⟨['.'], [], rfl, ⟨Or.inr (Or.inl ⟨rfl, Or.inl rfl⟩), by simp⟩, ?_⟩
    rw [← String.ofList_toList (s := p), hp]
    rfl
  · rename_i r hp
    refine ⟨_, _, rfl, ⟨Or.inr (Or.inl ⟨rfl, Or.inr rfl⟩), ?_⟩, ?_⟩
    · intro x hx
      rcases List.mem_cons.1 hx with rfl | hx
      · simp
      · exact hpieces r x hx
    · have hjoin := Text.join_pieces '/' r
      obtain ⟨x, xs, hx⟩ := List.exists_cons_of_ne_nil (Text.pieces_ne_nil '/' r)
      rw [hx] at hjoin ⊢
      rw [spell, Text.join, hjoin, ← String.ofList_toList (s := p), hp]
      rfl
  · rename_i hroot _ _
    refine ⟨_, _, rfl, ⟨Or.inr (Or.inr ⟨rfl, ?_⟩), hpieces _⟩, ?_⟩
    · cases hp : p.toList with
      | nil => exact Or.inl rfl
      | cons c cs =>
          have hc : c ≠ '/' := fun heq => hroot cs (heq ▸ hp)
          right
          rw [Text.pieces, if_neg hc]
          obtain ⟨x, xs, hx⟩ := List.exists_cons_of_ne_nil (Text.pieces_ne_nil '/' cs)
          rw [hx]
          simp [Text.extendFirst]
    · rw [spell, Text.join_pieces, List.nil_append, String.ofList_toList]

theorem mem_above {head : List Char} {rev : List (List Char)} {q : String}
    (h : q ∈ above head rev) : q = "" ∨ ∃ ys, ys <+: rev.reverse ∧ q = spell head ys := by
  induction rev with
  | nil =>
      rw [above] at h
      split at h
      · rename_i hdot
        subst hdot
        simp only [List.mem_cons, List.not_mem_nil, or_false] at h
        rcases h with rfl | rfl
        · exact Or.inr ⟨[], List.nil_prefix, rfl⟩
        · exact Or.inl rfl
      · rw [List.mem_singleton] at h
        refine Or.inr ⟨[], List.nil_prefix, ?_⟩
        rw [h, spell, Text.join, List.append_nil]
  | cons x rev ih =>
      have hrest : q ∈ above head rev →
          q = "" ∨ ∃ ys, ys <+: (x :: rev).reverse ∧ q = spell head ys := by
        intro hq
        rcases ih hq with rfl | ⟨ys, hys, rfl⟩
        · exact Or.inl rfl
        · refine Or.inr ⟨ys, hys.trans ?_, rfl⟩
          rw [List.reverse_cons]
          exact List.prefix_append _ _
      rw [above] at h
      split at h
      · exact hrest h
      · rcases List.mem_cons.1 h with rfl | h
        · exact Or.inr ⟨_, List.prefix_refl _, rfl⟩
        · exact hrest h

theorem head?_above (head : List Char) (rev : List (List Char)) :
    ∃ ys idle, rev.reverse = ys ++ idle ∧ (∀ x ∈ idle, isIdle x = true) ∧
      (above head rev).head? = some (spell head ys) := by
  induction rev with
  | nil =>
      refine ⟨[], [], rfl, by simp, ?_⟩
      rw [above, spell, Text.join, List.append_nil]
      split
      · rename_i hdot
        subst hdot
        rfl
      · rfl
  | cons x rev ih =>
      rw [above]
      split
      · rename_i hidle
        obtain ⟨ys, idle, hrev, hall, hhead⟩ := ih
        refine ⟨ys, idle ++ [x], ?_, ?_, hhead⟩
        · rw [List.reverse_cons, hrev, List.append_assoc]
        · intro y hy
          rcases List.mem_append.1 hy with hy | hy
          · exact hall y hy
          · rw [List.mem_singleton.1 hy]
            exact hidle
      · exact ⟨_, [], (List.append_nil _).symm, by simp, rfl⟩

private theorem steps_spell_append {head : List Char} {xs ys : List (List Char)}
    (h : Spelled head (xs ++ ys)) :
    steps (spell head (xs ++ ys)) = steps (spell head xs) ++ names ys := by
  rw [steps_spell h, steps_spell h.of_append]
  split
  · rw [← List.cons_append, names_append]
  · rw [names_append]

theorem ancestor_steps {p q : String} (h : q ∈ ancestors p) :
    q = "" ∨ isAbsolute q = isAbsolute p ∧ steps q <+: steps p := by
  obtain ⟨head, xs, hparts, hspelled, rfl⟩ := parts_spelled p
  obtain ⟨idle, hidle, -⟩ := upToLast_append xs
  unfold ancestors at h
  rw [hparts] at h
  simp only at h
  split at h
  · split at h
    · exact Or.inl (List.mem_singleton.1 h)
    · cases h
  · rename_i last rev hrev
    rcases mem_above h with rfl | ⟨ys, ⟨zs, hzs⟩, rfl⟩
    · exact Or.inl rfl
    · have hxs : xs = ys ++ (zs ++ [last] ++ idle) := by
        rw [hidle, ← List.reverse_reverse (upToLast xs), hrev, List.reverse_cons, ← hzs]
        simp
      rw [hxs] at hspelled ⊢
      right
      rw [isAbsolute_spell hspelled, isAbsolute_spell hspelled.of_append,
        steps_spell_append hspelled]
      exact ⟨rfl, List.prefix_append _ _⟩

/-- A path that ends in a name is that of its parent, then the name, but for idle steps. -/
theorem steps_of_fileName? {p name : String} (h : fileName? p = some name) :
    ∃ parent idle idle', parent? p = some parent ∧ isAbsolute parent = isAbsolute p ∧
      steps p = steps parent ++ idle ++ [name] ++ idle' ∧
      (∀ step ∈ idle ++ idle', step = ".") ∧ isName name = true ∧ '/' ∉ name.toList := by
  obtain ⟨head, xs, hparts, hspelled, rfl⟩ := parts_spelled p
  obtain ⟨idle', hidle', hall'⟩ := upToLast_append xs
  unfold fileName? at h
  rw [hparts] at h
  simp only at h
  split at h
  · rename_i last hlast
    split at h
    · cases h
    · rename_i hup
      cases h
      obtain ⟨init, hinit⟩ := List.getLast?_eq_some_iff.1 hlast
      obtain ⟨ys, idle, hys, hall, hhead⟩ := head?_above head init.reverse
      rw [List.reverse_reverse] at hys
      have hxs : xs = ys ++ (idle ++ [last] ++ idle') := by
        rw [hidle', hinit, hys]
        simp
      have hnot := isIdle_of_getLast? hlast
      simp only [isIdle, Bool.or_eq_false_iff, decide_eq_false_iff_not] at hnot
      refine ⟨spell head ys, names idle, names idle', ?_, ?_, ?_, ?_, ?_, ?_⟩
      · unfold parent? ancestors
        rw [hparts]
        simp only [hinit, List.reverse_append, List.reverse_singleton, List.singleton_append]
        exact hhead
      · rw [hxs] at hspelled ⊢
        rw [isAbsolute_spell hspelled, isAbsolute_spell hspelled.of_append]
      · rw [hxs] at hspelled ⊢
        rw [steps_spell_append hspelled, names_append, names_append]
        have hname : names [last] = [String.ofList last] := by simp [names, hnot.1]
        rw [hname]
        simp
      · intro step hstep
        rcases List.mem_append.1 hstep with hstep | hstep
        · exact names_of_isIdle hall step hstep
        · exact names_of_isIdle hall' step hstep
      · have hdot : String.ofList last ≠ "." := fun heq => hnot.2 (by
          rw [← String.toList_ofList (l := last), heq]
          rfl)
        have hdots : String.ofList last ≠ ".." := fun heq => hup (by
          rw [← String.toList_ofList (l := last), heq]
          rfl)
        simp [isName, hdot, hdots]
      · rw [String.toList_ofList]
        apply hspelled.no_slash
        rw [hxs]
        simp
  · cases h

theorem steps_join (base : String) {p : String} (hp : isAbsolute p = false) :
    steps (join base p) = steps base ++ steps p ∧ isAbsolute (join base p) = isAbsolute base := by
  unfold join
  rw [hp, Bool.false_or]
  split
  · rename_i hempty
    rw [String.isEmpty_iff] at hempty
    subst hempty
    exact ⟨rfl, hp⟩
  · rename_i hnonempty
    split
    · rename_i hlast
      obtain ⟨above, habove⟩ := List.getLast?_eq_some_iff.1 hlast
      constructor
      · unfold steps
        rw [String.toList_append, habove, List.append_assoc, List.singleton_append,
          Text.pieces_append, Text.pieces_append]
        simp [Text.pieces]
      · unfold isAbsolute
        rw [String.toList_append, habove]
        simp
    · constructor
      · unfold steps
        rw [String.toList_append, String.toList_append, List.append_assoc,
          show "/".toList ++ p.toList = '/' :: p.toList from rfl, Text.pieces_append]
        simp
      · unfold isAbsolute
        have hne : base.toList ≠ [] := by simpa using hnonempty
        rw [String.toList_append, String.toList_append, List.append_assoc, List.head?_append,
          List.head?_eq_some_head hne, Option.some_or]

end Swatchbook.Path

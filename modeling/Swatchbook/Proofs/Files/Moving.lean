import Swatchbook.Proofs.Files.Effects

/-! What a move does to a tree, place by place: what was at and below one place is at and
below another, and everything else stays as it is. -/
namespace Swatchbook.FileTree

variable {t t' : FileTree} {p q : String}

/-- What was at and below the place of `p` is at and below that of `q`. A directory has
not taken the place of a file. -/
structure Moves (t t' : FileTree) (p q : String) : Prop where
  here_eq : t'.here = t.here
  target : ∃ above name, isName name = true ∧ t.Ends q above name
  target_ne : t.look (t.place p) = some .directory →
    ∀ contents, t.look (t.place q) ≠ some (.file contents)
  look_eq : ∀ r, t'.look r =
    if t.place q <+: r then t.look (t.place p ++ r.drop (t.place q).length)
    else if t.place p <+: r then none
    else t.look r

private theorem look_move {root n : Node} {source above : List String}
    {last name : String} (hname : Node.isEntryName name = true)
    (hfind : root.find? (source ++ [last]) = some n)
    (habove : root.look above = some .directory)
    (hapart : ¬source ++ [last] <+: above ++ [name]) (r : List String) :
    (root.move (source ++ [last]) (above ++ [name])).look r =
      if above ++ [name] <+: r then root.look (source ++ [last] ++ r.drop (above ++ [name]).length)
      else if source ++ [last] <+: r then none
      else root.look r := by
  have habove' : (root.remove (source ++ [last])).look above = some .directory := by
    rw [Node.look_remove, if_neg fun h => hapart (h.trans (List.prefix_append _ _)), habove]
  simp only [Node.move, hfind]
  rw [Node.look_put n hname habove', Node.look_remove, Node.look_append root (source ++ [last]), hfind,
    Option.bind_some, List.length_append, List.length_singleton]

/-- What a move to another place has found, and the tree it has made. -/
private theorem rename_eq_ok (h : t.rename p q = .ok t') (hne : t.place p ≠ t.place q) :
    ∃ above name above' name' n, t.Ends p above name ∧ isName name = true ∧
      t.Ends q above' name' ∧ isName name' = true ∧ t.root.find? (t.place p) = some n ∧
      ¬t.place p <+: t.place q ∧ canReplace n (t.root.find? (t.place q)) = .ok () ∧
      t' = t.move (t.place p) (t.place q) := by
  unfold rename at h
  obtain ⟨⟨place, name⟩, hsource, h⟩ := bind_eq_ok_iff.1 h
  obtain ⟨⟨place', name'⟩, htarget, h⟩ := bind_eq_ok_iff.1 h
  obtain ⟨above, hends, rfl⟩ := locateParent_eq_ok.1 hsource
  obtain ⟨above', hends', rfl⟩ := locateParent_eq_ok.1 htarget
  simp only at h
  split at h
  · cases h
  · rename_i hnames
    simp only [Bool.or_eq_true, Bool.not_eq_true', not_or, Bool.not_eq_false] at hnames
    rw [← hends.place_eq hnames.1, ← hends'.place_eq hnames.2] at h
    refine ⟨above, name, above', name', ?_⟩
    split at h
    · cases h
    · rename_i n hfind
      split at h
      · cases h
      · split at h
        · cases h
        · rename_i hapart
          rw [List.isPrefixOf_iff_prefix] at hapart
          obtain ⟨_, hreplace, h⟩ := bind_eq_ok_iff.1 h
          cases h
          exact ⟨n, hends, hnames.1, hends', hnames.2, hfind, hapart, hreplace, rfl⟩

private theorem not_file_of_canReplace {n : Node} {place : List String}
    (h : canReplace n (t.root.find? place) = .ok ()) (hn : n.entry = .directory)
    (contents : List UInt8) : t.look place ≠ some (.file contents) := by
  intro hfile
  unfold look Node.look at hfile
  cases hfind : t.root.find? place with
  | none =>
      rw [hfind] at hfile
      cases hfile
  | some old =>
      cases n with
      | file c => cases hn
      | directory entries =>
          cases old with
          | file c =>
              rw [hfind] at h
              cases h
          | directory entries' =>
              rw [hfind] at hfile
              cases hfile

theorem rename_moves (h : t.rename p q = .ok t') (hne : t.place p ≠ t.place q) :
    t.Moves t' p q := by
  obtain ⟨above, name, above', name', n, hends, hname, hends', hname', hfind, hapart, hreplace,
    rfl⟩ := rename_eq_ok h hne
  refine ⟨rfl, ⟨_, _, hname', hends'⟩, fun hdirectory => ?_, fun r => ?_⟩
  · apply not_file_of_canReplace hreplace
    rw [look, Node.look_of_find? hfind] at hdirectory
    exact Option.some.inj hdirectory
  · rw [hends.place_eq hname] at hfind hapart ⊢
    rw [hends'.place_eq hname'] at hapart ⊢
    exact look_move (hends'.isEntryName hname') hfind hends'.enters.2 hapart r

end Swatchbook.FileTree

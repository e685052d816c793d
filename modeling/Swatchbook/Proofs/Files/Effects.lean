import Swatchbook.Proofs.Except
import Swatchbook.Proofs.Files.Walk

/-! What the file operations do to a tree, place by place. Each of them says which
directory it has entered, and that the place the path names is the only one it
touches; only emptying a directory reaches further down. -/
namespace Swatchbook.FileTree

variable {t t' : FileTree} {p : String}

theorem start_eq (h : t'.here = t.here) (p : String) : t'.start p = t.start p := by
  unfold start
  rw [h]

theorem start_congr {q : String} (h : Path.isAbsolute p = Path.isAbsolute q) :
    t.start p = t.start q := by
  unfold start
  rw [h]

theorem place_eq (h : t'.here = t.here) (p : String) : t'.place p = t.place p := by
  unfold place
  rw [start_eq h]

theorem passes_iff (h : t'.here = t.here) (p : String) (q : List String) :
    t'.Passes p q ↔ t.Passes p q := by
  unfold Passes
  rw [start_eq h]

theorem not_slash_of_mem_steps {step : String} (h : step ∈ steps p) :
    step.toList ≠ [] ∧ '/' ∉ step.toList := by
  unfold steps at h
  obtain ⟨piece, hpiece, rfl⟩ := List.mem_map.1 h
  rw [List.mem_filter, decide_eq_true_eq] at hpiece
  rw [String.toList_ofList]
  exact ⟨hpiece.2, Text.not_mem_of_mem_pieces hpiece.1⟩

theorem isEntryName_of_mem_steps {step : String} (h : step ∈ steps p) (hname : isName step = true) :
    Node.isEntryName step = true := by
  obtain ⟨hne, hslash⟩ := not_slash_of_mem_steps h
  have hempty : step ≠ "" := by
    rintro rfl
    exact hne rfl
  rw [isName, Bool.and_eq_true, bne_iff_ne, bne_iff_ne] at hname
  exact Node.isEntryName_iff.2 ⟨hempty, hslash, hname⟩

/-- The path leads through directories to one that can hold its last step. -/
structure Ends (t : FileTree) (p : String) (above : List String) (name : String) : Prop where
  accepted : refusal? p = none
  steps_eq : steps p = above ++ [name]
  enters : t.Enters (t.start p) above
  short : isLongName name = false

theorem locateParent_eq_ok {place : List String} {name : String} :
    t.locateParent p = .ok (place, name) ↔
      ∃ above, t.Ends p above name ∧ place = follow (t.start p) above := by
  constructor
  · intro h
    unfold locateParent at h
    split at h
    · cases h
    · cases h
    · rename_i last haccepted hlast
      obtain ⟨above, hsteps⟩ := List.getLast?_eq_some_iff.1 hlast
      rw [hsteps, List.dropLast_concat] at h
      cases hwalk : walk t.root (t.start p) above with
      | error e =>
          rw [hwalk] at h
          cases h
      | ok final =>
          rw [hwalk] at h
          simp only at h
          split at h
          · rename_i entries hfind
            split at h
            · cases h
            · rename_i hshort
              cases h
              have henters := Enters.of_walk hwalk (Node.look_of_find? hfind)
              exact ⟨_, ⟨haccepted, hsteps, henters, by simpa using hshort⟩,
                eq_follow_of_walk hwalk⟩
          · cases h
          · cases h
  · rintro ⟨above, h, rfl⟩
    obtain ⟨entries, hentries⟩ := Node.find?_of_look_directory h.enters.2
    unfold locateParent
    rw [h.accepted, h.steps_eq, List.getLast?_concat]
    simp only [List.dropLast_concat]
    rw [h.enters.1]
    simp only [hentries, h.short, Bool.false_eq_true, ↓reduceIte]

theorem Ends.place_eq {above : List String} {name : String} (h : t.Ends p above name)
    (hname : isName name = true) : t.place p = follow (t.start p) above ++ [name] := by
  unfold place
  rw [h.steps_eq, follow_concat _ hname]

theorem Ends.isEntryName {above : List String} {name : String} (h : t.Ends p above name)
    (hname : isName name = true) : Node.isEntryName name = true :=
  isEntryName_of_mem_steps (p := p) (by simp [h.steps_eq]) hname

theorem Ends.look_of_passes {above : List String} {name : String} {q : List String}
    (h : t.Ends p above name) (hq : t.Passes p q) : t.look q = some .directory := by
  obtain ⟨path, below, hbelow, hsteps, rfl⟩ := hq
  exact h.enters.look_of_prefix (prefix_of_append_eq (h.steps_eq.symm.trans hsteps) hbelow)

theorem Ends.congr {above : List String} {name : String} (h : t.Ends p above name)
    (hhere : t'.here = t.here) (hlook : ∀ q, t.Passes p q → t'.look q = t.look q) :
    t'.Ends p above name := by
  refine ⟨h.accepted, h.steps_eq, ?_, h.short⟩
  rw [start_eq hhere]
  apply h.enters.congr
  rintro path ⟨rest, rfl⟩
  exact hlook _ ⟨path, rest ++ [name], by simp, by simp [h.steps_eq], rfl⟩

structure Names (t : FileTree) (p : String) : Prop where
  accepted : refusal? p = none
  enters : t.Enters (t.start p) (steps p)

theorem Names.look_of_passes {q : List String} (h : t.Names p) (hq : t.Passes p q) :
    t.look q = some .directory := by
  obtain ⟨path, below, -, hsteps, rfl⟩ := hq
  exact h.enters.look_of_prefix (hsteps ▸ List.prefix_append _ _)

theorem Names.ends {above : List String} {name : String} (h : t.Names p)
    (hsteps : steps p = above ++ [name]) (hname : isName name = true) : t.Ends p above name := by
  have henters := h.enters
  rw [hsteps] at henters
  exact ⟨h.accepted, hsteps, henters.of_append, henters.short hname⟩

theorem locate_eq_directory {place : List String} {entries : List (String × Node)}
    (h : t.locate p = .ok (place, .directory entries)) : t.Names p ∧ place = t.place p := by
  unfold locate at h
  split at h
  · cases h
  · rename_i haccepted
    split at h
    · cases h
    · rename_i last hwalk
      split at h
      · cases h
      · rename_i child hfind
        split at h
        · cases h
        · cases h
          exact ⟨⟨haccepted, Enters.of_walk hwalk (Node.look_of_find? hfind)⟩,
            eq_follow_of_walk hwalk⟩

theorem Names.locate_eq (h : t.Names p) :
    ∃ entries, t.locate p = .ok (t.place p, .directory entries) ∧
      t.root.find? (t.place p) = some (.directory entries) := by
  obtain ⟨entries, hentries⟩ := Node.find?_of_look_directory h.enters.2
  refine ⟨entries, ?_, hentries⟩
  unfold locate place
  rw [h.accepted]
  simp only [h.enters.1, hentries, Node.isDirectory, Bool.not_true, Bool.and_false,
    Bool.false_eq_true, ↓reduceIte]

theorem names_of_list (h : (t.list p).isOk = true) : t.Names p := by
  unfold list at h
  split at h
  · cases h
  · cases h
  · rename_i hlocate
    exact (locate_eq_directory hlocate).1

theorem list_of_names (h : t.Names p) : ∃ names, t.list p = .ok names := by
  obtain ⟨entries, hentries, -⟩ := h.locate_eq
  unfold list
  rw [hentries]
  exact ⟨_, rfl⟩

theorem isPresent_of_names (h : t.Names p) : (t.locate p).toOption.isSome = true := by
  obtain ⟨entries, hentries, -⟩ := h.locate_eq
  rw [hentries]
  rfl

theorem not_isPresent_of_look (h : t.look (t.place p) = none) :
    (t.locate p).toOption.isSome = false := by
  unfold locate
  cases refusal? p with
  | some e => rfl
  | none =>
      cases hwalk : walk t.root (t.start p) (steps p) with
      | error e => rfl
      | ok last =>
          have hfind : t.root.find? last = none := by
            rw [eq_follow_of_walk hwalk]
            exact Option.map_eq_none_iff.1 h
          simp [hfind, Except.toOption]

/-- One place of the tree is given an entry with nothing below it. -/
structure Sets (t t' : FileTree) (p : String) (e : Entry) : Prop where
  here_eq : t'.here = t.here
  ends : ∃ above name, isName name = true ∧ t.Ends p above name
  look_old : t.look (t.place p) ≠ some .directory
  look_eq : ∀ q, t'.look q = if q = t.place p then some e else t.look q

private theorem look_put_leaf {root n : Node} {above : List String} {name : String}
    (hname : Node.isEntryName name = true) (habove : root.look above = some .directory)
    (hold : root.look (above ++ [name]) ≠ some .directory)
    (hleaf : ∀ below, below ≠ [] → n.look below = none) (q : List String) :
    (root.put n (above ++ [name])).look q =
      if q = above ++ [name] then some n.entry else root.look q := by
  rw [Node.look_put n hname habove]
  by_cases hq : above ++ [name] <+: q
  · rw [if_pos hq]
    obtain ⟨below, rfl⟩ := hq
    rw [List.drop_left' (by simp)]
    by_cases hbelow : below = []
    · rw [hbelow, List.append_nil, if_pos rfl]
      rfl
    · rw [if_neg (by simpa using hbelow), hleaf below hbelow]
      cases hentry : root.look (above ++ [name]) with
      | none => exact (Node.look_append_of_none hentry below).symm
      | some e =>
          cases e with
          | file contents => exact (Node.look_append_of_file hentry hbelow).symm
          | directory => exact absurd hentry hold
  · rw [if_neg hq, if_neg]
    rintro rfl
    exact hq (List.prefix_refl _)

private theorem sets_put {above : List String} {name : String} {n : Node}
    (hn : n.isWellFormed = true) (hname : isName name = true) (h : t.Ends p above name)
    (hold : t.look (follow (t.start p) above ++ [name]) ≠ some .directory)
    (hleaf : ∀ below, below ≠ [] → n.look below = none) :
    t.Sets (t.put n hn (follow (t.start p) above ++ [name])) p n.entry where
  here_eq := rfl
  ends := ⟨above, name, hname, h⟩
  look_old := by
    rw [h.place_eq hname]
    exact hold
  look_eq q := by
    rw [h.place_eq hname]
    exact look_put_leaf (h.isEntryName hname) h.enters.2 hold hleaf q

theorem makeDirectory_sets (h : t.makeDirectory p = .ok t') :
    t.Sets t' p .directory ∧ t.look (t.place p) = none := by
  unfold makeDirectory at h
  split at h
  · cases h
  · cases h
  · rename_i place last hparent
    obtain ⟨above, hends, rfl⟩ := locateParent_eq_ok.1 hparent
    split at h
    · cases h
    · rename_i hfree
      simp only [Bool.or_eq_true, Bool.not_eq_true', not_or, Bool.not_eq_false,
        Option.not_isSome_iff_eq_none] at hfree
      obtain ⟨hname, hfree⟩ := hfree
      have hnone : t.look (follow (t.start p) above ++ [last]) = none := by
        rw [look, Node.look, hfree]
        rfl
      cases h
      constructor
      · apply sets_put Node.isWellFormed_directory_nil hname hends
        · rw [hnone]
          exact (Option.some_ne_none _).symm
        · intro below hbelow
          obtain ⟨k, rest, rfl⟩ := List.exists_cons_of_ne_nil hbelow
          rfl
      · rw [hends.place_eq hname]
        exact hnone

theorem write_sets {contents : List UInt8} (h : t.write p contents = .ok t') :
    t.Sets t' p (.file contents) := by
  unfold write at h
  split at h
  · cases h
  · cases h
  · rename_i place last hparent
    obtain ⟨above, hends, rfl⟩ := locateParent_eq_ok.1 hparent
    split at h
    · cases h
    · rename_i hname
      simp only [Bool.or_eq_true, Bool.not_eq_true', not_or, Bool.not_eq_false,
        Bool.not_eq_true] at hname
      split at h
      · cases h
      · rename_i hold
        cases h
        apply sets_put (Node.isWellFormed_file contents) hname.1 hends
        · intro hdirectory
          obtain ⟨entries, hentries⟩ := Node.find?_of_look_directory hdirectory
          exact hold entries hentries
        · intro below hbelow
          obtain ⟨k, rest, rfl⟩ := List.exists_cons_of_ne_nil hbelow
          rfl

/-- The tree once the directory at a path is empty. -/
def emptied (t : FileTree) (p : String) : FileTree :=
  t.put (.directory []) Node.isWellFormed_directory_nil (t.place p)

private theorem look_put_empty {root : Node} {place : List String}
    (hroot : root.isWellFormed = true) (h : root.look place = some .directory) (q : List String) :
    (root.put (.directory []) place).look q =
      if place <+: q then if q = place then some .directory else none else root.look q := by
  have hempty : ∀ below, (Node.directory []).look below =
      if below = [] then some .directory else none := by
    intro below
    cases below <;> rfl
  rcases List.eq_nil_or_concat place with rfl | ⟨above, name, rfl⟩
  · rw [if_pos List.nil_prefix, Node.put]
    exact hempty q
  · rw [List.concat_eq_append] at h ⊢
    have hname : Node.isEntryName name = true :=
      Node.isEntryName_of_look hroot (by rw [h]; exact Option.some_ne_none _)
    have habove : root.look above = some .directory := by
      rw [Node.look_append] at h
      cases hfind : root.find? above with
      | none =>
          rw [hfind] at h
          cases h
      | some child =>
          rw [hfind] at h
          cases child with
          | file contents => cases h
          | directory entries => exact Node.look_of_find? hfind
    rw [Node.look_put _ hname habove, hempty]
    split
    · rename_i hq
      obtain ⟨below, rfl⟩ := hq
      rw [List.drop_left' (by simp)]
      simp
    · rfl

theorem look_emptied (h : t.Names p) (q : List String) :
    (t.emptied p).look q =
      if t.place p <+: q then if q = t.place p then some .directory else none else t.look q :=
  look_put_empty t.wellFormed h.enters.2 q

private theorem find?_of_look_below {root : Node} {place : List String}
    (h : root.look place = some .directory)
    (hbelow : ∀ name, root.look (place ++ [name]) = none) :
    root.find? place = some (.directory []) := by
  obtain ⟨entries, hentries⟩ := Node.find?_of_look_directory h
  cases entries with
  | nil => exact hentries
  | cons e rest =>
      obtain ⟨k, v⟩ := e
      have hk := hbelow k
      rw [Node.look_append, hentries, Option.bind_some, Node.look_directory_cons,
        List.lookup_cons_self, Option.bind_some, Node.look_nil] at hk
      cases hk

theorem find?_emptied (h : t.Names p) :
    (t.emptied p).root.find? (t.place p) = some (.directory []) := by
  apply find?_of_look_below
  · have hself := look_emptied h (t.place p)
    rw [if_pos (List.prefix_refl _), if_pos rfl] at hself
    exact hself
  · intro name
    have hchild := look_emptied h (t.place p ++ [name])
    rw [if_pos (List.prefix_append _ _), if_neg (by simp)] at hchild
    exact hchild

theorem removeEmpty_eq_ok (h : t.removeEmpty p = .ok t') :
    ∃ above name, isName name = true ∧ t.Ends p above name ∧
      t' = t.without (follow (t.start p) above ++ [name]) := by
  unfold removeEmpty at h
  split at h
  · cases h
  · rename_i place last hparent
    obtain ⟨above, hends, rfl⟩ := locateParent_eq_ok.1 hparent
    split at h
    · cases h
    · split at h
      · cases h
      · rename_i hstay hup
        split at h
        · cases h
        · cases h
        · cases h
          exact ⟨above, last, by simp [isName, hstay, hup], hends, rfl⟩
        · cases h

theorem removeEmpty_of_ends {above : List String} {name : String} (h : t.Ends p above name)
    (hname : isName name = true) (hfind : t.root.find? (t.place p) = some (.directory [])) :
    t.removeEmpty p = .ok (t.without (follow (t.start p) above ++ [name])) := by
  have hparent := locateParent_eq_ok.2 ⟨above, h, rfl⟩
  rw [h.place_eq hname] at hfind
  rw [isName, Bool.and_eq_true, bne_iff_ne, bne_iff_ne] at hname
  unfold removeEmpty
  rw [hparent]
  simp only [if_neg hname.1, if_neg hname.2, hfind]

/-- An empty directory is only ever missed when its path cannot be followed. -/
theorem not_ends_of_notFound (hfind : t.root.find? (t.place p) = some (.directory []))
    (h : t.removeEmpty p = .error .notFound) (above : List String) (name : String) :
    ¬t.Ends p above name := by
  intro hends
  by_cases hname : isName name = true
  · rw [removeEmpty_of_ends hends hname hfind] at h
    cases h
  · have hparent := locateParent_eq_ok.2 ⟨above, hends, rfl⟩
    unfold removeEmpty at h
    rw [hparent] at h
    simp only at h
    split at h
    · cases h
    · rename_i hstay
      split at h
      · cases h
      · rename_i hup
        exact hname (by simp [isName, hstay, hup])

/-- A directory is emptied. It may be left there or not. -/
structure Empties (t t' : FileTree) (p : String) : Prop where
  here_eq : t'.here = t.here
  look_place : t'.look (t.place p) = none ∨ t'.look (t.place p) = some .directory
  look_below : ∀ below, below ≠ [] → t'.look (t.place p ++ below) = none
  look_off : ∀ q, ¬t.place p <+: q → t'.look q = t.look q

theorem emptied_empties (h : t.Names p) : t.Empties (t.emptied p) p where
  here_eq := rfl
  look_place := by
    right
    rw [look_emptied h, if_pos (List.prefix_refl _), if_pos rfl]
  look_below below hbelow := by
    rw [look_emptied h, if_pos (List.prefix_append _ _), if_neg (by simpa using hbelow)]
  look_off q hq := by
    rw [look_emptied h, if_neg hq]

theorem look_without_emptied {above : List String} {name : String} (h : t.Names p)
    (hplace : t.place p = above ++ [name]) (q : List String) :
    ((t.emptied p).without (above ++ [name])).look q =
      if t.place p <+: q then none else t.look q := by
  unfold look without
  rw [Node.look_remove, ← hplace]
  split
  · rfl
  · rename_i hq
    exact (emptied_empties h).look_off q hq

theorem without_emptied_empties {above : List String} {name : String} (h : t.Names p)
    (hplace : t.place p = above ++ [name]) :
    t.Empties ((t.emptied p).without (above ++ [name])) p where
  here_eq := rfl
  look_place := by
    left
    rw [look_without_emptied h hplace, if_pos (List.prefix_refl _)]
  look_below below _ := by
    rw [look_without_emptied h hplace, if_pos (List.prefix_append _ _)]
  look_off q hq := by
    rw [look_without_emptied h hplace, if_neg hq]

theorem removeDirectory_of_not_names (h : ¬t.Names p) :
    ∃ e, t.removeDirectory p = (t, .error e) := by
  unfold removeDirectory
  split
  · exact ⟨_, rfl⟩
  · exact ⟨_, rfl⟩
  · rename_i hlocate
    exact absurd (locate_eq_directory hlocate).1 h

theorem removeDirectory_of_names (h : t.Names p) :
    t.removeDirectory p =
      match (t.emptied p).removeEmpty p with
      | .ok t' => (t', .ok ())
      | .error .notFound => (t.emptied p, .ok ())
      | .error e => (t.emptied p, .error e) := by
  obtain ⟨entries, hentries, -⟩ := h.locate_eq
  unfold removeDirectory
  rw [hentries]
  rfl

theorem removeDirectory_empties (h : t.Names p) :
    t.Empties (t.removeDirectory p).1 p ∧
      ((t.removeDirectory p).2 = .ok () →
        (t.removeDirectory p).1.look (t.place p) = none ∨
          ∀ above name, ¬(t.removeDirectory p).1.Ends p above name) := by
  rw [removeDirectory_of_names h]
  split
  · rename_i t' hremove
    obtain ⟨above, name, hname, hends, rfl⟩ := removeEmpty_eq_ok hremove
    have hplace := hends.place_eq hname
    refine ⟨without_emptied_empties h hplace, fun _ => Or.inl ?_⟩
    exact (look_without_emptied h hplace _).trans (if_pos (List.prefix_refl _))
  · rename_i hmissed
    exact ⟨emptied_empties h, fun _ => Or.inr (not_ends_of_notFound (find?_emptied h) hmissed)⟩
  · exact ⟨emptied_empties h, fun hok => nomatch hok⟩

theorem removeDirectory_of_ends {above : List String} {name : String} (h : t.Names p)
    (hends : (t.emptied p).Ends p above name) (hname : isName name = true) :
    (t.removeDirectory p).2 = .ok () ∧ (t.removeDirectory p).1.look (t.place p) = none := by
  have hplace := hends.place_eq hname
  rw [removeDirectory_of_names h, removeEmpty_of_ends hends hname (find?_emptied h)]
  exact ⟨rfl, (look_without_emptied h hplace _).trans (if_pos (List.prefix_refl _))⟩

theorem ends_of_rename {q : String} (h : t.rename p q = .ok t') :
    ∃ above name, t.Ends q above name := by
  unfold rename at h
  obtain ⟨source, -, h⟩ := bind_eq_ok_iff.1 h
  obtain ⟨⟨place, name⟩, htarget, -⟩ := bind_eq_ok_iff.1 h
  obtain ⟨above, hends, -⟩ := locateParent_eq_ok.1 htarget
  exact ⟨above, name, hends⟩

/-- A directory can be moved to any free place that is not inside it. -/
theorem rename_directory {q : String} {above above' : List String} {name name' : String}
    (hp : t.Ends p above name) (hname : isName name = true)
    (hq : t.Ends q above' name') (hname' : isName name' = true)
    (hsource : t.look (t.place p) = some .directory) (htarget : t.look (t.place q) = none)
    (hinside : ¬t.place p <+: t.place q) : ∃ t', t.rename p q = .ok t' := by
  obtain ⟨entries, hentries⟩ := Node.find?_of_look_directory hsource
  have hfree : t.root.find? (t.place q) = none := Option.map_eq_none_iff.1 htarget
  have hne : t.place p ≠ t.place q := fun heq => hinside (heq ▸ List.prefix_refl _)
  have hapart : (t.place p).isPrefixOf (t.place q) = false := by
    rw [← Bool.not_eq_true, List.isPrefixOf_iff_prefix]
    exact hinside
  rw [hp.place_eq hname] at hentries hne hapart
  rw [hq.place_eq hname'] at hfree hne hapart
  unfold rename
  rw [locateParent_eq_ok.2 ⟨above, hp, rfl⟩, locateParent_eq_ok.2 ⟨above', hq, rfl⟩]
  simp [bind, Except.bind, hname, hname', hentries, hfree, hne, hapart, Node.isDirectory,
    canReplace, pure, Except.pure]

end Swatchbook.FileTree

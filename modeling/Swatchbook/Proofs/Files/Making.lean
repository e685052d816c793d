import Swatchbook.Proofs.Files.Execution

/-! When something can be made in a tree. Once the way to a path is open and its place is
free, only the spelling of the path can be refused; and where a directory stands already,
asking for it changes nothing. -/
namespace Swatchbook.FileTree

variable {t t' : FileTree} {p : String}

theorem Ends.names {above : List String} {name : String} (h : t.Ends p above name)
    (hname : isName name = true) (hlook : t.look (t.place p) = some .directory) : t.Names p := by
  refine ⟨h.accepted, ?_, hlook⟩
  rw [h.place_eq hname] at hlook
  rw [h.steps_eq, walk_append, h.enters.1, follow_concat _ hname]
  simp only [walk_name h.enters.2 hname, h.short, hlook, Option.isSome_some, Bool.false_eq_true,
    ↓reduceIte]

theorem makeDirectory_of_ends {above : List String} {name : String} (h : t.Ends p above name)
    (hname : isName name = true) (hfree : t.look (t.place p) = none) :
    ∃ t', t.makeDirectory p = .ok t' := by
  have hfind : t.root.find? (t.place p) = none := Option.map_eq_none_iff.1 hfree
  rw [h.place_eq hname] at hfind
  unfold makeDirectory
  rw [locateParent_eq_ok.2 ⟨above, h, rfl⟩]
  simp [hname, hfind]

theorem write_of_ends {above : List String} {name : String} (h : t.Ends p above name)
    (hname : isName name = true) (hslash : asksDirectory p = false)
    (hfree : t.look (t.place p) ≠ some .directory) (contents : List UInt8) :
    ∃ t', t.write p contents = .ok t' := by
  rw [h.place_eq hname] at hfree
  unfold write
  rw [locateParent_eq_ok.2 ⟨above, h, rfl⟩]
  simp only [hname, hslash, Bool.not_true, Bool.or_self, Bool.false_eq_true, ↓reduceIte]
  split
  · rename_i entries hfind
    exact absurd (Node.look_of_find? hfind) hfree
  · exact ⟨_, rfl⟩

theorem names_of_makeDirectory (h : t.makeDirectory p = .ok t') : t'.Names p := by
  have hsets := (makeDirectory_sets h).1
  obtain ⟨above, name, hname, hends⟩ := hsets.ends
  refine (hsets.keeps.ends hends).names hname ?_
  rw [place_eq hsets.here_eq, hsets.look_eq, if_pos rfl]

theorem makeDirectory_of_names (h : t.Names p) : t.makeDirectory p = .error .alreadyExists := by
  unfold makeDirectory
  rcases List.eq_nil_or_concat (steps p) with hsteps | ⟨above, last, hsteps⟩
  · rw [locateParent, h.accepted, hsteps]
    rfl
  · rw [List.concat_eq_append] at hsteps
    have henters := h.enters
    rw [hsteps] at henters
    have hshort : isLongName last = false := by
      cases hname : isName last with
      | true => exact henters.short hname
      | false =>
          rw [isName, Bool.and_eq_false_iff, bne_eq_false_iff_eq, bne_eq_false_iff_eq] at hname
          rcases hname with rfl | rfl <;> rfl
    have hends : t.Ends p above last := ⟨h.accepted, hsteps, henters.of_append, hshort⟩
    rw [locateParent_eq_ok.2 ⟨above, hends, rfl⟩]
    cases hname : isName last with
    | false => simp [hname]
    | true =>
        obtain ⟨entries, hentries⟩ := Node.find?_of_look_directory h.enters.2
        rw [hsteps, follow_concat _ hname] at hentries
        simp [hentries]

theorem isDirectory_iff : (t.list p).toOption.isSome = true ↔ t.Names p := by
  constructor
  · intro h
    apply names_of_list
    cases hlist : t.list p with
    | error e =>
        rw [hlist] at h
        cases h
    | ok names => rfl
  · intro h
    obtain ⟨names, hnames⟩ := list_of_names h
    rw [hnames]
    rfl

theorem run_makeDirectory (t : FileTree) (p : String) :
    (FileSystem.makeDirectory p : StateM FileTree (Except FileFault Unit)).run t =
      match t.makeDirectory p with
      | .ok t' => (.ok (), t')
      | .error e => (.error e, t) :=
  rfl

theorem run_makeDirectoryChain (t : FileTree) (hp : p ≠ "") (above : List String) :
    (FileSystem.makeDirectoryChain (m := StateM FileTree) (p :: above)).run t =
      match t.makeDirectory p with
      | .ok t' => (.ok (), t')
      | .error .notFound =>
        match (FileSystem.makeDirectoryChain (m := StateM FileTree) above).run t with
        | (.error e, t') => (.error e, t')
        | (.ok _, t') =>
          match t'.makeDirectory p with
          | .ok t'' => (.ok (), t'')
          | .error e => (if (t'.list p).toOption.isSome then .ok () else .error e, t')
      | .error e => (if (t.list p).toOption.isSome then .ok () else .error e, t) := by
  rw [FileSystem.makeDirectoryChain, if_neg (by simpa using hp), run_bind, run_makeDirectory]
  cases hmake : t.makeDirectory p with
  | ok t' => rfl
  | error e =>
      cases e with
      | notFound =>
        dsimp only
        rw [run_bind]
        cases (FileSystem.makeDirectoryChain (m := StateM FileTree) above).run t with
        | mk r t' =>
          cases r with
          | error e => rfl
          | ok _ =>
            dsimp only
            rw [run_bind, run_makeDirectory]
            cases t'.makeDirectory p with
            | ok t'' => rfl
            | error e => rfl
      | _ => rfl

theorem names_of_makeDirectories (hp : p ≠ "")
    (h : (FileSystem.makeDirectories (m := StateM FileTree) p).run t = (.ok (), t')) :
    t'.Names p := by
  have hthere : ∀ {t₁ : FileTree} {e : FileFault},
      ((if (t₁.list p).toOption.isSome then .ok () else .error e, t₁) :
        Except FileFault Unit × FileTree) = (.ok (), t') → t'.Names p := by
    intro t₁ e heq
    split at heq
    · rename_i hlist
      cases heq
      exact isDirectory_iff.1 hlist
    · cases heq
  unfold FileSystem.makeDirectories at h
  rw [run_makeDirectoryChain t hp] at h
  split at h
  · rename_i t₁ hmake
    cases h
    exact names_of_makeDirectory hmake
  · split at h
    · cases h
    · split at h
      · rename_i t₂ hmake
        cases h
        exact names_of_makeDirectory hmake
      · exact hthere h
  · exact hthere h

theorem makeDirectories_of_names (hp : p ≠ "") (h : t.Names p) :
    (FileSystem.makeDirectories (m := StateM FileTree) p).run t = (.ok (), t) := by
  unfold FileSystem.makeDirectories
  rw [run_makeDirectoryChain t hp, makeDirectory_of_names h, isDirectory_iff.2 h]
  rfl

end Swatchbook.FileTree

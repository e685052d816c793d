import Swatchbook.Proofs.Files.Entries
import Swatchbook.Proofs.Files.Execution
import Swatchbook.Proofs.ThemeFolder.Listing

/-! The themes of a folder are those of its theme files. Nothing else in the folder, and
nothing in the order in which it is listed, has a part in them. -/
namespace Swatchbook.ThemeFolder

open FileTree

variable {t t' : FileTree} {dir : String} {names : List String} {themes : List Theme}

/-- A theme file of a folder: it is listed under such a name, and it can be read. -/
structure Holds (t : FileTree) (dir name : String) (contents : List UInt8) : Prop where
  listed : ∃ names, t.list dir = .ok names ∧ name ∈ names
  named : isThemeFileName name = true
  read_eq : t.read (Path.join dir name) = .ok contents

theorem holds_iff {name : String} {contents : List UInt8} (hdir : t.Names dir) :
    Holds t dir name contents ↔
      IsPlain name ∧ isThemeFileName name = true ∧ refusal? (Path.join dir name) = none ∧
        isLongName name = false ∧ t.look (t.place dir ++ [name]) = some (.file contents) := by
  constructor
  · rintro ⟨⟨names, hlist, hmem⟩, hnamed, hread⟩
    have hname := isPlain_of_look ((mem_list_iff hlist name).1 hmem)
    exact ⟨hname, hnamed, (read_join_eq_ok hdir hname).1 hread⟩
  · rintro ⟨hname, hnamed, hread⟩
    obtain ⟨names, hlist⟩ := list_of_names hdir
    have hmem : name ∈ names := by
      rw [mem_list_iff hlist, hread.2.2]
      exact nofun
    exact ⟨⟨names, hlist, hmem⟩, hnamed, (read_join_eq_ok hdir hname).2 hread⟩

theorem hasThemeFile_iff (hlist : t.list dir = .ok names) (name : String) :
    (Listing.ofTree t dir names).HasThemeFile name ↔ ∃ contents, Holds t dir name contents := by
  rw [Listing.HasThemeFile, ← isThemeFileName_iff]
  constructor
  · rintro ⟨hmem, hfile, hnamed⟩
    cases hread : t.read (Path.join dir name) with
    | error e => simp [Listing.ofTree, hread, Except.toOption] at hfile
    | ok contents => exact ⟨contents, ⟨names, hlist, hmem⟩, hnamed, hread⟩
  · rintro ⟨contents, ⟨names', hlist', hmem⟩, hnamed, hread⟩
    rw [hlist] at hlist'
    cases hlist'
    exact ⟨hmem, by simp [Listing.ofTree, hread, Except.toOption], hnamed⟩

theorem exec_read_congr (hdir : t.Names dir) (hdir' : t'.Names dir)
    (h : ∀ name contents, Holds t' dir name contents ↔ Holds t dir name contents) :
    (t'.exec (read dir)).1 = (t.exec (read dir)).1 := by
  obtain ⟨names, hlist⟩ := list_of_names hdir
  obtain ⟨names', hlist'⟩ := list_of_names hdir'
  have hsame : (Listing.ofTree t dir names).SameFiles (.ofTree t' dir names') := by
    constructor
    · intro name
      rw [hasThemeFile_iff hlist, hasThemeFile_iff hlist']
      exact exists_congr fun contents => (h name contents).symm
    · intro name hname
      obtain ⟨contents, hholds⟩ := (hasThemeFile_iff hlist name).1 hname
      exact hholds.read_eq.trans ((h name contents).2 hholds).read_eq.symm
  unfold exec
  rw [run_read_congr (answers_of_list hlist) (answers_of_list hlist') hsame]

theorem names_of_read (h : (t.exec (read dir)).1 = .ok themes) : t.Names dir := by
  cases hlist : t.list dir with
  | error e =>
      have hfails := run_read_of_unlistable (s := t) (congrArg (Prod.mk · t) hlist)
      unfold exec at h
      rw [hfails] at h
      cases h
  | ok names => exact names_of_list (by rw [hlist]; rfl)

theorem holds_of_read (h : (t.exec (read dir)).1 = .ok themes) (hne : themes ≠ []) :
    ∃ name contents, Holds t dir name contents := by
  obtain ⟨names, hlist⟩ := list_of_names (names_of_read h)
  obtain ⟨files, hfiles, hrun⟩ := run_read (answers_of_list hlist)
  have hsome : files ≠ [] := by
    rintro rfl
    unfold exec at h
    rw [hrun] at h
    cases h
    exact hne rfl
  obtain ⟨name, hname⟩ := List.exists_mem_of_ne_nil _ hsome
  exact ⟨name, (hasThemeFile_iff hlist name).1 ((hfiles.mem_iff name).1 hname)⟩

end Swatchbook.ThemeFolder

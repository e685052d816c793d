import Swatchbook.Proofs.ThemeFolder.Listing

/-! The order of a folder. Whatever the order in which a system lists the entries, the theme
files are taken by their names, up to the first that fails, and no other entry has a part
in what comes out. -/
namespace Swatchbook.ThemeFolder

variable {σ : Type}

/-- The themes of a folder are those of its theme files in the order of their names, or the
failure of the first of them that fails. Every system with the same theme files gives the
same answer, in whatever order it lists them and whatever else is in the folder. -/
theorem read_in_name_order [FileSystem (StateM σ)] {s : σ} {dir : String} {l : Listing}
    (h : Answers s dir l) : ∃ files answer, Enumerates files l.HasThemeFile ∧
      (read (m := StateM σ) dir).run.run s = (answer, s) ∧
      (∀ themes, answer = .ok themes ↔ ∃ rows,
        List.Forall₂ (fun name row => l.themesOf dir name = .ok row) files rows ∧
          rows.flatten = themes) ∧
      (∀ e, answer = .error e ↔ ∃ before name after, files = before ++ name :: after ∧
        (∀ other ∈ before, ∃ row, l.themesOf dir other = .ok row) ∧
          l.themesOf dir name = .error e) ∧
      ∀ {σ' : Type} [FileSystem (StateM σ')] (s' : σ') (l' : Listing), Answers s' dir l' →
        l.SameFiles l' → (read (m := StateM σ') dir).run.run s' = (answer, s') := by
  obtain ⟨files, hfiles, hrun⟩ := run_read h
  refine ⟨files, _, hfiles, hrun, fun themes => ?_, fun e => ?_, fun s' l' h' hsame => ?_⟩
  · rw [map_eq_ok_iff]
    exact exists_congr fun rows => and_congr_left fun _ => mapM_eq_ok_iff
  · rw [← mapM_eq_error_iff]
    cases files.mapM (l.themesOf dir) <;> simp [Except.map]
  · rw [run_read_congr h h' hsame, hrun]

def plainTheme (name : String) : List UInt8 :=
  ("\x7b\"name\":\"" ++ name ++ "\",\"colors\":\x7b\"ink\":\"#000\"\x7d\x7d").toUTF8.toList

def folderOf (entries : List (String × Node))
    (h : (Node.directory [("in", .directory entries)]).isWellFormed = true := by decide) :
    FileTree where
  root := .directory [("in", .directory entries)]
  here := []
  wellFormed := h

def mixedEntries : List (String × Node) :=
  [("b.json", .file (plainTheme "B")), (".json", .file (plainTheme "Hidden")),
    ("notes.txt", .file []), ("sub.json", .directory []), ("A.JSON", .file (plainTheme "A"))]

theorem mixedEntries_read_alike :
    ∃ answer, (read (m := StateM FileTree) "in").run.run (folderOf mixedEntries) =
        (answer, folderOf mixedEntries) ∧
      answer.toOption.map (List.map Theme.source) = some [some "A.JSON", some "b.json"] ∧
      (read (m := StateM FileTree) "in").run.run (folderOf mixedEntries.reverse) =
        (answer, folderOf mixedEntries.reverse) := by
  have hlist : (folderOf mixedEntries).list "in" = .ok (mixedEntries.map Prod.fst) := by
    decide +kernel
  have hlist' : (folderOf mixedEntries.reverse).list "in" =
      .ok (mixedEntries.reverse.map Prod.fst) := by
    decide +kernel
  have hread : ∀ name ∈ mixedEntries.map Prod.fst,
      (folderOf mixedEntries).read (Path.join "in" name) =
        (folderOf mixedEntries.reverse).read (Path.join "in" name) := by
    decide +kernel
  have hthemes : ((read (m := StateM FileTree) "in").run.run (folderOf mixedEntries)).1.toOption.map
      (List.map Theme.source) = some [some "A.JSON", some "b.json"] := by
    decide +kernel
  obtain ⟨files, answer, -, hrun, -, -, hsame⟩ := read_in_name_order (answers_of_list hlist)
  rw [hrun] at hthemes
  refine ⟨answer, hrun, hthemes, hsame _ _ (answers_of_list hlist') ⟨fun name => ?_, fun name h => ?_⟩⟩
  · simp only [Listing.HasThemeFile, Listing.ofTree, List.map_reverse, List.mem_reverse]
    refine and_congr_right fun hname => ?_
    rw [hread name hname]
  · exact hread name h.1

end Swatchbook.ThemeFolder

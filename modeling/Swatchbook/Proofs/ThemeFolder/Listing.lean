import Swatchbook.Files.Tree
import Swatchbook.Proofs.Alike
import Swatchbook.Proofs.Offenders
import Swatchbook.ThemeFolder

/-! Reading a folder, seen through the answers a system gives about it. What is read is
settled by the theme files among the entries, taken in the order of their names. -/
namespace Swatchbook.ThemeFolder

/-- The extension of a name is `json` in letters of any case, and something stands before
it. -/
def HasJsonExtension (name : String) : Prop :=
  ∃ stem ext : String, name = stem ++ "." ++ ext ∧ stem ≠ "" ∧ sameIgnoringCase ext "json" = true

theorem dot_not_mem_of_json {ext : String} (h : sameIgnoringCase ext "json" = true) :
    '.' ∉ ext.toList := by
  intro hdot
  have hmem : '.'.toLower ∈ ext.toList.map Char.toLower := List.mem_map_of_mem hdot
  rw [eq_of_beq h] at hmem
  revert hmem
  decide

theorem isThemeFileName_iff {name : String} :
    isThemeFileName name = true ↔ HasJsonExtension name := by
  constructor
  · intro h
    unfold isThemeFileName Path.extension? at h
    cases hcut : Text.cut? '.' name.toList.reverse with
    | none => simp [hcut] at h
    | some cut =>
        obtain ⟨after, before⟩ := cut
        by_cases hbefore : before = []
        · simp [hcut, hbefore] at h
        · simp only [hcut, if_neg hbefore] at h
          have hname : name.toList = before.reverse ++ '.' :: after.reverse := by
            rw [← List.reverse_reverse name.toList, (Text.cut?_eq_some_iff.1 hcut).1]
            simp
          refine ⟨String.ofList before.reverse, String.ofList after.reverse, ?_, ?_, h⟩
          · rw [← String.toList_inj, hname]
            simp
          · rw [Ne, ← String.toList_inj]
            simpa using hbefore
  · rintro ⟨stem, ext, rfl, hstem, hext⟩
    have hdot : '.' ∉ ext.toList.reverse := by simpa using dot_not_mem_of_json hext
    have hcut : Text.cut? '.' (stem ++ "." ++ ext).toList.reverse =
        some (ext.toList.reverse, stem.toList.reverse) := by
      simpa using Text.cut?_append hdot stem.toList.reverse
    have hbefore : stem.toList.reverse ≠ [] := by
      intro hnil
      exact hstem (String.toList_inj.1 (List.reverse_eq_nil_iff.1 hnil))
    unfold isThemeFileName Path.extension?
    simp only [hcut, if_neg hbefore, List.reverse_reverse, String.ofList_toList]
    exact hext

/-- What a system says of a folder: the names in it, in some order, which of them are
files, and what those hold. -/
structure Listing where
  names : List String
  isFile : String → Bool
  contents : String → Except FileFault (List UInt8)

namespace Listing

def HasThemeFile (l : Listing) (name : String) : Prop :=
  name ∈ l.names ∧ l.isFile name = true ∧ HasJsonExtension name

def themesOf (l : Listing) (dir name : String) : Except FolderError (List Theme) :=
  match l.contents name with
  | .error e => .error (.unreadable (Path.join dir name) e)
  | .ok contents => (ThemeFile.themes name contents).outcome.mapError .file

def ofTree (t : FileTree) (dir : String) (names : List String) : Listing where
  names := names
  isFile name := (t.read (Path.join dir name)).toOption.isSome
  contents name := t.read (Path.join dir name)

/-- The same theme files with the same contents, among whatever other entries. -/
def SameFiles (l l' : Listing) : Prop :=
  (∀ name, l.HasThemeFile name ↔ l'.HasThemeFile name) ∧
    ∀ name, l.HasThemeFile name → l.contents name = l'.contents name

end Listing

variable {σ : Type}

/-- In state `s` a system says this of a folder, and being asked it stays as it is. -/
structure Answers [FileSystem (StateM σ)] (s : σ) (dir : String) (l : Listing) : Prop where
  list_eq : (FileSystem.list (m := StateM σ) dir).run s = (.ok l.names, s)
  isFile_eq : ∀ name ∈ l.names,
    (FileSystem.isFile (m := StateM σ) (Path.join dir name)).run s = (l.isFile name, s)
  read_eq : ∀ name ∈ l.names,
    (FileSystem.read (m := StateM σ) (Path.join dir name)).run s = (l.contents name, s)

theorem answers_of_list {t : FileTree} {dir : String} {names : List String}
    (h : t.list dir = .ok names) : Answers t dir (.ofTree t dir names) where
  list_eq := congrArg (Prod.mk · t) h
  isFile_eq _ _ := rfl
  read_eq _ _ := rfl

/-! ### Asking a system -/

theorem run_state_bind {α β : Type} (x : StateM σ α) (f : α → StateM σ β) (s : σ) :
    (x >>= f).run s = (f (x.run s).1).run (x.run s).2 :=
  rfl

theorem run_lift_bind {ε α β : Type} (x : StateM σ α) (f : α → ExceptT ε (StateM σ) β) (s : σ) :
    (liftM x >>= f).run.run s = (f (x.run s).1).run.run (x.run s).2 :=
  rfl

section Answers

variable [FileSystem (StateM σ)] {s : σ} {dir : String} {l : Listing} {names : List String}

theorem run_themeFiles_filter
    (h : ∀ name ∈ names,
      (FileSystem.isFile (m := StateM σ) (Path.join dir name)).run s = (l.isFile name, s)) :
    (themeFiles (m := StateM σ) dir names).run s =
      (names.filter fun name => isThemeFileName name && l.isFile name, s) := by
  induction names with
  | nil => rfl
  | cons name rest ih =>
      rw [List.forall_mem_cons] at h
      rw [themeFiles, run_state_bind, ih h.2, List.filter_cons]
      simp only [run_state_bind, h.1]
      cases isThemeFileName name && l.isFile name <;> rfl

theorem run_readFiles
    (h : ∀ name ∈ names,
      (FileSystem.read (m := StateM σ) (Path.join dir name)).run s = (l.contents name, s)) :
    (readFiles (m := StateM σ) dir names).run.run s =
      ((names.mapM (l.themesOf dir)).map List.flatten, s) := by
  induction names with
  | nil => rfl
  | cons name rest ih =>
      rw [List.forall_mem_cons] at h
      rw [readFiles, run_lift_bind, h.1, List.mapM_cons, Listing.themesOf]
      cases l.contents name with
      | error e => rfl
      | ok contents =>
          dsimp only
          cases (ThemeFile.themes name contents).outcome with
          | error e => rfl
          | ok themes =>
              dsimp only [Except.mapError]
              rw [ExceptT.run_bind, run_state_bind, ih h.2]
              cases rest.mapM (l.themesOf dir) <;> rfl

theorem run_read (h : Answers s dir l) : ∃ files, Enumerates files l.HasThemeFile ∧
    (read (m := StateM σ) dir).run.run s = ((files.mapM (l.themesOf dir)).map List.flatten, s) := by
  let files := sortedDistinct (l.names.filter fun name => isThemeFileName name && l.isFile name)
  have hmem : ∀ name, name ∈ files ↔ l.HasThemeFile name := by
    intro name
    rw [mem_sortedDistinct, List.mem_filter, Bool.and_eq_true, isThemeFileName_iff,
      Listing.HasThemeFile, and_comm (a := HasJsonExtension name)]
  have hread : (read (m := StateM σ) dir).run.run s = (readFiles (m := StateM σ) dir files).run.run s := by
    rw [read, run_lift_bind, h.list_eq]
    dsimp only
    rw [run_lift_bind, run_themeFiles_filter h.isFile_eq]
  refine ⟨files, ⟨pairwise_sortedDistinct _, hmem⟩, ?_⟩
  rw [hread, run_readFiles fun name hname => h.read_eq name ((hmem name).1 hname).1]

theorem run_read_congr {σ' : Type} [FileSystem (StateM σ')] {s' : σ'} {l' : Listing}
    (h : Answers s dir l) (h' : Answers s' dir l') (hsame : l.SameFiles l') :
    (read (m := StateM σ') dir).run.run s' = (((read (m := StateM σ) dir).run.run s).1, s') := by
  obtain ⟨files, hfiles, hrun⟩ := run_read h
  obtain ⟨files', hfiles', hrun'⟩ := run_read h'
  obtain rfl : files' = files :=
    hfiles'.eq ⟨hfiles.increasing, fun name => (hfiles.mem_iff name).trans (hsame.1 name)⟩
  have hthemes : ∀ name ∈ files', l'.themesOf dir name = l.themesOf dir name := by
    intro name hname
    unfold Listing.themesOf
    rw [hsame.2 name ((hfiles.mem_iff name).1 hname)]
  rw [hrun, hrun', mapM_congr hthemes]

theorem run_read_of_unlistable {fault : FileFault}
    (h : (FileSystem.list (m := StateM σ) dir).run s = (.error fault, s)) :
    (read (m := StateM σ) dir).run.run s = (.error (.unlistable dir fault), s) := by
  rw [read, run_lift_bind, h]
  rfl

end Answers

end Swatchbook.ThemeFolder

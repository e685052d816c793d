import Swatchbook.Proofs.Generation.Again
import Swatchbook.Proofs.ThemeFolder

/-! A run and the same run after it. The second finds the same themes, and then leaves the
tree as it is, unless the themes or the way to them lie in what the first has replaced. -/
namespace Swatchbook.Generation

open FileTree ThemeFolder

variable {t t' : FileTree} {settings : Settings} {report : RunReport} {input staging name : String}
  {files : List Source.SourceFile} {contents : List UInt8}

theorem exec_check_fst (t : FileTree) (input : String) :
    (t.exec (check input)).1 =
      match (t.exec (ThemeFolder.read input)).1 with
      | .error e => .error (.folder e)
      | .ok themes =>
        match validate themes with
        | .error e => .error (.validation e)
        | .ok _ => .ok ⟨themes⟩ := by
  unfold check
  rw [exec_bind, exec_adapt]
  cases t.exec (ThemeFolder.read input) with
  | mk r t₁ =>
      cases r with
      | error e => rfl
      | ok themes =>
          dsimp only [Except.mapError]
          cases validate themes <;> rfl

theorem holds_of_check {themes : ThemeSet} (h : (t.exec (check input)).1 = .ok themes) :
    t.Names input ∧ ∃ name contents, Holds t input name contents := by
  rw [exec_check_fst] at h
  cases hread : (t.exec (ThemeFolder.read input)).1 with
  | error e =>
      rw [hread] at h
      cases h
  | ok themes =>
      have hne : themes ≠ [] := by
        rintro rfl
        rw [hread] at h
        cases h
      exact ⟨names_of_read hread, holds_of_read hread hne⟩

/-- The folder of the themes is at or below what a run replaces. -/
def Swallows (settings : Settings) (t : FileTree) : Prop :=
  Replaced settings t (t.place settings.input)

/-- The way to the themes comes through what a run replaces, and not only through the
output itself, which is there again afterwards. -/
def Crosses (settings : Settings) (t : FileTree) : Prop :=
  ∃ q, t.Passes settings.input q ∧ Replaced settings t q ∧ q ≠ t.place settings.output

theorem isThemeFileName_stagingName (name : String) :
    isThemeFileName (stagingName name) = false := by
  have hreverse : (stagingName name).toList.reverse =
      "gnigats".toList ++ '.' :: (name.toList.reverse ++ ['.']) := by
    unfold stagingName
    simp
  have hextension : Path.extension? (stagingName name) = some "staging" := by
    unfold Path.extension?
    rw [hreverse, Text.cut?_append (by decide)]
    simp
  unfold isThemeFileName
  rw [hextension]
  decide

theorem not_themeFile_of_listing {below : List String}
    (hfiles : files.map Source.SourceFile.name = ["theme_colors.rs", "theme_registry.rs"])
    (h : listing files (below ++ [name]) ≠ none) : isThemeFileName name = false := by
  match below with
  | [] =>
      rw [List.nil_append, listing] at h
      cases hfind : files.find? (·.name = name) with
      | none => exact absurd (by rw [hfind]; rfl) h
      | some f =>
          have hmem := List.mem_map_of_mem (f := Source.SourceFile.name)
            (List.mem_of_find?_eq_some hfind)
          rw [show f.name = name by simpa using List.find?_some hfind, hfiles] at hmem
          simp only [List.mem_cons, List.not_mem_nil, or_false] at hmem
          rcases hmem with rfl | rfl
          · decide
          · decide
  | [_] => exact absurd rfl h
  | _ :: _ :: _ => exact absurd rfl h

namespace Replaces

theorem look_directory (h : Replaces settings files t t') {q : List String}
    (hq : Replaced settings t q → q = t.place settings.output)
    (hlook : t.look q = some .directory) : t'.look q = some .directory := by
  by_cases hreplaced : Replaced settings t q
  · have hplace := h.look_output []
    rw [List.append_nil] at hplace
    rw [hq hreplaced, hplace]
    rfl
  · rcases h.look_off q hreplaced with hsame | ⟨-, -, hdirectory⟩
    · rw [hsame, hlook]
    · exact hdirectory

theorem names_input (h : Replaces settings files t t') (hdir : t.Names settings.input)
    (hapart : ¬Swallows settings t) (hway : ¬Crosses settings t) : t'.Names settings.input := by
  refine ⟨hdir.accepted, ?_⟩
  rw [start_eq h.here_eq]
  apply hdir.enters.congr
  intro path hpath
  have hlook := hdir.enters.look_of_prefix hpath
  rw [hlook]
  apply h.look_directory _ hlook
  intro hreplaced
  obtain ⟨below, hbelow⟩ := hpath
  by_cases hend : below = []
  · rw [hend, List.append_nil] at hbelow
    rw [hbelow] at hreplaced
    exact absurd hreplaced hapart
  · exact Decidable.byContradiction fun hne =>
      hway ⟨_, ⟨path, below, hend, hbelow.symm, rfl⟩, hreplaced, hne⟩

theorem eq_place_of_replaced (hapart : ¬Swallows settings t)
    (h : Replaced settings t (t.place settings.input ++ [name])) :
    t.place settings.output = t.place settings.input ++ [name] ∨
      ∃ staging, stagingPath settings.output = .ok staging ∧
        t.place staging = t.place settings.input ++ [name] := by
  rw [Swallows, Replaced, not_or] at hapart
  rcases h with hbelow | ⟨staging, hstaging, hbelow⟩
  · exact Or.inl ((List.prefix_concat_iff.1 hbelow).resolve_right hapart.1)
  · refine Or.inr ⟨staging, hstaging, (List.prefix_concat_iff.1 hbelow).resolve_right ?_⟩
    exact fun habove => hapart.2 ⟨staging, hstaging, habove⟩

theorem look_file_iff (h : Replaces settings files t t') (hapart : ¬Swallows settings t)
    (hname : isThemeFileName name = true) (contents : List UInt8) :
    t'.look (t.place settings.input ++ [name]) = some (.file contents) ↔
      t.look (t.place settings.input ++ [name]) = some (.file contents) := by
  by_cases hreplaced : Replaced settings t (t.place settings.input ++ [name])
  · rcases eq_place_of_replaced hapart hreplaced with heq | ⟨staging, hstaging, heq⟩
    · have hplace := h.look_output []
      rw [List.append_nil] at hplace
      rw [← heq, hplace]
      exact ⟨nofun, fun hfile => absurd hfile (h.look_old contents)⟩
    · obtain ⟨above, last, hbeside⟩ := stagingPath_beside hstaging
      rw [hbeside.place_staging] at heq
      obtain ⟨-, hlast⟩ := List.append_inj' heq rfl
      cases hlast
      rw [isThemeFileName_stagingName] at hname
      cases hname
  · rcases h.look_off _ hreplaced with hsame | ⟨-, hnone, hdirectory⟩
    · rw [hsame]
    · rw [hnone, hdirectory]
      exact ⟨nofun, nofun⟩

theorem holds_input_iff (h : Replaces settings files t t') (hapart : ¬Swallows settings t)
    (hdir : t.Names settings.input) (hdir' : t'.Names settings.input) (name : String)
    (contents : List UInt8) :
    Holds t' settings.input name contents ↔ Holds t settings.input name contents := by
  rw [holds_iff hdir, holds_iff hdir', place_eq h.here_eq]
  apply and_congr_right
  intro _
  apply and_congr_right
  intro hname
  rw [h.look_file_iff hapart hname]

/-- The theme files are as they were just when their folder is not in what is replaced. -/
theorem keeps_files_iff (h : Replaces settings files t t')
    (hfiles : files.map Source.SourceFile.name = ["theme_colors.rs", "theme_registry.rs"])
    (hdir : t.Names settings.input)
    (hholds : ∃ name contents, Holds t settings.input name contents) :
    (∀ name contents, Holds t settings.input name contents →
      t'.look (t.place settings.input ++ [name]) = some (.file contents)) ↔
      ¬Swallows settings t := by
  constructor
  · obtain ⟨name, contents, hholds⟩ := hholds
    intro hkeeps hswallows
    have hlook := hkeeps name contents hholds
    rcases hswallows with ⟨below, hbelow⟩ | ⟨staging, hstaging, hbelow⟩
    · rw [← hbelow, List.append_assoc, h.look_output] at hlook
      have hnamed := not_themeFile_of_listing hfiles (by rw [hlook]; exact nofun)
      rw [hholds.named] at hnamed
      cases hnamed
    · rw [h.look_below_staging ⟨staging, hstaging, hbelow.trans (List.prefix_append _ _)⟩] at hlook
      cases hlook
  · intro hapart name contents hholds
    have hfile := ((holds_iff hdir).1 hholds).2.2.2.2
    exact (h.look_file_iff hapart hholds.named contents).2 hfile

/-- A run that finds themes where another run has been finds them apart from its result. -/
theorem apart_of_holds (h : Replaces settings files t t')
    (hfiles : files.map Source.SourceFile.name = ["theme_colors.rs", "theme_registry.rs"])
    (hdir : t'.Names settings.input)
    (hholds : ∃ name contents, Holds t' settings.input name contents) :
    ¬Swallows settings t ∧ ¬Crosses settings t := by
  have hplace : t'.look (t.place settings.input) = some .directory := by
    rw [← place_eq h.here_eq]
    exact hdir.enters.2
  constructor
  · rintro (⟨below, hbelow⟩ | hstaging)
    · obtain ⟨name, contents, ⟨names, hlist, hmem⟩, hnamed, -⟩ := hholds
      rw [mem_list_iff hlist, place_eq h.here_eq, ← hbelow, List.append_assoc,
        h.look_output] at hmem
      rw [not_themeFile_of_listing hfiles hmem] at hnamed
      cases hnamed
    · rw [h.look_below_staging hstaging] at hplace
      cases hplace
  · rintro ⟨q, hpasses, hreplaced, hne⟩
    have hlook := hdir.look_of_passes ((passes_iff h.here_eq _ q).2 hpasses)
    rcases hreplaced with ⟨below, rfl⟩ | hstaging
    · rw [h.look_output] at hlook
      match below with
      | [] => exact hne (List.append_nil _)
      | [name] =>
          rw [listing, Option.map_eq_some_iff] at hlook
          obtain ⟨f, -, hfile⟩ := hlook
          cases hfile
      | _ :: _ :: _ => cases hlook
    · rw [h.look_below_staging hstaging] at hlook
      cases hlook

end Replaces

/-- After a run that succeeds the theme files are all there with their contents just when
their folder is not at or below what the run has replaced. The run can be repeated, with the
same report and without a change to the tree, just when moreover the way to the folder does
not come through it. With links the folder could be in what is replaced without its place
being there; trees have none, and hold names that are texts only. A working directory that
the new output has replaced counts as there again. -/
theorem run_repeats_iff (settings : Settings) (t : FileTree)
    (h : t.exec (run settings) = (.ok report, t')) :
    ((∀ name contents, Holds t settings.input name contents →
        t'.look (t.place settings.input ++ [name]) = some (.file contents)) ↔
      ¬Swallows settings t) ∧
    ((∃ t'', t'.exec (run settings) = (.ok report, t'') ∧ Agree t' t'') ↔
      ¬Swallows settings t ∧ ¬Crosses settings t) := by
  obtain ⟨s, t₁, hs, hstage, hswap, -⟩ := run_eq_ok.1 h
  obtain ⟨hstages, hswaps⟩ := run_steps hs hstage hswap
  obtain ⟨hstaging, hcheck, ns, -, hemit⟩ := decided_eq_ok hs
  have hreplaces := replaces_of_swaps hstaging hstages hswaps
  have hfiles := names_of_emit hemit
  obtain ⟨hdir, hholds⟩ := holds_of_check hcheck
  refine ⟨hreplaces.keeps_files_iff hfiles hdir hholds, ?_, ?_⟩
  · rintro ⟨t'', hagain, -⟩
    obtain ⟨s', -, hs', -⟩ := run_eq_ok.1 hagain
    obtain ⟨hdir', hholds'⟩ := holds_of_check (decided_eq_ok hs').2.1
    exact hreplaces.apart_of_holds hfiles hdir' hholds'
  · rintro ⟨hapart, hway⟩
    have hdir' := hreplaces.names_input hdir hapart hway
    have hsame := exec_read_congr hdir hdir' (hreplaces.holds_input_iff hapart hdir hdir')
    apply run_again h
    unfold decided
    rw [exec_check_fst, exec_check_fst, hsame]

def ownOutputTree : FileTree where
  root := .directory [
    ("gen", .directory [
      ("r.json", .file "\x7b\"name\":\"R\",\"colors\":\x7b\"p\":\"#4682B4\"\x7d\x7d".toUTF8.toList)])]
  here := []

def ownOutput : Settings where
  input := "gen"
  output := "gen"
  ns := "g"

/-- The run succeeds, the theme is gone, and the run cannot be repeated. -/
theorem ownOutput_consumes :
    ∃ report t', ownOutputTree.exec (run ownOutput) = (.ok report, t') ∧
      ¬(∀ name contents, Holds ownOutputTree ownOutput.input name contents →
        t'.look (ownOutputTree.place ownOutput.input ++ [name]) = some (.file contents)) ∧
      ¬∃ t'', t'.exec (run ownOutput) = (.ok report, t'') ∧ Agree t' t'' := by
  have hswallows : Swallows ownOutput ownOutputTree := Or.inl (List.prefix_refl _)
  have hok : (ownOutputTree.exec (run ownOutput)).1.isOk = true := by decide +kernel
  cases hrun : ownOutputTree.exec (run ownOutput) with
  | mk r t' =>
      rw [hrun] at hok
      cases r with
      | error e => cases hok
      | ok report =>
          obtain ⟨hkeeps, hagain⟩ := run_repeats_iff ownOutput ownOutputTree hrun
          exact ⟨report, t', rfl, fun h => hkeeps.1 h hswallows,
            fun h => (hagain.1 h).1 hswallows⟩

end Swatchbook.Generation

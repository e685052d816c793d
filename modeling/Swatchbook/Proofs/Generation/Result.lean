import Swatchbook.Proofs.Except
import Swatchbook.Proofs.Generation.Contents

/-! What a run that succeeds leaves: the output is a directory of the files just made,
nothing is left beside it, and everything else is as it was but for directories made on
the way to the output. -/
namespace Swatchbook.Generation

open FileTree

variable {settings : Settings} {t t' : FileTree} {report : RunReport}

def reportOf (settings : Settings) (s : Staged) : RunReport :=
  ⟨s.themes.themes.length, s.themes.roleNames.length,
    s.files.map fun f => Path.join settings.output f.name⟩

theorem run_eq_ok : t.exec (run settings) = (.ok report, t') ↔
    ∃ s t₁, decided settings t = .ok s ∧ t.exec (stage s.path s.files) = (.ok (), t₁) ∧
      t₁.exec (swap s.path settings.output) = (.ok (), t') ∧ report = reportOf settings s := by
  rw [exec_run, exec_prepare]
  cases decided settings t with
  | error e => simp
  | ok s =>
      cases hstage : t.exec (stage s.path s.files) with
      | mk r t₁ =>
          cases r with
          | error e => simp [hstage]
          | ok _ =>
              cases hswap : t₁.exec (swap s.path settings.output) with
              | mk r t₂ => cases r <;> simp [hstage, hswap, reportOf, eq_comm, and_comm]

theorem decided_eq_ok {s : Staged} (h : decided settings t = .ok s) :
    stagingPath settings.output = .ok s.path ∧
      (t.exec (check settings.input)).1 = .ok s.themes ∧
      ∃ ns, moduleOf settings.ns = .ok ns ∧ emit ns s.themes = .ok s.files := by
  unfold decided at h
  obtain ⟨ns, hns, h⟩ := bind_eq_ok_iff.1 h
  obtain ⟨staging, hstaging, h⟩ := bind_eq_ok_iff.1 h
  obtain ⟨themes, hthemes, h⟩ := bind_eq_ok_iff.1 h
  obtain ⟨files, hfiles, h⟩ := bind_eq_ok_iff.1 h
  cases h
  exact ⟨hstaging, hthemes, ns, hns, hfiles⟩

/-- The place is at or below the output or the directory beside it. -/
def Replaced (settings : Settings) (t : FileTree) (q : List String) : Prop :=
  t.place settings.output <+: q ∨
    ∃ staging, stagingPath settings.output = .ok staging ∧ t.place staging <+: q

/-- The files have replaced the output, which was no file, and directories on the way to it
may be new. -/
structure Replaces (settings : Settings) (files : List Source.SourceFile) (t t' : FileTree) :
    Prop where
  here_eq : t'.here = t.here
  names : t'.Names settings.output
  look_old : ∀ contents, t.look (t.place settings.output) ≠ some (.file contents)
  look_output : ∀ below, t'.look (t.place settings.output ++ below) = listing files below
  look_staging : ∀ staging, stagingPath settings.output = .ok staging →
    t'.look (t.place staging) = none
  look_off : ∀ q, ¬Replaced settings t q → t'.look q = t.look q ∨
    t.OnWay settings.output q ∧ t.look q = none ∧ t'.look q = some .directory

theorem replaces_of_swaps {staging : String} {files : List Source.SourceFile} {t₁ : FileTree}
    (hstaging : stagingPath settings.output = .ok staging) (hstages : Stages t t₁ staging files)
    (hswaps : Swaps t₁ t' staging settings.output) : Replaces settings files t t' := by
  obtain ⟨above, name, hbeside⟩ := stagingPath_beside hstaging
  have hlook := hswaps.look_eq
  have hold := hswaps.look_output
  rw [place_eq hstages.here_eq] at hlook hold
  rw [place_eq hstages.here_eq] at hlook
  refine ⟨hswaps.here_eq.trans hstages.here_eq, hswaps.names, fun contents hfile => ?_,
    fun below => ?_, ?_, fun q hq => ?_⟩
  · have hbelow := hbeside.not_work t []
    rw [List.append_nil] at hbelow
    rcases hstages.look_off _ hbelow with hsame | ⟨-, hnone, -⟩
    · exact hold contents (hsame.trans hfile)
    · rw [hfile] at hnone
      cases hnone
  · rw [hlook, if_pos (List.prefix_append _ _), List.drop_left, hstages.look_staging]
  · intro staging' hstaging'
    rw [hstaging] at hstaging'
    cases hstaging'
    rw [hlook, if_neg (hbeside.not_above t), if_pos (List.prefix_refl _)]
  · rw [Replaced, not_or] at hq
    rw [hlook, if_neg hq.1, if_neg fun hbelow => hq.2 ⟨staging, hstaging, hbelow⟩]
    rcases hstages.look_off q fun hbelow => hq.2 ⟨staging, hstaging, hbelow⟩ with
      hsame | ⟨honWay, hmade⟩
    · exact Or.inl hsame
    · exact Or.inr ⟨hbeside.onWay_output honWay, hmade⟩

/-- The two steps of a run that succeeds, and what each makes of the tree it meets. -/
theorem run_steps {s : Staged} {t₁ : FileTree} (hdecided : decided settings t = .ok s)
    (hstage : t.exec (stage s.path s.files) = (.ok (), t₁))
    (hswap : t₁.exec (swap s.path settings.output) = (.ok (), t')) :
    Stages t t₁ s.path s.files ∧ Swaps t₁ t' s.path settings.output := by
  obtain ⟨hstaging, -, ns, -, hemit⟩ := decided_eq_ok hdecided
  obtain ⟨above, name, hbeside⟩ := stagingPath_beside hstaging
  have hdistinct : (s.files.map Source.SourceFile.name).Nodup := by
    rw [names_of_emit hemit]
    decide
  have hstages := stage_stages (isPlain_of_emit hemit) hdistinct hstage
  have hdirect : ¬t₁.Detours s.path := by
    rw [detours_iff hstages.here_eq]
    exact hstages.direct
  exact ⟨hstages, swap_swaps hbeside hdirect (names_of_stage hstage) hswap⟩

/-- A run that succeeds has made the two files of the themes it found, and they are all
there is at and below the output; nothing is left beside it. Elsewhere the tree is as it
was, except that directories on the way to the output are new where nothing was. This is
said of trees without links, whose names are texts. -/
theorem successful_run_replaces_output (settings : Settings) (t : FileTree)
    (h : t.exec (run settings) = (.ok report, t')) :
    ∃ ns themes files, moduleOf settings.ns = .ok ns ∧
      (t.exec (check settings.input)).1 = .ok themes ∧ emit ns themes = .ok files ∧
      files.map Source.SourceFile.name = ["theme_colors.rs", "theme_registry.rs"] ∧
      Replaces settings files t t' ∧
      report = ⟨themes.themes.length, themes.roleNames.length,
        ["theme_colors.rs", "theme_registry.rs"].map (Path.join settings.output)⟩ := by
  obtain ⟨s, t₁, hdecided, hstage, hswap, hreport⟩ := run_eq_ok.1 h
  obtain ⟨hstages, hswaps⟩ := run_steps hdecided hstage hswap
  obtain ⟨hstaging, hthemes, ns, hns, hemit⟩ := decided_eq_ok hdecided
  have hnames := names_of_emit hemit
  refine ⟨ns, s.themes, s.files, hns, hthemes, hemit, hnames,
    replaces_of_swaps hstaging hstages hswaps, ?_⟩
  rw [hreport, reportOf, ← hnames, List.map_map]
  rfl

def staleTree : FileTree where
  root := .directory [
    ("in", .directory [
      ("r.json", .file "\x7b\"name\":\"R\",\"colors\":\x7b\"p\":\"#4682B4\"\x7d\x7d".toUTF8.toList)]),
    ("gen", .directory [("f", .file []), ("old", .directory [("g", .file [])])]),
    (".gen.staging", .directory [("f", .file [])])]
  here := []

theorem staleTree_replaced :
    ∃ files report t', staleTree.exec (run besideInput) = (.ok report, t') ∧
      Replaces besideInput files staleTree t' := by
  have hok : (staleTree.exec (run besideInput)).1.isOk = true := by decide +kernel
  cases hrun : staleTree.exec (run besideInput) with
  | mk r t' =>
      rw [hrun] at hok
      cases r with
      | error e => cases hok
      | ok report =>
          obtain ⟨ns, themes, files, -, -, -, -, hreplaces, -⟩ :=
            successful_run_replaces_output besideInput staleTree hrun
          exact ⟨files, report, t', rfl, hreplaces⟩

end Swatchbook.Generation

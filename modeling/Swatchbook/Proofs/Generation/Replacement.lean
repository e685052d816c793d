import Swatchbook.Proofs.Generation.Output

/-! The replacement of the output, and what a failed run leaves of it. The old output
is removed before the new one is moved to its place. Of these two steps the second
can only fail where the path of the output leads through the output itself. -/
namespace Swatchbook

open FileTree

namespace FileTree

variable {t t' : FileTree} {p : String}

theorem detours_iff (h : t'.here = t.here) (p : String) : t'.Detours p ↔ t.Detours p := by
  unfold Detours
  rw [place_eq h, start_eq h]

theorem Ends.not_detours {above : List String} {name : String} (h : t'.Ends p above name)
    (hhere : t'.here = t.here) (hlook : t'.look (t.place p) ≠ some .directory) :
    ¬t.Detours p := by
  rintro ⟨path, rest, hrest, hsteps, below, hbelow⟩
  have hway : t'.look (t.place p ++ below) = some .directory := by
    apply h.look_of_passes
    rw [hbelow, ← start_eq hhere]
    exact ⟨path, rest, hrest, hsteps, rfl⟩
  by_cases hend : below = []
  · rw [hend, List.append_nil] at hway
    exact hlook hway
  · exact hlook (look_of_below (by simp [hway]) hend)

end FileTree

namespace Generation

variable {t t' : FileTree} {staging output : String}

theorem exec_clear (t : FileTree) (path : String) :
    t.exec (clear path) =
      if (t.locate path).toOption.isSome then
        match t.removeDirectory path with
        | (t', .ok _) => (.ok (), t')
        | (t', .error e) => (.error (.unwritable path e), t')
      else (.ok (), t) := by
  unfold clear
  rw [exec_bind, exec_lift]
  change t.exec (if (t.locate path).toOption.isSome then _ else _) = _
  split
  · rw [exec_writing]
    change (match ((t.removeDirectory path).2, (t.removeDirectory path).1) with
      | (.ok _, t') => ((.ok (), t') : Except RunError Unit × FileTree)
      | (.error e, t') => (.error (.unwritable path e), t')) = _
    cases t.removeDirectory path with
    | mk t' r => cases r <;> rfl
  · rfl

theorem exec_swap (t : FileTree) (staging output : String) :
    t.exec (swap staging output) =
      match t.exec (clear output) with
      | (.ok _, t') =>
        match t'.rename staging output with
        | .ok t'' => (.ok (), t'')
        | .error e => (.error (.unwritable output e), t')
      | (.error e, t') => (.error e, t') := by
  unfold swap
  rw [exec_bind]
  cases t.exec (clear output) with
  | mk r t' =>
      cases r with
      | error e => rfl
      | ok _ => exact exec_writing_apply t' output fun t => t.rename staging output

theorem swap_of_not_names {e : RunError} (hnames : ¬t.Names output)
    (h : t.exec (swap staging output) = (.error e, t')) : t' = t := by
  obtain ⟨fault, hremove⟩ := removeDirectory_of_not_names hnames
  rw [exec_swap, exec_clear, hremove] at h
  split at h
  · rename_i t₁ hclear
    split at hclear
    · cases hclear
    · cases hclear
      split at h
      · cases h
      · cases h
        rfl
  · rename_i e₁ t₁ hclear
    cases h
    split at hclear
    · cases hclear
      rfl
    · cases hclear

theorem exec_swap_of_names (hnames : t.Names output) :
    t.exec (swap staging output) =
      match t.removeDirectory output with
      | (t', .ok _) =>
        match t'.rename staging output with
        | .ok t'' => (.ok (), t'')
        | .error e => (.error (.unwritable output e), t')
      | (t', .error e) => (.error (.unwritable output e), t') := by
  rw [exec_swap, exec_clear, if_pos (isPresent_of_names hnames)]
  cases t.removeDirectory output with
  | mk t₁ r => cases r <;> rfl

theorem swap_of_names {e : RunError} (hnames : t.Names output)
    (h : t.exec (swap staging output) = (.error e, t')) : t.Empties t' output := by
  have hempties := (removeDirectory_empties hnames).1
  rw [exec_swap_of_names hnames] at h
  cases hremove : t.removeDirectory output with
  | mk t₁ r =>
      rw [hremove] at h hempties
      cases r with
      | error fault =>
          cases h
          exact hempties
      | ok _ =>
          simp only at h
          split at h
          · cases h
          · cases h
            exact hempties

theorem not_detours_of_swap (hnames : t.Names output)
    (h : t.exec (swap staging output) = (.ok (), t')) : ¬t.Detours output := by
  obtain ⟨hempties, hgone⟩ := removeDirectory_empties hnames
  rw [exec_swap_of_names hnames] at h
  cases hremove : t.removeDirectory output with
  | mk t₁ r =>
      rw [hremove] at h hempties hgone
      cases r with
      | error fault => cases h
      | ok _ =>
          simp only [forall_const] at h hgone
          split at h
          · rename_i t₂ hrename
            obtain ⟨above, name, hends⟩ := ends_of_rename hrename
            have hnone := hgone.resolve_right fun hnot => hnot above name hends
            exact hends.not_detours hempties.here_eq (by simp [hnone])
          · cases h

theorem swap_of_not_detours {above : List String} {name : String} (hnames : t.Names output)
    (hbeside : Beside output staging above name) (hdirect : ¬t.Detours output)
    (hstaged : t.Names staging) : ∃ t', t.exec (swap staging output) = (.ok (), t') := by
  obtain ⟨idle, hsteps, -⟩ := hbeside.steps_of_not_detours hdirect
  have hends := hnames.ends hsteps hbeside.isName_name
  have hendsBeside := hstaged.ends hbeside.steps_staging (isName_stagingName name)
  -- Emptying the output leaves the way to it and the way beside it open.
  have hway : ∀ t₁, t.Empties t₁ output → t₁.Ends output (above ++ idle) name := by
    intro t₁ hempties
    apply hends.congr hempties.here_eq
    exact fun q hq => hempties.look_off q (not_below_of_passes hdirect hq)
  have hwayBeside : ∀ t₁, t.Empties t₁ output → t₁.Ends staging above (stagingName name) := by
    intro t₁ hempties
    apply hendsBeside.congr hempties.here_eq
    exact fun q hq => hempties.look_off q (not_below_of_passes hdirect (hbeside.passes_output hq))
  obtain ⟨hok, hnone⟩ := removeDirectory_of_ends hnames
    (hway _ (emptied_empties hnames)) hbeside.isName_name
  have hempties := (removeDirectory_empties hnames).1
  rw [exec_swap_of_names hnames]
  cases hremove : t.removeDirectory output with
  | mk t₁ r =>
      rw [hremove] at hok hnone hempties
      simp only at hok hnone hempties
      subst hok
      obtain ⟨t₂, hrename⟩ := rename_directory (hwayBeside t₁ hempties) (isName_stagingName name)
        (hway t₁ hempties) hbeside.isName_name
        (by
          rw [place_eq hempties.here_eq, hempties.look_off _ (hbeside.not_above t)]
          exact hstaged.enters.2)
        (by rw [place_eq hempties.here_eq, hnone])
        (by
          rw [← List.append_nil (t₁.place output)]
          exact hbeside.not_work t₁ [])
      refine ⟨t₂, ?_⟩
      simp only [hrename]

theorem exec_run (settings : Settings) (t : FileTree) :
    t.exec (run settings) =
      match t.exec (prepare settings) with
      | (.error e, t') => (.error e, t')
      | (.ok s, t') =>
        match t'.exec (swap s.path settings.output) with
        | (.error e, t'') => (.error e, t'')
        | (.ok _, t'') => (.ok ⟨s.themes.themes.length, s.themes.roleNames.length,
            s.files.map fun f => Path.join settings.output f.name⟩, t'') := by
  unfold run
  rw [exec_bind]
  cases t.exec (prepare settings) with
  | mk r t' =>
      cases r with
      | error e => rfl
      | ok s =>
          simp only
          rw [exec_bind]
          cases t'.exec (swap s.path settings.output) with
          | mk r t'' => cases r <;> rfl

variable {settings : Settings}

/-- A run that is ready fails just where the path of the output leads through it. -/
theorem swap_fails_iff {s : Staged} (hprepare : t.exec (prepare settings) = (.ok s, t'))
    (hnames : t'.Names settings.output) :
    (∃ e t'', t'.exec (swap s.path settings.output) = (.error e, t'')) ↔
      t.Detours settings.output := by
  rw [← detours_iff (prepare_leaves hprepare).1]
  constructor
  · rintro ⟨e, t'', hfails⟩
    by_cases hdirect : t'.Detours settings.output
    · exact hdirect
    · obtain ⟨hstaging, hstaged⟩ := prepare_ok hprepare
      obtain ⟨above, name, hbeside⟩ := stagingPath_beside hstaging
      obtain ⟨t₁, hswap⟩ := swap_of_not_detours hnames hbeside hdirect hstaged
      rw [hswap] at hfails
      cases hfails
  · intro hdetours
    cases hswap : t'.exec (swap s.path settings.output) with
    | mk r t'' =>
        cases r with
        | error e => exact ⟨e, t'', rfl⟩
        | ok _ => exact absurd hdetours (not_detours_of_swap hnames hswap)

def fileAt (t : FileTree) (place : List String) : Option (List UInt8) :=
  match t.look place with
  | some (.file contents) => some contents
  | _ => none

/-- The run fails, and some file at or below the output is not what it was. -/
def Damages (settings : Settings) (t : FileTree) : Prop :=
  ∃ e t', t.exec (run settings) = (.error e, t') ∧
    ∃ below, fileAt t' (t.place settings.output ++ below) ≠
      fileAt t (t.place settings.output ++ below)

/-- The output is a directory that holds a file when the run is ready to replace it. -/
def Exposes (settings : Settings) (t : FileTree) : Prop :=
  (∃ s t', t.exec (prepare settings) = (.ok s, t') ∧ t'.Names settings.output) ∧
    ∃ below contents, fileAt t (t.place settings.output ++ below) = some contents

theorem prepare_fileAt {r : Except RunError Staged}
    (h : t.exec (prepare settings) = (r, t')) (below : List String) :
    fileAt t' (t.place settings.output ++ below) =
      fileAt t (t.place settings.output ++ below) := by
  unfold fileAt
  rcases (prepare_leaves h).2 below with hsame | ⟨-, hnone, hdirectory⟩
  · rw [hsame]
  · rw [hnone, hdirectory]

theorem prepare_look {r : Except RunError Staged} (h : t.exec (prepare settings) = (r, t'))
    (hdirect : ¬t.Detours settings.output) (below : List String) :
    t'.look (t.place settings.output ++ below) = t.look (t.place settings.output ++ below) :=
  ((prepare_leaves h).2 below).resolve_right fun hdetours => hdirect hdetours.1

theorem fileAt_of_empties {p : String} (h : t.Empties t' p) (below : List String) :
    fileAt t' (t.place p ++ below) = none := by
  unfold fileAt
  by_cases hbelow : below = []
  · rw [hbelow, List.append_nil]
    rcases h.look_place with hnone | hdirectory
    · rw [hnone]
    · rw [hdirectory]
  · rw [h.look_below below hbelow]

/-- The ways in which a run fails, and the trees it leaves. -/
theorem run_fails {e : RunError} (h : t.exec (run settings) = (.error e, t')) :
    (∃ e', t.exec (prepare settings) = (.error e', t')) ∨
      ∃ s t₁, t.exec (prepare settings) = (.ok s, t₁) ∧
        (¬t₁.Names settings.output ∧ t' = t₁ ∨
          t₁.Names settings.output ∧ t.Detours settings.output ∧
            t₁.Empties t' settings.output) := by
  rw [exec_run] at h
  cases hprepare : t.exec (prepare settings) with
  | mk r t₁ =>
      rw [hprepare] at h
      cases r with
      | error e' =>
          cases h
          exact Or.inl ⟨_, rfl⟩
      | ok s =>
          right
          refine ⟨s, t₁, rfl, ?_⟩
          simp only at h
          split at h
          · rename_i e₁ t₂ hswap
            cases h
            by_cases hnames : t₁.Names settings.output
            · have hdetours := (swap_fails_iff hprepare hnames).1 ⟨_, _, hswap⟩
              exact Or.inr ⟨hnames, hdetours, swap_of_names hnames hswap⟩
            · exact Or.inl ⟨hnames, swap_of_not_names hnames hswap⟩
          · cases h

theorem failed_run_look {e : RunError} (h : t.exec (run settings) = (.error e, t'))
    (hdirect : ¬t.Detours settings.output) (below : List String) :
    t'.look (t.place settings.output ++ below) = t.look (t.place settings.output ++ below) := by
  rcases run_fails h with ⟨e', hprepare⟩ | ⟨s, t₁, hprepare, ⟨-, rfl⟩ | ⟨-, hdetours, -⟩⟩
  · exact prepare_look hprepare hdirect below
  · exact prepare_look hprepare hdirect below
  · exact absurd hdetours hdirect

theorem damages_iff (settings : Settings) (t : FileTree) :
    Damages settings t ↔ t.Detours settings.output ∧ Exposes settings t := by
  constructor
  · rintro ⟨e, t', hfails, below, hchanged⟩
    rcases run_fails hfails with
      ⟨e', hprepare⟩ | ⟨s, t₁, hprepare, ⟨-, rfl⟩ | ⟨hnames, hdetours, hempties⟩⟩
    · exact absurd (prepare_fileAt hprepare below) hchanged
    · exact absurd (prepare_fileAt hprepare below) hchanged
    · refine ⟨hdetours, ⟨s, t₁, hprepare, hnames⟩, below, ?_⟩
      have hlost := fileAt_of_empties hempties below
      rw [place_eq (prepare_leaves hprepare).1] at hlost
      rw [hlost, ne_comm, Option.ne_none_iff_exists'] at hchanged
      exact hchanged
  · rintro ⟨hdetours, ⟨s, t₁, hprepare, hnames⟩, below, contents, hfile⟩
    obtain ⟨e, t', hswap⟩ := (swap_fails_iff hprepare hnames).2 hdetours
    refine ⟨e, t', ?_, below, ?_⟩
    · rw [exec_run, hprepare]
      simp only [hswap]
    · have hlost := fileAt_of_empties (swap_of_names hnames hswap) below
      rw [place_eq (prepare_leaves hprepare).1] at hlost
      rw [hlost, hfile]
      exact nofun

/-- A failed run leaves the output as it was, down to its directories, unless the path of
the output leads through the output itself. There a failed run has lost files exactly
when it came to the replacement of a directory with a file in it. As everywhere in these
trees there are no links and names are texts, and nothing can be reached from a working
directory that has been removed: where a system still goes up from there, the output is
replaced after all. -/
theorem failed_run_leaves_output (settings : Settings) (t : FileTree) :
    (∀ e t', t.exec (run settings) = (.error e, t') → ¬t.Detours settings.output →
      ∀ below, t'.look (t.place settings.output ++ below) =
        t.look (t.place settings.output ++ below)) ∧
    (Damages settings t ↔ t.Detours settings.output ∧ Exposes settings t) :=
  ⟨fun _ _ hfails hdirect below => failed_run_look hfails hdirect below,
    damages_iff settings t⟩

def smallTree : FileTree where
  root := .directory [
    ("in", .directory [
      ("r.json", .file "\x7b\"name\":\"R\",\"colors\":\x7b\"p\":\"#4682B4\"\x7d\x7d".toUTF8.toList)]),
    ("gen", .directory [("f", .file [])])]
  here := []

def roundabout : Settings where
  input := "in"
  output := "gen/../gen"
  ns := "g"

theorem roundabout_damages : Damages roundabout smallTree := by
  apply (failed_run_leaves_output roundabout smallTree).2.2
  constructor
  · exact ⟨["gen"], ["..", "gen"], by decide, by decide +kernel, by decide +kernel⟩
  · constructor
    · have hok : (smallTree.exec (prepare roundabout)).1.isOk = true := by decide +kernel
      have hnames : (smallTree.exec (prepare roundabout)).2.Names roundabout.output :=
        names_of_list (by decide +kernel)
      cases hprepare : smallTree.exec (prepare roundabout) with
      | mk r t' =>
          rw [hprepare] at hok hnames
          cases r with
          | error e => cases hok
          | ok s => exact ⟨s, t', rfl, hnames⟩
    · exact ⟨["f"], [], by decide +kernel⟩

end Generation

end Swatchbook

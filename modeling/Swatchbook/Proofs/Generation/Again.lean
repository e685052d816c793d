import Swatchbook.Proofs.Generation.Result

/-! The steps of a run that has succeeded, taken once more. What can stop them is in the
spelling of the paths, which is the same, and in what stands on their way, which the first
run has put in order. -/
namespace Swatchbook.Generation

open FileTree

variable {t t' t₁ : FileTree} {settings : Settings} {staging dir name : String}
  {above : List String} {files : List Source.SourceFile}

theorem clear_again (hlook : t.look (t.place staging) = none) :
    t.exec (clear staging) = (.ok (), t) := by
  rw [exec_clear, not_isPresent_of_look hlook]
  rfl

theorem openWay_again (h : t.exec (openWay staging) = (.ok (), t₁))
    (hlook : t₁.look (t₁.place staging) = none) (hsteps : steps staging = above ++ [name])
    (henters : t'.Enters (t'.start staging) above) : t'.exec (openWay staging) = (.ok (), t') := by
  unfold openWay at h ⊢
  cases hparent : Path.parent? staging with
  | none => rfl
  | some parent =>
      rw [hparent] at h
      dsimp only at h ⊢
      split at h
      · rename_i hempty
        rw [if_pos hempty]
        rfl
      · rename_i hempty
        have hne : parent ≠ "" := by simpa using hempty
        obtain ⟨habsolute, below, hbelow⟩ :=
          (Path.ancestor_steps (List.mem_of_mem_head? hparent)).resolve_left hne
        have hnames := names_of_makeDirectories hne (exec_writing_eq_ok.1 h)
        -- Were the parent the path itself there would be a directory at its place.
        have hend : below ≠ [] := by
          rintro rfl
          rw [List.append_nil] at hbelow
          have hthere := hnames.enters.2
          rw [start_congr habsolute, hbelow] at hthere
          exact absurd (hlook.symm.trans hthere) nofun
        have hthere : t'.Names parent := by
          refine ⟨hnames.accepted, ?_⟩
          obtain ⟨rest, hrest⟩ := prefix_of_append_eq (hsteps.symm.trans hbelow.symm) hend
          rw [start_congr habsolute]
          rw [← hrest] at henters
          exact henters.of_append
        rw [if_neg hempty]
        exact exec_writing_eq_ok.2 (makeDirectories_of_names hne hthere)

theorem writeFiles_again (hplain : ∀ f ∈ files, IsPlain f.name)
    (h : t.exec (writeFiles dir files) = (.ok (), t₁)) (hdir : t'.Names dir)
    (hfree : ∀ f ∈ files, t'.look (t'.place dir ++ [f.name]) ≠ some .directory) :
    ∃ t₂, t'.exec (writeFiles dir files) = (.ok (), t₂) := by
  induction files generalizing t t' with
  | nil => exact ⟨t', rfl⟩
  | cons f rest ih =>
      obtain ⟨t₂, hwrite, hrest⟩ := writeFiles_cons_ok h
      have hf := hplain f (List.mem_cons_self ..)
      obtain ⟨above, name, -, hends⟩ := (write_sets hwrite).ends
      have hshort : isLongName f.name = false := by
        have hsteps := (steps_join hf dir).symm.trans hends.steps_eq
        obtain ⟨-, heq⟩ := List.append_inj' hsteps rfl
        cases heq
        exact hends.short
      have hends' : t'.Ends (Path.join dir f.name) (steps dir) f.name := by
        refine ⟨hends.accepted, steps_join hf dir, ?_, hshort⟩
        rw [start_join hf]
        exact hdir.enters
      have hfree' := hfree f (List.mem_cons_self ..)
      rw [← place_join hf] at hfree'
      obtain ⟨t₃, hwrite'⟩ := write_of_ends hends' hf.2.2 (asksDirectory_join hf dir) hfree'
        f.contents.toUTF8.toList
      have hsets := write_sets hwrite'
      obtain ⟨t₄, hrest'⟩ := ih (fun g hg => hplain g (List.mem_cons_of_mem _ hg)) hrest
        (hsets.keeps.names hdir) (by
          intro g hg
          rw [place_eq hsets.here_eq, hsets.look_eq]
          split
          · exact nofun
          · exact hfree g (List.mem_cons_of_mem _ hg))
      refine ⟨t₄, ?_⟩
      have hwritten : t'.exec (writing (Path.join dir f.name)
          (FileSystem.write (Path.join dir f.name) f.contents.toUTF8.toList)) = (.ok (), t₃) :=
        exec_writing_apply_eq_ok.2 hwrite'
      rw [writeFiles, exec_bind_of_ok hwritten, hrest']

/-- Staging that has succeeded succeeds again where the way is open and the place free. -/
theorem stage_again (hplain : ∀ f ∈ files, IsPlain f.name)
    (h : t.exec (stage staging files) = (.ok (), t₁)) (hsteps : steps staging = above ++ [name])
    (hname : isName name = true)
    (henters : t'.Enters (t'.start staging) above) (hfree : t'.look (t'.place staging) = none) :
    ∃ t₂, t'.exec (stage staging files) = (.ok (), t₂) ∧ t'.Keeps t₂ := by
  obtain ⟨t₃, t₄, t₅, -, hopen, hmake, hwrite⟩ := stage_ok h
  obtain ⟨hsets, hfree₄⟩ := makeDirectory_sets hmake
  obtain ⟨above', name', hname', hends⟩ := hsets.ends
  have hends' : t'.Ends staging above name := by
    have hsame := hsteps.symm.trans hends.steps_eq
    obtain ⟨rfl, heq⟩ := List.append_inj' hsame rfl
    cases heq
    exact ⟨hends.accepted, hsteps, henters, hends.short⟩
  obtain ⟨t₆, hmake'⟩ := makeDirectory_of_ends hends' hname hfree
  have hsets' := (makeDirectory_sets hmake').1
  obtain ⟨t₇, hwrite'⟩ := writeFiles_again hplain hwrite (names_of_makeDirectory hmake') (by
    intro f _
    rw [place_eq hsets'.here_eq, hsets'.look_eq, if_neg (by simp), look,
      Node.look_append_of_none hfree]
    exact (Option.some_ne_none _).symm)
  refine ⟨t₇, ?_, hsets'.keeps.trans (writeFiles_keeps hwrite')⟩
  have hmade : t'.exec (writing staging (FileSystem.makeDirectory staging)) = (.ok (), t₆) :=
    exec_writing_apply_eq_ok.2 hmake'
  rw [stage_eq, exec_bind_of_ok (clear_again hfree),
    exec_bind_of_ok (openWay_again hopen hfree₄ hsteps henters), exec_bind_of_ok hmade, hwrite']

/-- At every place one finds the same. -/
structure Agree (t t' : FileTree) : Prop where
  here_eq : t'.here = t.here
  look_eq : ∀ q, t'.look q = t.look q

theorem Replaces.look_below_staging (h : Replaces settings files t t') {q : List String}
    (hq : ∃ staging, stagingPath settings.output = .ok staging ∧ t.place staging <+: q) :
    t'.look q = none := by
  obtain ⟨staging, hstaging, below, rfl⟩ := hq
  exact Node.look_append_of_none (h.look_staging staging hstaging) below

theorem Replaces.agree {t'' : FileTree} (h : Replaces settings files t t')
    (h' : Replaces settings files t' t'') : Agree t' t'' := by
  refine ⟨h'.here_eq, fun q => ?_⟩
  by_cases hq : Replaced settings t' q
  · rcases hq with ⟨below, rfl⟩ | hstaging
    · have hlook := h.look_output below
      rw [← place_eq h.here_eq] at hlook
      rw [h'.look_output, hlook]
    · rw [h'.look_below_staging hstaging, h.look_below_staging]
      obtain ⟨staging, hpath, hbelow⟩ := hstaging
      rw [place_eq h.here_eq] at hbelow
      exact ⟨staging, hpath, hbelow⟩
  · rcases h'.look_off q hq with hsame | ⟨honWay, hnone, -⟩
    · exact hsame
    · rw [h.names.look_of_passes honWay.passes] at hnone
      cases hnone

/-- A run that finds the same to do as the one before it succeeds as that has done, and
leaves the tree as it is. -/
theorem run_again {report : RunReport} (h : t.exec (run settings) = (.ok report, t'))
    (hdecided : decided settings t' = decided settings t) :
    ∃ t'', t'.exec (run settings) = (.ok report, t'') ∧ Agree t' t'' := by
  obtain ⟨s, t₁, hs, hstage, hswap, hreport⟩ := run_eq_ok.1 h
  obtain ⟨hstages, hswaps⟩ := run_steps hs hstage hswap
  obtain ⟨hstaging, -, ns, -, hemit⟩ := decided_eq_ok hs
  obtain ⟨above, name, hbeside⟩ := stagingPath_beside hstaging
  have hreplaces := replaces_of_swaps hstaging hstages hswaps
  have henters : t'.Enters (t'.start s.path) above := by
    obtain ⟨idle, idle', hsteps, -⟩ := hbeside.steps_output
    have hall := hreplaces.names.enters
    rw [hsteps, List.append_assoc, List.append_assoc] at hall
    rw [hbeside.start_eq]
    exact hall.of_append
  have hfree : t'.look (t'.place s.path) = none := by
    rw [place_eq hreplaces.here_eq]
    exact hreplaces.look_staging _ hstaging
  obtain ⟨t₂, hstage', hkeeps⟩ := stage_again (isPlain_of_emit hemit) hstage
    hbeside.steps_staging (isName_stagingName name) henters hfree
  have hdirect : ¬t₂.Detours settings.output := by
    rw [detours_iff (hkeeps.here_eq.trans hswaps.here_eq)]
    exact hswaps.direct
  obtain ⟨t'', hswap'⟩ := swap_of_not_detours (hkeeps.names hreplaces.names) hbeside hdirect
    (names_of_stage hstage')
  have hs' := hdecided.trans hs
  obtain ⟨hstages', hswaps'⟩ := run_steps hs' hstage' hswap'
  exact ⟨t'', run_eq_ok.2 ⟨s, t₂, hs', hstage', hswap', hreport⟩,
    hreplaces.agree (replaces_of_swaps hstaging hstages' hswaps')⟩

end Swatchbook.Generation

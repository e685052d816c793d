import Swatchbook.Proofs.Files.Making
import Swatchbook.Proofs.Files.Moving
import Swatchbook.Proofs.Generation.Decided

/-! What the steps of a run that succeeds make of a tree, place by place: first the
directory beside the output, then its move to the place of the output. -/
namespace Swatchbook

open FileTree

namespace Generation

def fileEntry (f : Source.SourceFile) : Entry :=
  .file f.contents.toUTF8.toList

def listing (files : List Source.SourceFile) : List String → Option Entry
  | [] => some .directory
  | [name] => (files.find? (·.name = name)).map fileEntry
  | _ :: _ :: _ => none

variable {t t' : FileTree} {staging output dir name : String} {above : List String}
  {files : List Source.SourceFile}

theorem writeFiles_cons_ok {f : Source.SourceFile}
    (h : t.exec (writeFiles dir (f :: files)) = (.ok (), t')) :
    ∃ t₁, t.write (Path.join dir f.name) f.contents.toUTF8.toList = .ok t₁ ∧
      t₁.exec (writeFiles dir files) = (.ok (), t') := by
  rw [writeFiles] at h
  obtain ⟨_, t₁, hwrite, hrest⟩ := exec_bind_eq_ok h
  exact ⟨t₁, exec_writing_apply_eq_ok.1 hwrite, hrest⟩

theorem look_writeFiles (hplain : ∀ f ∈ files, IsPlain f.name)
    (hdistinct : (files.map Source.SourceFile.name).Nodup)
    (h : t.exec (writeFiles dir files) = (.ok (), t')) (q : List String) :
    t'.look q =
      ((files.find? fun f => t.place dir ++ [f.name] = q).map fileEntry).or (t.look q) := by
  induction files generalizing t with
  | nil =>
      cases h
      rfl
  | cons f rest ih =>
      obtain ⟨t₁, hwrite, hrest⟩ := writeFiles_cons_ok h
      have hsets := write_sets hwrite
      rw [List.map_cons, List.nodup_cons] at hdistinct
      rw [ih (fun g hg => hplain g (List.mem_cons_of_mem _ hg)) hdistinct.2 hrest, hsets.look_eq,
        place_join (hplain f (List.mem_cons_self ..)), place_eq hsets.here_eq, List.find?_cons]
      by_cases hq : t.place dir ++ [f.name] = q
      · have hothers : rest.find? (fun g => t.place dir ++ [g.name] = q) = none := by
          rw [List.find?_eq_none]
          intro g hg hsame
          have hname : g.name = f.name := by simpa [← hq] using hsame
          exact hdistinct.1 (hname ▸ List.mem_map_of_mem hg)
        simp [hothers, hq, fileEntry]
      · simp [hq, Ne.symm hq]

theorem look_staged {t₁ : FileTree} (hplain : ∀ f ∈ files, IsPlain f.name)
    (hdistinct : (files.map Source.SourceFile.name).Nodup)
    (hmake : t.makeDirectory staging = .ok t₁)
    (hwrite : t₁.exec (writeFiles staging files) = (.ok (), t')) (below : List String) :
    t'.look (t.place staging ++ below) = listing files below := by
  obtain ⟨hsets, hfree⟩ := makeDirectory_sets hmake
  have hbelow := Node.look_append_of_none hfree below
  rw [look_writeFiles hplain hdistinct hwrite, place_eq hsets.here_eq, hsets.look_eq]
  match below with
  | [] =>
      rw [List.find?_eq_none.2 (by simp)]
      simp [listing]
  | [name] => simp [listing, look, hbelow]
  | name :: next :: rest =>
      rw [List.find?_eq_none.2 (by simp)]
      simp [listing, look, hbelow]

/-- What staging has made of a tree. -/
structure Stages (t t' : FileTree) (staging : String) (files : List Source.SourceFile) :
    Prop where
  here_eq : t'.here = t.here
  direct : ¬t.Detours staging
  look_staging : ∀ below, t'.look (t.place staging ++ below) = listing files below
  look_off : ∀ q, ¬t.place staging <+: q → t'.look q = t.look q ∨
    t.OnWay staging q ∧ t.look q = none ∧ t'.look q = some .directory

theorem stage_stages (hplain : ∀ f ∈ files, IsPlain f.name)
    (hdistinct : (files.map Source.SourceFile.name).Nodup)
    (h : t.exec (stage staging files) = (.ok (), t')) : Stages t t' staging files := by
  have hspares := rel_of_exec (obeys_stage (t := t) hplain) h
  obtain ⟨t₁, t₂, t₃, hclear, hopen, hmake, hwrite⟩ := stage_ok h
  have hhere : t₂.here = t.here :=
    (rel_of_exec (obeys_openWay (t := t)) hopen).here_eq.trans
      (rel_of_exec (obeys_clear_staging (t := t)) hclear).here_eq
  obtain ⟨hsets, hfree⟩ := makeDirectory_sets hmake
  obtain ⟨above, name, -, hends⟩ := hsets.ends
  refine ⟨hspares.here_eq, hends.not_detours hhere ?_, fun below => ?_, hspares.look_eq rfl⟩
  · rw [← place_eq hhere, hfree]
    exact nofun
  · rw [← place_eq hhere]
    exact look_staged hplain hdistinct hmake hwrite below

/-- Nothing is touched but what the path names, and if the path still ends somewhere, that
is no directory any more. -/
structure Clears (t t' : FileTree) (p : String) : Prop where
  here_eq : t'.here = t.here
  look_off : ∀ q, ¬t.place p <+: q → t'.look q = t.look q
  same_or_names : t' = t ∨ t.Names p
  gone : ∀ above name, isName name = true → t'.Ends p above name →
    t'.look (t.place p) ≠ some .directory

theorem clear_clears {p : String} (h : t.exec (clear p) = (.ok (), t')) : Clears t t' p := by
  rw [exec_clear] at h
  by_cases hnames : t.Names p
  · obtain ⟨hempties, hgone⟩ := removeDirectory_empties hnames
    rw [if_pos (isPresent_of_names hnames)] at h
    cases hremove : t.removeDirectory p with
    | mk t₁ r =>
        rw [hremove] at h hempties hgone
        cases r with
        | error fault => cases h
        | ok _ =>
            cases h
            refine ⟨hempties.here_eq, hempties.look_off, Or.inr hnames, ?_⟩
            intro above name _ hends
            rcases hgone rfl with hnone | hnot
            · simp [hnone]
            · exact absurd hends (hnot above name)
  · obtain ⟨fault, hremove⟩ := removeDirectory_of_not_names hnames
    rw [hremove] at h
    split at h
    · cases h
    · cases h
      refine ⟨rfl, fun _ _ => rfl, Or.inl rfl, ?_⟩
      intro above name hname hends hlook
      exact hnames (hends.names hname hlook)

theorem swap_ok (h : t.exec (swap staging output) = (.ok (), t')) :
    ∃ t₁, t.exec (clear output) = (.ok (), t₁) ∧ t₁.rename staging output = .ok t' := by
  unfold swap at h
  obtain ⟨_, t₁, hclear, hrename⟩ := exec_bind_eq_ok h
  exact ⟨t₁, hclear, exec_writing_apply_eq_ok.1 hrename⟩

/-- The directory beside the output stands in its place. -/
structure Swaps (t t' : FileTree) (staging output : String) : Prop where
  here_eq : t'.here = t.here
  direct : ¬t.Detours output
  names : t'.Names output
  look_output : ∀ contents, t.look (t.place output) ≠ some (.file contents)
  look_eq : ∀ q, t'.look q =
    if t.place output <+: q then t.look (t.place staging ++ q.drop (t.place output).length)
    else if t.place staging <+: q then none
    else t.look q

theorem swap_swaps (hbeside : Beside output staging above name) (hdirect : ¬t.Detours staging)
    (hstaged : t.Names staging) (h : t.exec (swap staging output) = (.ok (), t')) :
    Swaps t t' staging output := by
  obtain ⟨t₁, hclear, hrename⟩ := swap_ok h
  have hclears := clear_clears hclear
  have hhere := hclears.here_eq
  have hmoves := rename_moves hrename (hbeside.place_ne t₁)
  obtain ⟨above', name', hname', hends⟩ := hmoves.target
  have hdirect' : ¬t.Detours output :=
    hends.not_detours hhere (hclears.gone above' name' hname' hends)
  have hstaged' : t₁.look (t₁.place staging) = some .directory := by
    rw [place_eq hhere, hclears.look_off _ (hbeside.not_above t)]
    exact hstaged.enters.2
  have hlook : ∀ q, t'.look q =
      if t.place output <+: q then t.look (t.place staging ++ q.drop (t.place output).length)
      else if t.place staging <+: q then none
      else t.look q := by
    intro q
    rw [hmoves.look_eq, place_eq hhere, place_eq hhere]
    split
    · exact hclears.look_off _ (hbeside.not_below t _)
    · rename_i hq
      rw [hclears.look_off q hq]
  -- The way to the output does not lead through the place that has been left either.
  have hends' : t'.Ends output above' name' := by
    apply hends.congr hmoves.here_eq
    intro q hq
    rw [passes_iff hhere] at hq
    have houtput := not_below_of_passes hdirect' hq
    have hstaging := not_below_of_passes hdirect (hbeside.passes_staging hdirect' hq)
    rw [hlook, if_neg houtput, if_neg hstaging, hclears.look_off q houtput]
  refine ⟨hmoves.here_eq.trans hhere, hdirect', hends'.names hname' ?_, ?_, hlook⟩
  · rw [hlook, place_eq (hmoves.here_eq.trans hhere), if_pos (List.prefix_refl _),
      List.drop_length, List.append_nil]
    exact hstaged.enters.2
  · intro contents hfile
    rcases hclears.same_or_names with rfl | hnames
    · exact hmoves.target_ne hstaged' contents hfile
    · have hdirectory : t.look (t.place output) = some .directory := hnames.enters.2
      rw [hfile] at hdirectory
      cases hdirectory

end Generation

end Swatchbook

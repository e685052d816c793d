import Swatchbook.Proofs.Generation.Staging

/-! The output directory and the directory beside it. They are neighbours whatever
the path of the output looks like, so a run that has not come to the replacement has
left the output alone. -/
namespace Swatchbook

open FileTree

/-- The path comes through what it names before its end. -/
def FileTree.Detours (t : FileTree) (p : String) : Prop :=
  ∃ above below, below ≠ [] ∧ steps p = above ++ below ∧ t.place p <+: follow (t.start p) above

theorem FileTree.not_below_of_passes {t : FileTree} {p : String} {q : List String}
    (h : ¬t.Detours p) (hq : t.Passes p q) : ¬t.place p <+: q := by
  obtain ⟨above, below, hbelow, hsteps, rfl⟩ := hq
  exact fun hplace => h ⟨above, below, hbelow, hsteps, hplace⟩

namespace Generation

def stagingName (name : String) : String :=
  "." ++ name ++ ".staging"

theorem length_stagingName (name : String) :
    (stagingName name).toList.length = name.toList.length + 9 := by
  unfold stagingName
  rw [String.toList_append, String.toList_append, List.length_append, List.length_append]
  change 1 + _ + 8 = _
  omega

theorem stagingName_ne (name : String) : stagingName name ≠ name := by
  intro heq
  have hlength := length_stagingName name
  rw [heq] at hlength
  omega

theorem isName_stagingName (name : String) : isName (stagingName name) = true := by
  have hlength := length_stagingName name
  unfold isName
  rw [Bool.and_eq_true, bne_iff_ne, bne_iff_ne]
  constructor
  · intro heq
    rw [heq] at hlength
    change 1 = _ at hlength
    omega
  · intro heq
    rw [heq] at hlength
    change 2 = _ at hlength
    omega

/-- Two paths that end side by side, the first perhaps with idle steps. -/
structure Beside (output staging : String) (above : List String) (name : String) : Prop where
  isAbsolute_eq : Path.isAbsolute staging = Path.isAbsolute output
  isName_name : isName name = true
  steps_staging : steps staging = above ++ [stagingName name]
  steps_output : ∃ idle idle', steps output = above ++ idle ++ [name] ++ idle' ∧
    ∀ step ∈ idle ++ idle', step = "."

theorem stagingPath_beside {output staging : String} (h : stagingPath output = .ok staging) :
    ∃ above name, Beside output staging above name := by
  unfold stagingPath at h
  split at h
  · cases h
  · rename_i name hname
    cases h
    obtain ⟨parent, idle, idle', hparent, habsolute, hsteps, hidle, hisName, hslash⟩ :=
      Path.steps_of_fileName? hname
    have hname' : '/' ∉ (stagingName name).toList := by
      unfold stagingName
      simp [hslash]
    have hrelative : Path.isAbsolute (stagingName name) = false := by
      unfold Path.isAbsolute stagingName
      simp
    have hstaging : steps (stagingName name) = [stagingName name] := by
      unfold steps
      rw [Text.pieces_of_not_mem hname', List.filter_cons_of_pos, List.filter_nil,
        List.map_singleton, String.ofList_toList]
      have hlength := length_stagingName name
      rw [decide_eq_true_eq, ← List.length_pos_iff]
      omega
    obtain ⟨hjoin, habsolute'⟩ := Path.steps_join parent hrelative
    refine ⟨steps parent, name, ?_, hisName, ?_, idle, idle', hsteps, hidle⟩
    · unfold Path.withFileName
      rw [hparent]
      exact habsolute'.trans habsolute
    · unfold Path.withFileName
      rw [hparent]
      exact hjoin.trans (congrArg _ hstaging)

theorem follow_of_idle {idle : List String} (h : ∀ step ∈ idle, step = ".")
    (place : List String) : follow place idle = place := by
  induction idle generalizing place with
  | nil => rfl
  | cons step rest ih =>
      rw [follow, if_pos (h step (List.mem_cons_self ..))]
      exact ih (fun s hs => h s (List.mem_cons_of_mem _ hs)) place

namespace Beside

variable {output staging name : String} {above : List String}

theorem start_eq (h : Beside output staging above name) (t : FileTree) :
    t.start staging = t.start output :=
  FileTree.start_congr h.isAbsolute_eq

theorem place_staging (h : Beside output staging above name) (t : FileTree) :
    t.place staging = follow (t.start output) above ++ [stagingName name] := by
  unfold place
  rw [h.start_eq, h.steps_staging, follow_concat _ (isName_stagingName name)]

theorem place_output (h : Beside output staging above name) (t : FileTree) :
    t.place output = follow (t.start output) above ++ [name] := by
  obtain ⟨idle, idle', hsteps, hidle⟩ := h.steps_output
  unfold place
  rw [hsteps, follow_append, follow_concat _ h.isName_name, follow_append,
    follow_of_idle fun step hs => hidle step (List.mem_append_left _ hs),
    follow_of_idle fun step hs => hidle step (List.mem_append_right _ hs)]

theorem place_ne (h : Beside output staging above name) (t : FileTree) :
    t.place staging ≠ t.place output := by
  rw [h.place_staging, h.place_output]
  intro heq
  exact stagingName_ne name (by simpa using heq)

private theorem not_below_of_ne {place place' below : List String}
    (hlength : place.length = place'.length) (hne : place ≠ place') :
    ¬place <+: place' ++ below := by
  intro hbelow
  have hheads := List.prefix_of_prefix_length_le hbelow (List.prefix_append _ below)
    (Nat.le_of_eq hlength)
  exact hne (hheads.eq_of_length hlength)

theorem length_place (h : Beside output staging above name) (t : FileTree) :
    (t.place staging).length = (t.place output).length := by
  rw [h.place_staging, h.place_output, List.length_append, List.length_append]
  rfl

theorem not_work (h : Beside output staging above name) (t : FileTree) (below : List String) :
    ¬Work t staging (t.place output ++ below) :=
  not_below_of_ne (h.length_place t) (h.place_ne t)

theorem not_below (h : Beside output staging above name) (t : FileTree) (below : List String) :
    ¬t.place output <+: t.place staging ++ below :=
  not_below_of_ne (h.length_place t).symm (h.place_ne t).symm

theorem not_above (h : Beside output staging above name) (t : FileTree) :
    ¬t.place output <+: t.place staging := by
  rw [← List.append_nil (t.place staging)]
  exact h.not_below t []

theorem steps_of_append (h : Beside output staging above name) {initial below : List String}
    (hbelow : below ≠ []) (hsteps : steps staging = initial ++ below) :
    ∃ rest, rest ≠ [] ∧ steps output = initial ++ rest := by
  obtain ⟨idle, idle', houtput, -⟩ := h.steps_output
  obtain ⟨rest, rfl⟩ := prefix_of_append_eq (h.steps_staging.symm.trans hsteps) hbelow
  exact ⟨rest ++ idle ++ [name] ++ idle', by simp, by simp [houtput]⟩

theorem passes_output (h : Beside output staging above name) {t : FileTree} {q : List String}
    (hq : t.Passes staging q) : t.Passes output q := by
  obtain ⟨initial, below, hbelow, hsteps, rfl⟩ := hq
  obtain ⟨rest, hrest, houtput⟩ := h.steps_of_append hbelow hsteps
  rw [h.start_eq]
  exact ⟨initial, rest, hrest, houtput, rfl⟩

theorem onWay_output (h : Beside output staging above name) {t : FileTree} {q : List String}
    (hq : t.OnWay staging q) : t.OnWay output q := by
  obtain ⟨initial, last, below, hlast, hbelow, hsteps, rfl⟩ := hq
  obtain ⟨rest, hrest, houtput⟩ := h.steps_of_append hbelow hsteps
  rw [h.start_eq]
  exact ⟨initial, last, rest, hlast, hrest, houtput, rfl⟩

theorem detours_of_onWay (h : Beside output staging above name) {t : FileTree}
    {below : List String} (honWay : t.OnWay staging (t.place output ++ below)) :
    t.Detours output := by
  obtain ⟨initial, rest, hrest, hsteps, hplace⟩ := h.passes_output honWay.passes
  exact ⟨initial, rest, hrest, hsteps, hplace ▸ List.prefix_append _ _⟩

theorem steps_of_not_detours (h : Beside output staging above name) {t : FileTree}
    (hdirect : ¬t.Detours output) :
    ∃ idle, steps output = above ++ idle ++ [name] ∧ ∀ step ∈ idle, step = "." := by
  obtain ⟨idle, idle', hsteps, hidle⟩ := h.steps_output
  refine ⟨idle, ?_, fun step hs => hidle step (List.mem_append_left _ hs)⟩
  by_cases hlast : idle' = []
  · rw [hsteps, hlast, List.append_nil]
  · have hplace : follow (t.start output) (above ++ idle ++ [name]) = t.place output := by
      rw [follow_concat _ h.isName_name, h.place_output, follow_append,
        follow_of_idle fun step hs => hidle step (List.mem_append_left _ hs)]
    exact absurd ⟨_, idle', hlast, hsteps, [], by rw [List.append_nil, hplace]⟩ hdirect

theorem passes_staging (h : Beside output staging above name) {t : FileTree} {q : List String}
    (hdirect : ¬t.Detours output) (hq : t.Passes output q) : t.Passes staging q := by
  obtain ⟨idle, houtput, hidle⟩ := h.steps_of_not_detours hdirect
  obtain ⟨initial, below, hbelow, hsteps, rfl⟩ := hq
  have hinitial : initial <+: above ++ idle :=
    prefix_of_append_eq (houtput.symm.trans hsteps) hbelow
  rw [← h.start_eq]
  rcases List.prefix_or_prefix_of_prefix hinitial (List.prefix_append above idle) with
    ⟨rest, rfl⟩ | ⟨rest, rfl⟩
  · exact ⟨initial, rest ++ [stagingName name], by simp, by simp [h.steps_staging], rfl⟩
  · have hrest := (List.prefix_append_right_inj above).1 hinitial
    refine ⟨above, [stagingName name], by simp, h.steps_staging, ?_⟩
    rw [follow_append, follow_of_idle fun step hs => hidle step (hrest.subset hs)]

end Beside

variable {settings : Settings} {t t' : FileTree}

theorem obeys_prepare {R : FileTree → FileTree → Prop} [IsPreorder FileTree R]
    (h : ∀ staging files, stagingPath settings.output = .ok staging →
      (∀ f ∈ files, IsPlain f.name) → Obeys R (stage (m := StateM FileTree) staging files).run) :
    Obeys R (prepare (m := StateM FileTree) settings).run := by
  unfold prepare
  apply obeys_except_bind
  intro ns _
  apply obeys_except_bind
  intro staging hstaging
  apply obeys_run_bind
  · exact obeys_check _
  · intro themes
    apply obeys_except_bind
    intro files hfiles
    apply obeys_run_bind
    · exact h staging files hstaging (isPlain_of_emit hfiles)
    · intro _
      exact obeys_pure _

/-- A run that is ready for the replacement, or has failed before it, has left what is at
and below the output, unless the path of the output had to be made to go through it. -/
theorem prepare_leaves {r : Except RunError Staged} (h : t.exec (prepare settings) = (r, t')) :
    t'.here = t.here ∧ ∀ below,
      t'.look (t.place settings.output ++ below) = t.look (t.place settings.output ++ below) ∨
        t.Detours settings.output ∧ t.look (t.place settings.output ++ below) = none ∧
          t'.look (t.place settings.output ++ below) = some .directory := by
  cases hstaging : stagingPath settings.output with
  | error e =>
      have hspares := rel_of_exec (obeys_prepare (R := Spares t.here (fun _ => False)
        (fun _ => False)) (by simp [hstaging])) h
      refine ⟨hspares.here_eq, fun below => Or.inl ?_⟩
      exact (hspares.look_eq rfl _ not_false).resolve_right fun hroute => hroute.1
  | ok staging =>
      obtain ⟨above, name, hbeside⟩ := stagingPath_beside hstaging
      have hspares := rel_of_exec (obeys_prepare (R := Spares t.here (Work t staging)
        (t.OnWay staging)) (by
          intro staging' files hstaging' hfiles
          rw [hstaging] at hstaging'
          cases hstaging'
          exact obeys_stage hfiles)) h
      refine ⟨hspares.here_eq, fun below => ?_⟩
      rcases hspares.look_eq rfl _ (hbeside.not_work t below) with hsame | ⟨honWay, hmade⟩
      · exact Or.inl hsame
      · exact Or.inr ⟨hbeside.detours_of_onWay honWay, hmade⟩

theorem stage_ok {staging : String} {files : List Source.SourceFile}
    (h : t.exec (stage staging files) = (.ok (), t')) :
    ∃ t₁ t₂ t₃ : FileTree, t.exec (clear staging) = (.ok (), t₁) ∧
      t₁.exec (openWay staging) = (.ok (), t₂) ∧ t₂.makeDirectory staging = .ok t₃ ∧
      t₃.exec (writeFiles staging files) = (.ok (), t') := by
  rw [stage_eq] at h
  obtain ⟨_, t₁, hclear, h⟩ := exec_bind_eq_ok h
  obtain ⟨_, t₂, hopen, h⟩ := exec_bind_eq_ok h
  obtain ⟨_, t₃, hmake, hwrite⟩ := exec_bind_eq_ok h
  exact ⟨t₁, t₂, t₃, hclear, hopen, exec_writing_apply_eq_ok.1 hmake, hwrite⟩

theorem writeFiles_keeps {r : Except RunError Unit} {dir : String}
    {files : List Source.SourceFile} (h : t.exec (writeFiles dir files) = (r, t')) : t.Keeps t' :=
  rel_of_exec (obeys_writeFiles fun _ _ _ _ _ hok => (write_sets hok).keeps) h

theorem names_of_stage {staging : String} {files : List Source.SourceFile}
    (h : t.exec (stage staging files) = (.ok (), t')) : t'.Names staging := by
  obtain ⟨-, t₁, t₂, -, -, hmake, hwrite⟩ := stage_ok h
  exact (writeFiles_keeps hwrite).names (names_of_makeDirectory hmake)

/-- A run that is ready has its files in a directory beside the output. -/
theorem prepare_ok {s : Staged} (h : t.exec (prepare settings) = (.ok s, t')) :
    stagingPath settings.output = .ok s.path ∧ t'.Names s.path := by
  unfold prepare at h
  obtain ⟨ns, t₁, -, h⟩ := exec_bind_eq_ok h
  obtain ⟨staging, t₂, hstaging, h⟩ := exec_bind_eq_ok h
  obtain ⟨themes, t₃, -, h⟩ := exec_bind_eq_ok h
  obtain ⟨files, t₄, -, h⟩ := exec_bind_eq_ok h
  obtain ⟨_, t₅, hstage, h⟩ := exec_bind_eq_ok h
  rw [exec_except] at hstaging
  rw [exec_pure] at h
  cases h
  exact ⟨congrArg Prod.fst hstaging, names_of_stage hstage⟩

end Generation

end Swatchbook

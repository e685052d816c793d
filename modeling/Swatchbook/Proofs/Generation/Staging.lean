import Swatchbook.Generation
import Swatchbook.Proofs.Files.Entries
import Swatchbook.Proofs.Files.Making

/-! A run up to the point where the output is replaced. Whether it comes that far or
fails, it has written beside the output only and made directories on the way there. -/
namespace Swatchbook

open FileTree

section Reading

variable {R : FileTree → FileTree → Prop} [IsPreorder FileTree R]

theorem obeys_themeFiles (dir : String) (names : List String) :
    Obeys R (ThemeFolder.themeFiles (m := StateM FileTree) dir names) := by
  induction names with
  | nil => exact obeys_pure _
  | cons name rest ih =>
      rw [ThemeFolder.themeFiles]
      apply obeys_bind ih
      intro others
      apply obeys_bind
      · exact obeys_of_same fun _ => rfl
      · intro isFile
        split
        · exact obeys_pure _
        · exact obeys_pure _

theorem obeys_readFiles (dir : String) (names : List String) :
    Obeys R (ThemeFolder.readFiles (m := StateM FileTree) dir names).run := by
  induction names with
  | nil => exact obeys_pure _
  | cons name rest ih =>
      rw [ThemeFolder.readFiles]
      apply obeys_run_bind
      · exact obeys_lift (obeys_of_same fun _ => rfl)
      · intro contents
        split
        · exact obeys_throw _
        · split
          · exact obeys_throw _
          · exact obeys_run_bind ih fun _ => obeys_pure _

theorem obeys_read (dir : String) :
    Obeys R (ThemeFolder.read (m := StateM FileTree) dir).run := by
  unfold ThemeFolder.read
  apply obeys_run_bind
  · exact obeys_lift (obeys_of_same fun _ => rfl)
  · intro names
    split
    · exact obeys_throw _
    · exact obeys_run_bind (obeys_lift (obeys_themeFiles dir _)) fun _ => obeys_readFiles dir _

theorem obeys_check (input : String) :
    Obeys R (Generation.check (m := StateM FileTree) input).run := by
  unfold Generation.check
  apply obeys_run_bind
  · exact obeys_adapt _ (obeys_read input)
  · intro themes
    split
    · exact obeys_throw _
    · exact obeys_pure _

end Reading

namespace Generation

theorem exec_writing (t : FileTree) (path : String)
    (action : StateM FileTree (Except FileFault Unit)) :
    t.exec (writing path action) =
      match action.run t with
      | (.ok _, t') => (.ok (), t')
      | (.error e, t') => (.error (.unwritable path e), t') := by
  unfold writing
  rw [exec_bind, exec_lift]
  cases action.run t with
  | mk r t' => cases r <;> rfl

theorem exec_writing_apply (t : FileTree) (path : String)
    (f : FileTree → Except FileFault FileTree) :
    t.exec (writing path (FileTree.apply f)) =
      match f t with
      | .ok t' => (.ok (), t')
      | .error e => (.error (.unwritable path e), t) := by
  rw [exec_writing, run_apply]
  cases f t <;> rfl

theorem exec_writing_eq_ok {t t' : FileTree} {path : String}
    {action : StateM FileTree (Except FileFault Unit)} :
    t.exec (writing path action) = (.ok (), t') ↔ action.run t = (.ok (), t') := by
  rw [exec_writing]
  cases action.run t with
  | mk r t₁ =>
      cases r with
      | error e => exact ⟨nofun, nofun⟩
      | ok _ =>
          constructor
          · intro h
            cases h
            rfl
          · intro h
            cases h
            rfl

theorem exec_writing_apply_eq_ok {t t' : FileTree} {path : String}
    {f : FileTree → Except FileFault FileTree} :
    t.exec (writing path (FileTree.apply f)) = (.ok (), t') ↔ f t = .ok t' := by
  rw [exec_writing_apply]
  cases f t <;> simp

theorem obeys_writing {R : FileTree → FileTree → Prop} [IsPreorder FileTree R] (path : String)
    {action : StateM FileTree (Except FileFault Unit)} (h : Obeys R action) :
    Obeys R (writing path action).run := by
  unfold writing
  apply obeys_run_bind (obeys_lift h)
  intro r
  cases r with
  | ok _ => exact obeys_pure _
  | error e => exact obeys_throw _

theorem obeys_clear {R : FileTree → FileTree → Prop} [IsPreorder FileTree R] {path : String}
    (h : Obeys R (FileSystem.removeDirectory path : StateM FileTree (Except FileFault Unit))) :
    Obeys R (clear (m := StateM FileTree) path).run := by
  unfold clear
  apply obeys_run_bind
  · exact obeys_lift (obeys_of_same fun _ => rfl)
  · intro isPresent
    split
    · exact obeys_writing path h
    · exact obeys_pure _

theorem obeys_writeFiles {R : FileTree → FileTree → Prop} [IsPreorder FileTree R] {dir : String}
    {files : List Source.SourceFile}
    (h : ∀ f ∈ files, ∀ t t' c, t.write (Path.join dir f.name) c = .ok t' → R t t') :
    Obeys R (writeFiles (m := StateM FileTree) dir files).run := by
  induction files with
  | nil => exact obeys_pure _
  | cons f rest ih =>
      rw [writeFiles]
      apply obeys_run_bind
      · apply obeys_writing
        exact obeys_apply fun t t' hok => h f (List.mem_cons_self ..) t t' _ hok
      · intro _
        exact ih fun g hg => h g (List.mem_cons_of_mem _ hg)

theorem names_of_emit {ns : Source.Namespace} {s : ThemeSet} {files : List Source.SourceFile}
    (h : emit ns s = .ok files) :
    files.map Source.SourceFile.name = ["theme_colors.rs", "theme_registry.rs"] := by
  unfold emit Source.emit at h
  cases hplan : Source.Plan.build s ns with
  | error e =>
      rw [hplan] at h
      cases h
  | ok p =>
      rw [hplan] at h
      cases h
      rfl

theorem isPlain_of_emit {ns : Source.Namespace} {s : ThemeSet} {files : List Source.SourceFile}
    (h : emit ns s = .ok files) : ∀ f ∈ files, IsPlain f.name := by
  intro f hf
  have hname := List.mem_map_of_mem (f := Source.SourceFile.name) hf
  rw [names_of_emit h] at hname
  simp only [List.mem_cons, List.not_mem_nil, or_false] at hname
  rcases hname with heq | heq
  · rw [heq]
    decide
  · rw [heq]
    decide

/-- What staging works on: everything at or below the staging directory. -/
def Work (t : FileTree) (staging : String) (q : List String) : Prop :=
  t.place staging <+: q

section Stage

variable {t : FileTree} {staging : String}

theorem obeys_clear_staging :
    Obeys (Spares t.here (Work t staging) (t.OnWay staging))
      (clear (m := StateM FileTree) staging).run := by
  apply obeys_clear
  intro t'
  by_cases hnames : t'.Names staging
  · apply (removeDirectory_empties hnames).1.spares
    intro hhere below
    rw [place_eq hhere]
    exact List.prefix_append _ _
  · obtain ⟨e, he⟩ := removeDirectory_of_not_names hnames
    change Spares _ _ _ t' (t'.removeDirectory staging).1
    rw [he]
    exact refl_of _ t'

def openWay (staging : String) : ExceptT RunError (StateM FileTree) Unit :=
  match Path.parent? staging with
  | some parent =>
    if parent.isEmpty then pure () else writing parent (FileSystem.makeDirectories parent)
  | none => pure ()

theorem stage_eq (staging : String) (files : List Source.SourceFile) :
    stage (m := StateM FileTree) staging files = (do
      clear staging
      openWay staging
      writing staging (FileSystem.makeDirectory staging)
      writeFiles staging files) := by
  unfold stage openWay
  congr
  funext _
  cases Path.parent? staging with
  | none => rfl
  | some parent => cases hempty : parent.isEmpty <;> simp [hempty]

theorem onWay_of_steps {p name : String} {above : List String}
    (habsolute : Path.isAbsolute p = Path.isAbsolute staging) (hpart : steps p <+: steps staging)
    (hname : isName name = true) (hsteps : steps p = above ++ [name]) :
    t.place p = t.place staging ∨ t.OnWay staging (t.place p) := by
  have hstart : t.start p = t.start staging := start_congr habsolute
  obtain ⟨below, hbelow⟩ := hpart
  by_cases hend : below = []
  · left
    rw [hend, List.append_nil] at hbelow
    rw [place, place, hstart, hbelow]
  · right
    refine ⟨above, name, below, hname, hend, ?_, ?_⟩
    · rw [← hbelow, hsteps]
    · rw [place, hsteps, follow_concat _ hname, hstart]

theorem obeys_openWay :
    Obeys (Spares t.here (Work t staging) (t.OnWay staging)) (openWay staging).run := by
  unfold openWay
  split
  · rename_i parent hparent
    split
    · exact obeys_pure _
    · rename_i hne
      have habove := (Path.ancestor_steps (List.mem_of_mem_head? hparent)).resolve_left
        (by simpa using hne)
      apply obeys_writing
      unfold FileSystem.makeDirectories
      apply obeys_makeDirectoryChain
      rintro t' hhere p hp hnonempty ⟨above, name, hname, hsteps⟩
      have hp' : Path.isAbsolute p = Path.isAbsolute staging ∧ steps p <+: steps staging := by
        rcases List.mem_cons.1 hp with rfl | hp
        · exact habove
        · have hnext := (Path.ancestor_steps hp).resolve_left hnonempty
          exact ⟨hnext.1.trans habove.1, hnext.2.trans habove.2⟩
      rw [place_eq hhere]
      rcases onWay_of_steps hp'.1 hp'.2 hname hsteps with heq | honWay
      · exact Or.inl (heq ▸ List.prefix_refl _)
      · exact Or.inr honWay
  · exact obeys_pure _

theorem obeys_stage {files : List Source.SourceFile} (hfiles : ∀ f ∈ files, IsPlain f.name) :
    Obeys (Spares t.here (Work t staging) (t.OnWay staging))
      (stage (m := StateM FileTree) staging files).run := by
  rw [stage_eq]
  apply obeys_run_bind obeys_clear_staging
  intro _
  apply obeys_run_bind obeys_openWay
  intro _
  apply obeys_run_bind
  · apply obeys_writing
    apply obeys_makeDirectory
    intro t' hhere _
    rw [place_eq hhere]
    exact Or.inl (List.prefix_refl _)
  · intro _
    apply obeys_writeFiles
    intro f hf t₁ t₂ c hok
    apply (write_sets hok).spares
    intro hhere
    rw [place_join (hfiles f hf), place_eq hhere]
    exact List.prefix_append _ _

end Stage

end Generation

end Swatchbook

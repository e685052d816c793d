import Swatchbook.Proofs.Generation.Replacement

/-! What a run decides before it writes. All of it is found on the tree as the run meets
it, and as long as something is refused nothing is touched: the tree is the same, down to
the order in which its entries are kept. -/
namespace Swatchbook.Generation

open FileTree

variable {settings : Settings} {t t' : FileTree}

/-- What a run that meets this tree sets out to write, or why it does not. -/
def decided (settings : Settings) (t : FileTree) : Except RunError Staged := do
  let ns ← moduleOf settings.ns
  let staging ← stagingPath settings.output
  let themes ← (t.exec (check settings.input)).1
  let files ← emit ns themes
  return ⟨themes, files, staging⟩

theorem exec_check (t : FileTree) (input : String) :
    t.exec (check input) = ((t.exec (check input)).1, t) :=
  Prod.ext rfl (rel_of_exec (R := Eq) (obeys_check input) (Prod.eta _)).symm

/-- A run first decides, on the tree as it is, and then writes to the directory beside
the output. -/
theorem exec_prepare (settings : Settings) (t : FileTree) :
    t.exec (prepare settings) =
      match decided settings t with
      | .error e => (.error e, t)
      | .ok s =>
        match t.exec (stage s.path s.files) with
        | (.error e, t') => (.error e, t')
        | (.ok _, t') => (.ok s, t') := by
  unfold prepare decided
  rw [exec_except_bind]
  cases moduleOf settings.ns with
  | error e => rfl
  | ok ns =>
      dsimp only
      rw [exec_except_bind]
      cases stagingPath settings.output with
      | error e => rfl
      | ok staging =>
          dsimp only
          rw [exec_bind, exec_check]
          cases (t.exec (check settings.input)).1 with
          | error e => rfl
          | ok themes =>
              dsimp only
              rw [exec_except_bind]
              cases hemit : emit ns themes with
              | error e => simp only [bind, Except.bind, hemit]
              | ok files =>
                  dsimp only
                  rw [exec_bind]
                  simp only [bind, Except.bind, hemit, pure, Except.pure]
                  cases t.exec (stage staging files) with
                  | mk r t' => cases r <;> rfl

/-- The program can only fail at a file operation. -/
def FailsWriting {α : Type} (x : ExceptT RunError (StateM FileTree) α) : Prop :=
  ∀ (t : FileTree) e t', t.exec x = (.error e, t') → ∃ path fault, e = .unwritable path fault

section FailsWriting

variable {α β : Type} {x : ExceptT RunError (StateM FileTree) α}
  {f : α → ExceptT RunError (StateM FileTree) β}

theorem failsWriting_pure (a : α) :
    FailsWriting (pure a : ExceptT RunError (StateM FileTree) α) :=
  fun _ _ _ h => nomatch h

theorem failsWriting_bind (hx : FailsWriting x) (hf : ∀ a, FailsWriting (f a)) :
    FailsWriting (x >>= f) := by
  intro t e t' h
  rw [exec_bind] at h
  cases hexec : t.exec x with
  | mk r middle =>
      rw [hexec] at h
      cases r with
      | error e' =>
          cases h
          exact hx t _ _ hexec
      | ok a => exact hf a middle e t' h

theorem failsWriting_writing (path : String) (action : StateM FileTree (Except FileFault Unit)) :
    FailsWriting (writing path action) := by
  intro t e t' h
  rw [exec_writing] at h
  split at h
  · cases h
  · cases h
    exact ⟨path, _, rfl⟩

theorem failsWriting_clear (path : String) :
    FailsWriting (clear (m := StateM FileTree) path) := by
  unfold clear
  apply failsWriting_bind
  · exact fun _ _ _ h => nomatch h
  · intro isPresent
    split
    · exact failsWriting_writing path _
    · exact failsWriting_pure _

theorem failsWriting_writeFiles (dir : String) (files : List Source.SourceFile) :
    FailsWriting (writeFiles (m := StateM FileTree) dir files) := by
  induction files with
  | nil => exact failsWriting_pure _
  | cons f rest ih =>
      rw [writeFiles]
      exact failsWriting_bind (failsWriting_writing _ _) fun _ => ih

theorem failsWriting_openWay (staging : String) : FailsWriting (openWay staging) := by
  unfold openWay
  split
  · split
    · exact failsWriting_pure _
    · exact failsWriting_writing _ _
  · exact failsWriting_pure _

theorem failsWriting_stage (staging : String) (files : List Source.SourceFile) :
    FailsWriting (stage (m := StateM FileTree) staging files) := by
  rw [stage_eq]
  exact failsWriting_bind (failsWriting_clear staging) fun _ =>
    failsWriting_bind (failsWriting_openWay staging) fun _ =>
    failsWriting_bind (failsWriting_writing _ _) fun _ => failsWriting_writeFiles staging files

theorem failsWriting_swap (staging output : String) :
    FailsWriting (swap (m := StateM FileTree) staging output) := by
  unfold swap
  exact failsWriting_bind (failsWriting_clear output) fun _ => failsWriting_writing _ _

end FailsWriting

theorem exec_run_of_refused {e : RunError} (h : decided settings t = .error e) :
    t.exec (run settings) = (.error e, t) := by
  rw [exec_run, exec_prepare, h]

/-- Once everything is decided a run can only fail at a file operation. -/
theorem unwritable_of_decided {s : Staged} {e : RunError} (hs : decided settings t = .ok s)
    (h : t.exec (run settings) = (.error e, t')) : ∃ path fault, e = .unwritable path fault := by
  rw [exec_run, exec_prepare, hs] at h
  simp only at h
  cases hstage : t.exec (stage s.path s.files) with
  | mk r t₁ =>
      rw [hstage] at h
      cases r with
      | error e' =>
          cases h
          exact failsWriting_stage _ _ t _ _ hstage
      | ok _ =>
          simp only at h
          split at h
          · rename_i e' t₂ hswap
            cases h
            exact failsWriting_swap _ _ t₁ _ _ hswap
          · cases h

/-- A run that fails otherwise than at a file operation leaves the tree exactly as it was.
So it is whenever something is refused before the writing: the namespace, the path of the
output, a theme, or the code that would be made of them. Trees have no links and no names
that are not texts, so a run that meets such a name is not among these. -/
theorem refused_run_leaves_tree (settings : Settings) (t : FileTree) :
    (∀ e t', t.exec (run settings) = (.error e, t') →
      (∀ path fault, e ≠ .unwritable path fault) → t' = t) ∧
    ∀ e, decided settings t = .error e → t.exec (run settings) = (.error e, t) := by
  refine ⟨fun e t' h he => ?_, fun e h => exec_run_of_refused h⟩
  cases hdecided : decided settings t with
  | error e' =>
      rw [exec_run_of_refused hdecided] at h
      cases h
      rfl
  | ok s =>
      obtain ⟨path, fault, heq⟩ := unwritable_of_decided hdecided h
      exact absurd heq (he path fault)

def leftoverTree : FileTree where
  root := .directory [
    ("in", .directory [
      ("r.json", .file "\x7b\"name\":\"R\",\"colors\":\x7b\"p\":\"\x7ba.b\x7d\"\x7d\x7d".toUTF8.toList)]),
    (".gen.staging", .directory [("f", .file [])])]
  here := []

def besideInput : Settings where
  input := "in"
  output := "gen"
  ns := "g"

theorem leftoverTree_stays :
    ∃ e t', leftoverTree.exec (run besideInput) = (.error e, t') ∧
      (∀ path fault, e ≠ .unwritable path fault) ∧ t' = leftoverTree := by
  have hemission : (match (leftoverTree.exec (run besideInput)).1 with
      | .error (.emission _) => true
      | _ => false) = true := by decide +kernel
  cases hrun : leftoverTree.exec (run besideInput) with
  | mk r t' =>
      rw [hrun] at hemission
      match r with
      | .error (.emission cause) =>
          exact ⟨_, t', rfl, nofun,
            (refused_run_leaves_tree besideInput leftoverTree).1 _ _ hrun nofun⟩

end Swatchbook.Generation

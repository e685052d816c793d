import Swatchbook.Proofs.Files.Effects
import Swatchbook.Proofs.Files.Spelling

/-! The entries of a directory: by name in the list of the directory, and by the path that
joins the name to that of the directory. -/
namespace Swatchbook.FileTree

variable {t t' : FileTree} {p dir name : String} {contents : List UInt8}

/-- The name is one step as a path, and a step that goes to an entry. -/
def IsPlain (name : String) : Prop :=
  Path.isAbsolute name = false ∧ steps name = [name] ∧ isName name = true

instance (name : String) : Decidable (IsPlain name) := by
  unfold IsPlain
  infer_instance

theorem steps_join (h : IsPlain name) (dir : String) :
    steps (Path.join dir name) = steps dir ++ [name] := by
  rw [(Path.steps_join dir h.1).1, h.2.1]

theorem start_join (h : IsPlain name) (t : FileTree) :
    t.start (Path.join dir name) = t.start dir :=
  start_congr (Path.steps_join dir h.1).2

theorem place_join (h : IsPlain name) (t : FileTree) :
    t.place (Path.join dir name) = t.place dir ++ [name] := by
  rw [place, place, steps_join h, start_join h, follow_concat _ h.2.2]

theorem isPlain_of_isEntryName (h : Node.isEntryName name = true) : IsPlain name := by
  obtain ⟨hempty, hslash, hstay, hup⟩ := Node.isEntryName_iff.1 h
  have hne : name.toList ≠ [] := fun hnil => hempty (String.toList_eq_nil_iff.1 hnil)
  refine ⟨?_, ?_, by simp [isName, hstay, hup]⟩
  · unfold Path.isAbsolute
    rw [decide_eq_false_iff_not]
    exact fun hhead => hslash (List.mem_of_mem_head? hhead)
  · unfold steps
    rw [Text.pieces_of_not_mem hslash, List.filter_cons_of_pos (by simpa using hne),
      List.filter_nil, List.map_singleton, String.ofList_toList]

theorem asksDirectory_join (h : IsPlain name) (dir : String) :
    asksDirectory (Path.join dir name) = false := by
  have hmem : name ∈ steps name := by simp [h.2.1]
  obtain ⟨hne, hslash⟩ := not_slash_of_mem_steps hmem
  have hlast : ∀ above : List Char, (above ++ name.toList).getLast? ≠ some '/' := by
    intro above hlast
    rw [List.getLast?_append, List.getLast?_eq_some_getLast hne, Option.some_or,
      Option.some_inj] at hlast
    exact hslash (hlast ▸ List.getLast_mem hne)
  unfold asksDirectory Path.join
  rw [decide_eq_false_iff_not]
  split
  · exact hlast []
  · split
    · rw [String.toList_append]
      exact hlast _
    · rw [String.toList_append]
      exact hlast _

theorem mem_list_iff {names : List String} (h : t.list p = .ok names) (name : String) :
    name ∈ names ↔ t.look (t.place p ++ [name]) ≠ none := by
  have hnames : t.Names p := names_of_list (by rw [h]; rfl)
  obtain ⟨entries, hlocate, hfind⟩ := hnames.locate_eq
  unfold list at h
  rw [hlocate] at h
  cases h
  rw [look, Node.look_append, hfind, Option.bind_some, Node.look_directory_cons,
    ← Dict.lookup_isSome_iff]
  cases entries.lookup name <;> simp [Node.look_nil]

theorem isPlain_of_look {place : List String} (h : t.look (place ++ [name]) ≠ none) :
    IsPlain name :=
  isPlain_of_isEntryName (Node.isEntryName_of_look t.wellFormed h)

theorem read_eq_ok : t.read p = .ok contents ↔
    refusal? p = none ∧ asksDirectory p = false ∧
      ∃ last, walk t.root (t.start p) (steps p) = .ok last ∧
        t.look last = some (.file contents) := by
  unfold read locate look Node.look
  cases refusal? p with
  | some e => simp
  | none =>
      cases walk t.root (t.start p) (steps p) with
      | error e => simp
      | ok last =>
          cases hfind : t.root.find? last with
          | none => simp [hfind]
          | some n =>
              cases n with
              | directory entries => simp [hfind, Node.entry, Node.isDirectory]
              | file c => cases asksDirectory p <;> simp [hfind, Node.entry, Node.isDirectory]

theorem read_join_eq_ok (hdir : t.Names dir) (h : IsPlain name) :
    t.read (Path.join dir name) = .ok contents ↔
      refusal? (Path.join dir name) = none ∧ isLongName name = false ∧
        t.look (t.place dir ++ [name]) = some (.file contents) := by
  have hlook : t.look (t.place dir) = some .directory := hdir.enters.2
  have hwalk : walk t.root (t.start dir) (steps dir) = .ok (t.place dir) := hdir.enters.1
  rw [read_eq_ok, asksDirectory_join h, steps_join h, start_join h, walk_append, hwalk]
  simp only [walk_name hlook h.2.2]
  cases isLongName name with
  | true => simp
  | false =>
      cases hentry : t.look (t.place dir ++ [name]) <;> simp [hentry]

end Swatchbook.FileTree

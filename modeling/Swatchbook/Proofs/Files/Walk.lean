import Swatchbook.Proofs.Files.View

/-! Following a path. Where the steps of a path lead is settled by their names
alone; the tree only decides whether they can be taken. -/
namespace Swatchbook.FileTree

def look (t : FileTree) (place : List String) : Option Entry :=
  t.root.look place

theorem look_of_below {t : FileTree} {place below : List String}
    (h : t.look (place ++ below) ≠ none) (hbelow : below ≠ []) :
    t.look place = some .directory := by
  cases hplace : t.look place with
  | none => exact absurd (Node.look_append_of_none hplace below) h
  | some e =>
      cases e with
      | file contents => exact absurd (Node.look_append_of_file hplace hbelow) h
      | directory => rfl

/-- Where steps lead if they can all be taken. -/
def follow (place : List String) : List String → List String
  | [] => place
  | step :: rest =>
    follow (if step = "." then place else if step = ".." then place.dropLast else place ++ [step])
      rest

/-- The place that a path names if it names one. -/
def place (t : FileTree) (p : String) : List String :=
  follow (t.start p) (steps p)

theorem follow_append (place first second : List String) :
    follow place (first ++ second) = follow (follow place first) second := by
  induction first generalizing place with
  | nil => rfl
  | cons step rest ih => exact ih _

theorem follow_concat (place : List String) {step : String} (h : isName step = true)
    (above : List String) : follow place (above ++ [step]) = follow place above ++ [step] := by
  rw [isName, Bool.and_eq_true, bne_iff_ne, bne_iff_ne] at h
  rw [follow_append, follow, follow, if_neg h.1, if_neg h.2]

theorem prefix_of_append_eq {above initial below : List String} {last : String}
    (h : above ++ [last] = initial ++ below) (hbelow : below ≠ []) : initial <+: above := by
  have hlength := congrArg List.length h
  have hpos := List.length_pos_iff.2 hbelow
  rw [List.length_append, List.length_append, List.length_singleton] at hlength
  have hinitial : initial <+: above ++ [last] := h ▸ List.prefix_append _ _
  exact List.prefix_of_prefix_length_le hinitial (List.prefix_append _ _) (by omega)

/-- Following the path comes to this place before its end. -/
def Passes (t : FileTree) (p : String) (q : List String) : Prop :=
  ∃ above below, below ≠ [] ∧ steps p = above ++ below ∧ q = follow (t.start p) above

/-- The path enters this place by a name and goes on. -/
def OnWay (t : FileTree) (p : String) (q : List String) : Prop :=
  ∃ above name below, isName name = true ∧ below ≠ [] ∧ steps p = above ++ [name] ++ below ∧
    q = follow (t.start p) above ++ [name]

theorem OnWay.passes {t : FileTree} {p : String} {q : List String} (h : t.OnWay p q) :
    t.Passes p q := by
  obtain ⟨above, name, below, hname, hbelow, hsteps, rfl⟩ := h
  exact ⟨above ++ [name], below, hbelow, hsteps, (follow_concat _ hname above).symm⟩

theorem walk_cons (root : Node) (place : List String) (step : String) (rest : List String) :
    walk root place (step :: rest) =
      match root.look place with
      | none => .error .notFound
      | some (.file _) => .error .notADirectory
      | some .directory =>
        if step = "." then walk root place rest
        else if step = ".." then walk root place.dropLast rest
        else if isLongName step then .error .tooLong
        else if (root.look (place ++ [step])).isSome then walk root (place ++ [step]) rest
        else .error .notFound := by
  rw [walk, Node.look_append, Node.look]
  cases root.find? place with
  | none => rfl
  | some child =>
      cases child with
      | file contents => rfl
      | directory entries =>
          have hlook : ((Node.directory entries).look [step]).isSome =
              (entries.lookup step).isSome := by
            rw [Node.look_directory_cons]
            cases entries.lookup step <;> rfl
          simp only [Option.map_some, Node.entry, Option.bind_some, hlook]

/-- A walk sees the places that initial parts of the path lead to and no others. -/
theorem walk_congr {root root' : Node} {place path : List String}
    (h : ∀ above, above <+: path → root'.look (follow place above) = root.look (follow place above)) :
    walk root' place path = walk root place path := by
  induction path generalizing place with
  | nil => rfl
  | cons step rest ih =>
      have hrest : ∀ above, above <+: rest →
          root'.look (follow place (step :: above)) = root.look (follow place (step :: above)) :=
        fun above habove => h _ (List.cons_prefix_cons.2 ⟨rfl, habove⟩)
      have hhere : root'.look place = root.look place := h [] List.nil_prefix
      have hnext := hrest [] List.nil_prefix
      rw [walk_cons, walk_cons, hhere]
      cases root.look place with
      | none => rfl
      | some e =>
          cases e with
          | file contents => rfl
          | directory =>
              simp only [follow] at hrest hnext ⊢
              split
              · rename_i hstay
                simp only [hstay, ↓reduceIte] at hrest
                exact ih hrest
              · rename_i hstay
                simp only [hstay, ↓reduceIte] at hrest hnext
                split
                · rename_i hup
                  simp only [hup, ↓reduceIte] at hrest
                  exact ih hrest
                · rename_i hup
                  simp only [hup, ↓reduceIte] at hrest hnext
                  rw [hnext, ih hrest]

theorem eq_follow_of_walk {root : Node} {place path last : List String}
    (h : walk root place path = .ok last) : last = follow place path := by
  induction path generalizing place with
  | nil =>
      cases h
      rfl
  | cons step rest ih =>
      rw [walk_cons] at h
      rw [follow]
      split at h
      · cases h
      · cases h
      · split at h
        · rename_i hstay
          rw [if_pos hstay]
          exact ih h
        · rename_i hstay
          rw [if_neg hstay]
          split at h
          · rename_i hup
            rw [if_pos hup]
            exact ih h
          · rename_i hup
            rw [if_neg hup]
            split at h
            · cases h
            · split at h
              · exact ih h
              · cases h

theorem walk_append (root : Node) (place above below : List String) :
    walk root place (above ++ below) =
      match walk root place above with
      | .error e => .error e
      | .ok last => walk root last below := by
  induction above generalizing place with
  | nil => rfl
  | cons step rest ih =>
      rw [List.cons_append, walk_cons, walk_cons]
      split
      · rfl
      · rfl
      · split
        · exact ih _
        · split
          · exact ih _
          · split
            · rfl
            · split
              · exact ih _
              · rfl

def Enters (t : FileTree) (place path : List String) : Prop :=
  walk t.root place path = .ok (follow place path) ∧
    t.look (follow place path) = some .directory

variable {t t' : FileTree} {place above below : List String}

theorem Enters.of_walk {last : List String} (hwalk : walk t.root place above = .ok last)
    (hlook : t.look last = some .directory) : t.Enters place above := by
  have hlast := eq_follow_of_walk hwalk
  subst hlast
  exact ⟨hwalk, hlook⟩

theorem Enters.of_walk_append (h : walk t.root place (above ++ below) = .ok last)
    (hbelow : below ≠ []) : t.Enters place above := by
  obtain ⟨step, rest, rfl⟩ := List.exists_cons_of_ne_nil hbelow
  rw [walk_append] at h
  cases hwalk : walk t.root place above with
  | error e =>
      rw [hwalk] at h
      cases h
  | ok middle =>
      rw [hwalk] at h
      simp only at h
      rw [walk_cons] at h
      cases hlook : t.root.look middle with
      | none =>
          rw [hlook] at h
          cases h
      | some e =>
          cases e with
          | file contents =>
              rw [hlook] at h
              cases h
          | directory => exact Enters.of_walk hwalk hlook

theorem Enters.of_append (h : t.Enters place (above ++ below)) : t.Enters place above := by
  by_cases hbelow : below = []
  · rw [hbelow, List.append_nil] at h
    exact h
  · exact Enters.of_walk_append h.1 hbelow

theorem Enters.look_of_prefix (h : t.Enters place below) (ha : above <+: below) :
    t.look (follow place above) = some .directory := by
  obtain ⟨rest, rfl⟩ := ha
  exact h.of_append.2

theorem Enters.congr (h : t.Enters place above)
    (hlook : ∀ path, path <+: above → t'.look (follow place path) = t.look (follow place path)) :
    t'.Enters place above := by
  constructor
  · rw [← h.1]
    exact walk_congr hlook
  · rw [hlook above (List.prefix_refl above)]
    exact h.2

theorem walk_name {name : String} (h : t.look place = some .directory)
    (hname : isName name = true) :
    walk t.root place [name] =
      if isLongName name then .error .tooLong
      else if (t.look (place ++ [name])).isSome then .ok (place ++ [name])
      else .error .notFound := by
  rw [isName, Bool.and_eq_true, bne_iff_ne, bne_iff_ne] at hname
  rw [walk_cons, show t.root.look place = some .directory from h]
  simp only [if_neg hname.1, if_neg hname.2, walk]
  rfl

theorem Enters.short {name : String} (h : t.Enters place (above ++ [name]))
    (hname : isName name = true) : isLongName name = false := by
  have hwalk := h.1
  have habove := h.of_append
  rw [walk_append, habove.1] at hwalk
  simp only [walk_name habove.2 hname] at hwalk
  cases hlong : isLongName name with
  | false => rfl
  | true =>
      rw [hlong, if_pos rfl] at hwalk
      cases hwalk

end Swatchbook.FileTree

import Swatchbook.Files.Tree
import Swatchbook.Proofs.Dict

/-! A file tree seen place by place. Putting a node somewhere changes what is at
and below that place, taking one away leaves nothing there, and everything else
stays as it is. -/
namespace Swatchbook

inductive Entry where
  | file (contents : List UInt8)
  | directory
deriving DecidableEq

namespace Node

def entry : Node → Entry
  | file contents => .file contents
  | directory _ => .directory

/-- What stands at the place that names lead to. -/
def look (n : Node) (place : List String) : Option Entry :=
  (n.find? place).map entry

theorem look_nil (n : Node) : n.look [] = some n.entry :=
  rfl

theorem look_file_cons (contents : List UInt8) (name : String) (place : List String) :
    (file contents).look (name :: place) = none :=
  rfl

theorem look_directory_cons (entries : List (String × Node)) (name : String)
    (place : List String) :
    (directory entries).look (name :: place) =
      (entries.lookup name).bind fun child => child.look place := by
  unfold look
  rw [find?]
  cases entries.lookup name <;> rfl

theorem find?_of_look_directory {n : Node} {place : List String}
    (h : n.look place = some .directory) : ∃ entries, n.find? place = some (directory entries) := by
  unfold look at h
  match hn : n.find? place with
  | none => simp [hn] at h
  | some (file contents) => simp [hn, entry] at h
  | some (directory entries) => exact ⟨entries, rfl⟩

theorem look_of_find? {n child : Node} {place : List String} (h : n.find? place = some child) :
    n.look place = some child.entry := by
  rw [look, h]
  rfl

theorem find?_append (n : Node) (place below : List String) :
    n.find? (place ++ below) = (n.find? place).bind fun child => child.find? below := by
  induction place generalizing n with
  | nil => rfl
  | cons name place ih =>
      cases n with
      | file contents => rfl
      | directory entries =>
          rw [List.cons_append, find?, find?]
          cases entries.lookup name with
          | none => rfl
          | some child => exact ih child

theorem look_append (n : Node) (place below : List String) :
    n.look (place ++ below) = (n.find? place).bind fun child => child.look below := by
  unfold look
  rw [find?_append]
  cases n.find? place <;> rfl

theorem look_append_of_none {n : Node} {place : List String} (h : n.look place = none)
    (below : List String) : n.look (place ++ below) = none := by
  rw [look, Option.map_eq_none_iff] at h
  rw [look_append, h]
  rfl

theorem look_append_of_file {n : Node} {place : List String} {contents : List UInt8}
    (h : n.look place = some (.file contents)) {below : List String} (hb : below ≠ []) :
    n.look (place ++ below) = none := by
  obtain ⟨name, below, rfl⟩ := List.exists_cons_of_ne_nil hb
  rw [look_append]
  cases hn : n.find? place with
  | none => rfl
  | some child =>
      rw [look_of_find? hn] at h
      cases child with
      | file contents => rfl
      | directory entries => cases h

theorem lookup_setEntry (name : String) (n : Node) (entries : List (String × Node))
    (k : String) :
    (setEntry name n entries).lookup k = if k = name then some n else entries.lookup k := by
  induction entries with
  | nil =>
      by_cases hk : k = name
      · simp [setEntry, hk]
      · simp [setEntry, List.lookup_cons, hk, show (k == name) = false by simpa using hk]
  | cons e r ih =>
      obtain ⟨j, v⟩ := e
      by_cases hj : j = name
      · subst hj
        by_cases hk : k = j
        · simp [setEntry, hk]
        · have hb : (k == j) = false := by simpa using hk
          simp [setEntry, List.lookup_cons, hk, hb]
      · rw [setEntry, if_neg hj, List.lookup_cons, List.lookup_cons, ih]
        cases hb : k == j with
        | true =>
            have hk : k ≠ name := by
              rw [beq_iff_eq.1 hb]
              exact hj
            simp [hk]
        | false => rfl

theorem put_directory_singleton (entries : List (String × Node)) (n : Node) {name : String}
    (hname : isEntryName name = true) :
    (directory entries).put n [name] = directory (setEntry name n entries) := by
  rw [put]
  cases entries.lookup name with
  | none => exact if_pos hname
  | some child => rfl

theorem look_put {root : Node} {place : List String} {name : String} (n : Node)
    (hname : isEntryName name = true) (h : root.look place = some .directory) (q : List String) :
    (root.put n (place ++ [name])).look q =
      if place ++ [name] <+: q then n.look (q.drop (place.length + 1)) else root.look q := by
  induction place generalizing root q with
  | nil =>
      cases root with
      | file contents => cases h
      | directory entries =>
          rw [List.nil_append, put_directory_singleton entries n hname]
          cases q with
          | nil => simp [look_nil, entry]
          | cons k q =>
              rw [look_directory_cons, look_directory_cons, lookup_setEntry]
              by_cases hk : k = name
              · simp [hk]
              · simp [hk, Ne.symm hk]
  | cons first place ih =>
      cases root with
      | file contents => cases h
      | directory entries =>
          rw [look_directory_cons] at h
          cases hchild : entries.lookup first with
          | none =>
              rw [hchild] at h
              cases h
          | some child =>
              rw [hchild] at h
              rw [List.cons_append, put]
              simp only [hchild]
              cases q with
              | nil => simp [look_nil, entry]
              | cons k q =>
                  rw [look_directory_cons, look_directory_cons, lookup_setEntry]
                  by_cases hk : k = first
                  · subst hk
                    simp [hchild, ih h]
                  · simp [hk, Ne.symm hk]

theorem isEntryName_of_look {root : Node} {place : List String} {name : String}
    (h : root.isWellFormed = true) (hlook : root.look (place ++ [name]) ≠ none) :
    isEntryName name = true := by
  rw [look_append] at hlook
  cases hfind : root.find? place with
  | none =>
      rw [hfind] at hlook
      exact absurd rfl hlook
  | some child =>
      rw [hfind, Option.bind_some] at hlook
      cases child with
      | file contents => exact absurd rfl hlook
      | directory entries =>
          rw [look_directory_cons] at hlook
          cases hlookup : entries.lookup name with
          | none =>
              rw [hlookup] at hlook
              exact absurd rfl hlook
          | some n => exact (isWellFormed_of_lookup (isWellFormed_find? h hfind) hlookup).1

theorem look_remove (root : Node) (place : List String) (name : String) (q : List String) :
    (root.remove (place ++ [name])).look q =
      if place ++ [name] <+: q then none else root.look q := by
  induction place generalizing root q with
  | nil =>
      cases root with
      | file contents =>
          cases q with
          | nil => simp [remove]
          | cons k q => simp [remove, look_file_cons]
      | directory entries =>
          rw [List.nil_append, remove]
          cases q with
          | nil => simp [look_nil, entry]
          | cons k q =>
              rw [look_directory_cons, look_directory_cons, Dict.lookup_filter_ne]
              by_cases hk : k = name
              · simp [hk]
              · simp [hk, Ne.symm hk]
  | cons first place ih =>
      obtain ⟨second, rest, hrest⟩ : ∃ second rest, place ++ [name] = second :: rest :=
        List.exists_cons_of_ne_nil (by simp)
      rw [List.cons_append, hrest]
      rw [hrest] at ih
      cases root with
      | file contents =>
          cases q with
          | nil => simp [remove]
          | cons k q => simp [remove, look_file_cons]
      | directory entries =>
          cases q with
          | nil =>
              rw [remove]
              cases entries.lookup first <;> simp [look_nil, entry]
          | cons k q =>
              rw [remove]
              cases hchild : entries.lookup first with
              | none =>
                  by_cases hk : k = first
                  · subst hk
                    simp [look_directory_cons, hchild]
                  · simp [Ne.symm hk]
              | some child =>
                  simp only
                  rw [look_directory_cons, look_directory_cons, lookup_setEntry]
                  by_cases hk : k = first
                  · subst hk
                    simp [hchild, ih]
                  · simp [hk, Ne.symm hk]

end Node

end Swatchbook

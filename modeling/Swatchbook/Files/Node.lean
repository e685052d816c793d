/-!
Files and directories as values. The entries of a directory have names that tell them apart, which
is what `isWellFormed` says of all directories at and below a node; what is put, removed or moved
leaves it so.
-/
namespace Swatchbook

/-- A file with its contents, or a directory with its entries in no particular order. -/
inductive Node where
  | file (contents : List UInt8)
  | directory (entries : List (String × Node))
deriving Inhabited

namespace Node

def isDirectory : Node → Bool
  | directory _ => true
  | file _ => false

def isEntryName (name : String) : Bool :=
  name != "" && !name.toList.contains '/' && name != "." && name != ".."

theorem isEntryName_iff {name : String} :
    isEntryName name = true ↔ name ≠ "" ∧ '/' ∉ name.toList ∧ name ≠ "." ∧ name ≠ ".." := by
  simp only [isEntryName, Bool.and_eq_true, bne_iff_ne, Bool.not_eq_true',
    List.contains_eq_mem, decide_eq_false_iff_not, and_assoc]

mutual

/-- Whether the entries of every directory have names that tell them apart. -/
def isWellFormed : Node → Bool
  | file _ => true
  | directory es => areWellFormed es

def areWellFormed : List (String × Node) → Bool
  | [] => true
  | (name, n) :: r =>
    isEntryName name && !(r.map Prod.fst).contains name && n.isWellFormed && areWellFormed r

end

theorem isWellFormed_file (contents : List UInt8) : (file contents).isWellFormed = true :=
  rfl

theorem isWellFormed_directory_nil : (directory []).isWellFormed = true :=
  rfl

theorem isWellFormed_directory_cons {name : String} {n : Node} {es : List (String × Node)} :
    (directory ((name, n) :: es)).isWellFormed = true ↔
      isEntryName name = true ∧ name ∉ es.map Prod.fst ∧ n.isWellFormed = true ∧
        (directory es).isWellFormed = true := by
  rw [isWellFormed, isWellFormed, areWellFormed]
  simp only [Bool.and_eq_true, Bool.not_eq_true', List.contains_eq_mem, decide_eq_false_iff_not,
    and_assoc]

theorem isWellFormed_directory {es : List (String × Node)} :
    (directory es).isWellFormed = true ↔
      (es.map Prod.fst).Nodup ∧ ∀ e ∈ es, isEntryName e.1 = true ∧ e.2.isWellFormed = true := by
  induction es with
  | nil => exact iff_of_true rfl ⟨.nil, nofun⟩
  | cons e r ih =>
    rw [isWellFormed_directory_cons, ih, List.map_cons, List.nodup_cons, List.forall_mem_cons]
    exact ⟨fun ⟨hname, hnew, hn, hr, hall⟩ => ⟨⟨hnew, hr⟩, ⟨hname, hn⟩, hall⟩,
      fun ⟨⟨hnew, hr⟩, ⟨hname, hn⟩, hall⟩ => ⟨hname, hnew, hn, hr, hall⟩⟩

theorem isWellFormed_of_lookup {name : String} {n : Node} {es : List (String × Node)}
    (h : (directory es).isWellFormed = true) (hn : es.lookup name = some n) :
    isEntryName name = true ∧ n.isWellFormed = true := by
  obtain ⟨before, after, rfl, -⟩ := List.lookup_eq_some_iff.1 hn
  exact (isWellFormed_directory.1 h).2 _ (List.mem_append_right _ List.mem_cons_self)

def find? (n : Node) : List String → Option Node
  | [] => some n
  | name :: rest =>
    match n with
    | file _ => none
    | directory es =>
      match es.lookup name with
      | some child => child.find? rest
      | none => none

theorem isWellFormed_find? {root n : Node} {place : List String} (h : root.isWellFormed = true)
    (hn : root.find? place = some n) : n.isWellFormed = true := by
  induction place generalizing root with
  | nil =>
    cases hn
    exact h
  | cons name rest ih =>
    cases root with
    | file c => cases hn
    | directory es =>
      rw [find?] at hn
      cases hchild : es.lookup name with
      | none =>
        rw [hchild] at hn
        cases hn
      | some child =>
        rw [hchild] at hn
        exact ih (isWellFormed_of_lookup h hchild).2 hn

def setEntry (name : String) (n : Node) : List (String × Node) → List (String × Node)
  | [] => [(name, n)]
  | (k, v) :: r => if k = name then (k, n) :: r else (k, v) :: setEntry name n r

theorem mem_keys_setEntry {name k : String} {n : Node} {es : List (String × Node)}
    (h : k ∈ (setEntry name n es).map Prod.fst) : k = name ∨ k ∈ es.map Prod.fst := by
  induction es with
  | nil => exact .inl (List.mem_singleton.1 h)
  | cons e r ih =>
    rw [setEntry] at h
    split at h
    · exact .inr h
    · rcases List.mem_cons.1 h with rfl | h
      · exact .inr List.mem_cons_self
      · exact (ih h).imp_right (List.mem_cons_of_mem _)

theorem isWellFormed_setEntry {name : String} {n : Node} {es : List (String × Node)}
    (h : (directory es).isWellFormed = true) (hname : isEntryName name = true)
    (hn : n.isWellFormed = true) : (directory (setEntry name n es)).isWellFormed = true := by
  induction es with
  | nil => exact isWellFormed_directory_cons.2 ⟨hname, List.not_mem_nil, hn, h⟩
  | cons e r ih =>
    obtain ⟨he, hnew, hv, hr⟩ := isWellFormed_directory_cons.1 h
    rw [setEntry]
    split
    · exact isWellFormed_directory_cons.2 ⟨he, hnew, hn, hr⟩
    · next hne =>
      refine isWellFormed_directory_cons.2 ⟨he, fun hmem => ?_, hv, ih hr⟩
      exact (mem_keys_setEntry hmem).elim hne hnew

/-- Puts a node at a place whose parent is a directory. What is no name gets no entry. -/
def put (root : Node) (n : Node) : List String → Node
  | [] => n
  | name :: rest =>
    match root with
    | file c => file c
    | directory es =>
      match es.lookup name with
      | some child => directory (setEntry name (child.put n rest) es)
      | none =>
        if rest.isEmpty && isEntryName name then directory (setEntry name n es) else directory es

theorem isWellFormed_put {root n : Node} (h : root.isWellFormed = true) (hn : n.isWellFormed = true)
    (place : List String) : (root.put n place).isWellFormed = true := by
  induction place generalizing root with
  | nil => exact hn
  | cons name rest ih =>
    cases root with
    | file c => exact h
    | directory es =>
      rw [put]
      split
      · next child hchild =>
        obtain ⟨hname, hold⟩ := isWellFormed_of_lookup h hchild
        exact isWellFormed_setEntry h hname (ih hold)
      · split
        · next hnew => exact isWellFormed_setEntry h (Bool.and_eq_true_iff.1 hnew).2 hn
        · exact h

def remove (root : Node) : List String → Node
  | [] => root
  | [name] =>
    match root with
    | file c => file c
    | directory es => directory (es.filter fun e => e.1 != name)
  | name :: next :: rest =>
    match root with
    | file c => file c
    | directory es =>
      match es.lookup name with
      | some child => directory (setEntry name (child.remove (next :: rest)) es)
      | none => directory es

theorem isWellFormed_filter {es : List (String × Node)} (h : (directory es).isWellFormed = true)
    (p : String × Node → Bool) : (directory (es.filter p)).isWellFormed = true := by
  obtain ⟨hnodup, hall⟩ := isWellFormed_directory.1 h
  refine isWellFormed_directory.2 ⟨?_, fun e he => hall e (List.mem_filter.1 he).1⟩
  exact List.Pairwise.sublist (List.filter_sublist.map Prod.fst) hnodup

theorem isWellFormed_remove {root : Node} (h : root.isWellFormed = true) (place : List String) :
    (root.remove place).isWellFormed = true := by
  induction place generalizing root with
  | nil => exact h
  | cons name rest ih =>
    cases root with
    | file c => cases rest <;> exact h
    | directory es =>
      cases rest with
      | nil => exact isWellFormed_filter h _
      | cons next rest =>
        rw [remove]
        split
        · next child hchild =>
          obtain ⟨hname, hold⟩ := isWellFormed_of_lookup h hchild
          exact isWellFormed_setEntry h hname (ih hold)
        · exact h

def move (root : Node) (source target : List String) : Node :=
  match root.find? source with
  | none => root
  | some n => (root.remove source).put n target

theorem isWellFormed_move {root : Node} (h : root.isWellFormed = true)
    (source target : List String) : (root.move source target).isWellFormed = true := by
  rw [move]
  split
  · exact h
  · next n hn => exact isWellFormed_put (isWellFormed_remove h source) (isWellFormed_find? h hn) target

end Node

end Swatchbook

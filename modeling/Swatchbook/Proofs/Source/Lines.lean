import Mathlib.Data.List.Basic
import Swatchbook.Source.SourceFile

/-! Reading a text line by line: what stands between two fixed ends of a line, the
line at which a passage starts, the line at which it stops, and passages that all stop
at the same line. -/
namespace Swatchbook.Source

def Unbroken (s : String) : Prop :=
  '\n' ∉ s.toList ∧ '\r' ∉ s.toList

/-- The lines of a text that ends in a line feed. -/
def textLines (text : String) : List String :=
  ((Text.pieces '\n' text.toList).map String.ofList).dropLast

theorem textLines_contents {f : SourceFile} (h : ∀ l ∈ f.lines, Unbroken l) :
    textLines f.contents = f.lines := by
  have hpieces : ∀ ls : List String, (∀ l ∈ ls, Unbroken l) →
      Text.pieces '\n' (ls.flatMap fun l => l.toList ++ ['\n']) = ls.map String.toList ++ [[]] := by
    intro ls hls
    induction ls with
    | nil => rfl
    | cons l ls ih =>
        have hl := (hls l (List.mem_cons_self ..)).1
        rw [List.flatMap_cons, List.append_assoc, List.singleton_append, Text.pieces_append,
          Text.pieces_of_not_mem hl, ih fun k hk => hls k (List.mem_cons_of_mem _ hk)]
        rfl
  have htext : f.contents.toList = f.lines.flatMap fun l => l.toList ++ ['\n'] := by
    unfold SourceFile.contents
    rw [String.toList_join, List.flatMap_map]
    apply List.flatMap_congr
    intro l _
    exact String.toList_append
  unfold textLines
  rw [htext, hpieces f.lines h, List.map_append, List.map_map, List.map_singleton,
    List.dropLast_concat]
  simp

/-- What stands between a beginning and an end of a line. -/
def between (first last line : String) : Option String :=
  (first.toList.isPrefixOf? line.toList).bind fun rest =>
    (last.toList.isSuffixOf? rest).map String.ofList

@[simp] theorem between_append (first middle last : String) :
    between first last (first ++ middle ++ last) = some middle := by
  unfold between
  have hfirst : first.toList.isPrefixOf? (first ++ middle ++ last).toList =
      some (middle ++ last).toList := by
    rw [List.isPrefixOf?_eq_some_iff_append_eq]
    simp
  have hlast : last.toList.isSuffixOf? (middle ++ last).toList = some middle.toList := by
    rw [List.isSuffixOf?_eq_some_iff_append_eq]
    simp
  rw [hfirst, Option.bind_some, hlast, Option.map_some, String.ofList_toList]

def exactly (wanted line : String) : Option Unit :=
  if line = wanted then some () else none

@[simp] theorem exactly_self (line : String) : exactly line line = some () :=
  if_pos rfl

/-- What the first line that opens a passage tells, and the lines after it. -/
def after {α : Type} (opening : String → Option α) : List String → Option (α × List String)
  | [] => none
  | line :: rest =>
    match opening line with
    | some a => some (a, rest)
    | none => after opening rest

theorem after_cons {α : Type} {opening : String → Option α} {line : String} {a : α}
    (h : opening line = some a) (rest : List String) :
    after opening (line :: rest) = some (a, rest) := by
  rw [after, h]

theorem after_append {α : Type} {opening : String → Option α} {skipped : List String}
    (hskipped : ∀ line ∈ skipped, opening line = none) {line : String} {a : α}
    (hline : opening line = some a) (rest : List String) :
    after opening (skipped ++ line :: rest) = some (a, rest) := by
  induction skipped with
  | nil => exact after_cons hline rest
  | cons first skipped ih =>
      rw [List.cons_append, after, hskipped first (List.mem_cons_self ..)]
      exact ih fun l hl => hskipped l (List.mem_cons_of_mem _ hl)

def upTo (closing : String) : List String → Option (List String × List String)
  | [] => none
  | line :: rest =>
    if line = closing then some ([], rest)
    else (upTo closing rest).map fun r => (line :: r.1, r.2)

theorem upTo_append {closing : String} {body : List String} (h : closing ∉ body)
    (rest : List String) : upTo closing (body ++ closing :: rest) = some (body, rest) := by
  induction body with
  | nil => exact if_pos rfl
  | cons line body ih =>
      rw [List.mem_cons, not_or] at h
      rw [List.cons_append, upTo, if_neg (Ne.symm h.1), ih h.2]
      rfl

/-- The passages that stop at the same line, without that line. -/
def passages (closing : String) : List String → List (List String)
  | [] => []
  | line :: rest =>
    if line = closing then [] :: passages closing rest
    else
      match passages closing rest with
      | [] => []
      | first :: others => (line :: first) :: others

theorem passages_append {closing : String} {body : List String} (h : closing ∉ body)
    (rest : List String) :
    passages closing (body ++ closing :: rest) = body :: passages closing rest := by
  induction body with
  | nil => exact if_pos rfl
  | cons line body ih =>
      rw [List.mem_cons, not_or] at h
      rw [List.cons_append, passages, if_neg (Ne.symm h.1), ih h.2]

theorem passages_flatMap {α : Type} {closing : String} {body : α → List String} {xs : List α}
    (h : ∀ x ∈ xs, closing ∉ body x) :
    passages closing (xs.flatMap fun x => body x ++ [closing]) = xs.map body := by
  induction xs with
  | nil => rfl
  | cons x xs ih =>
      rw [List.flatMap_cons, List.append_assoc, List.singleton_append,
        passages_append (h x (List.mem_cons_self ..)),
        ih fun y hy => h y (List.mem_cons_of_mem _ hy)]
      rfl

def Begins (first line : String) : Prop :=
  first.toList <+: line.toList

instance (first line : String) : Decidable (Begins first line) :=
  inferInstanceAs (Decidable (_ <+: _))

theorem Begins.append {first line : String} (h : Begins first line) (rest : String) :
    Begins first (line ++ rest) := by
  unfold Begins
  rw [String.toList_append]
  exact h.trans (List.prefix_append _ _)

theorem Begins.line {first start : String} (h : Begins first start) (middle last : String) :
    Begins first (start ++ middle ++ last) :=
  (h.append middle).append last

theorem not_begins_append {first start : String} (h : ¬Begins first start)
    (h' : ¬Begins start first) (rest : String) : ¬Begins first (start ++ rest) := by
  intro hline
  unfold Begins at hline
  rw [String.toList_append] at hline
  rcases List.prefix_or_prefix_of_prefix hline (List.prefix_append _ _) with hfirst | hstart
  · exact h hfirst
  · exact h' hstart

theorem between_eq_none {first last line : String} (h : ¬Begins first line) :
    between first last line = none := by
  unfold between
  cases hrest : first.toList.isPrefixOf? line.toList with
  | none => rfl
  | some rest => exact absurd ⟨rest, List.isPrefixOf?_eq_some_iff_append_eq.1 hrest⟩ h

theorem ne_of_begins (first : String) {line closing : String} (h : Begins first line)
    (hclosing : ¬Begins first closing) : closing ≠ line := by
  rintro rfl
  exact hclosing h

theorem not_mem_of_begins (first : String) {closing : String} {ls : List String}
    (h : ∀ l ∈ ls, Begins first l) (hclosing : ¬Begins first closing) : closing ∉ ls :=
  fun hmem => hclosing (h closing hmem)

theorem mapM_map {α β γ : Type} {f : β → Option γ} {g : α → β} {k : α → γ} {xs : List α}
    (h : ∀ x ∈ xs, f (g x) = some (k x)) : (xs.map g).mapM f = some (xs.map k) := by
  induction xs with
  | nil => rfl
  | cons x xs ih =>
      rw [List.map_cons, List.mapM_cons, h x (List.mem_cons_self ..),
        ih fun y hy => h y (List.mem_cons_of_mem _ hy)]
      rfl

theorem mapM_zipWith {α β γ δ : Type} {f : γ → Option δ} {g : α → β → γ} {k : α → β → δ}
    (h : ∀ x y, f (g x y) = some (k x y)) (xs : List α) (ys : List β) :
    (List.zipWith g xs ys).mapM f = some (List.zipWith k xs ys) := by
  induction xs generalizing ys with
  | nil => rfl
  | cons x xs ih =>
      cases ys with
      | nil => rfl
      | cons y ys =>
          rw [List.zipWith_cons_cons, List.mapM_cons, h, ih]
          rfl

end Swatchbook.Source

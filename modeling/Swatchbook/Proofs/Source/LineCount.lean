import Swatchbook.Proofs.Except
import Swatchbook.Proofs.Source.Unbroken

/-! How long the emitted files are. No text of a theme adds a line, so the numbers of
themes and of roles settle it. -/
namespace Swatchbook.Source

theorem count_contents {f : SourceFile} (h : ∀ l ∈ f.lines, Unbroken l) :
    f.contents.toList.count '\n' = f.lines.length := by
  unfold SourceFile.contents
  generalize f.lines = ls at h
  induction ls with
  | nil => rfl
  | cons l ls ih =>
      rw [List.forall_mem_cons] at h
      rw [String.toList_join] at ih ⊢
      rw [List.map_cons, List.flatMap_cons, List.count_append, ih h.2, String.toList_append,
        List.count_append, List.count_eq_zero_of_not_mem h.1.1, List.length_cons, Nat.add_comm]
      rfl

theorem return_not_mem_contents {f : SourceFile} (h : ∀ l ∈ f.lines, Unbroken l) :
    '\r' ∉ f.contents.toList := by
  unfold SourceFile.contents
  rw [String.toList_join, List.mem_flatMap]
  rintro ⟨line, hline, hreturn⟩
  obtain ⟨l, hl, rfl⟩ := List.mem_map.1 hline
  rw [String.toList_append, List.mem_append] at hreturn
  rcases hreturn with hreturn | hreturn
  · exact (h l hl).2 hreturn
  · exact absurd hreturn (by decide)

theorem length_intercalate {k : Nat} {lss : List (List String)} (h : ∀ ls ∈ lss, ls.length = k) :
    (List.intercalate [""] lss).length = (k + 1) * lss.length - 1 := by
  induction lss with
  | nil => rfl
  | cons ls lss ih =>
      rw [List.forall_mem_cons] at h
      cases lss with
      | nil => simp [h.1]
      | cons next lss =>
          rw [List.intercalate_cons_cons, List.length_append, List.length_append, ih h.2, h.1]
          simp only [List.length_cons, List.length_nil, Nat.mul_add, Nat.add_mul]
          omega

theorem length_flatMap {α : Type} {k : Nat} {f : α → List String} {xs : List α}
    (h : ∀ x ∈ xs, (f x).length = k) : (xs.flatMap f).length = k * xs.length := by
  rw [List.length_flatMap, List.map_congr_left h, List.map_const', List.sum_replicate_nat,
    Nat.mul_comm]

def typeLength (roles : Nat) : Nat :=
  7 + (4 * roles - 1)

def colorsLength (themes roles : Nat) : Nat :=
  37 + 2 * roles + typeLength roles * themes

def infoLength (roles : Nat) : Nat :=
  7 + if roles = 0 then 1 else roles + 2

def registryLength (themes roles : Nat) : Nat :=
  84 + 5 * themes + infoLength roles * themes

theorem length_themeTypeLines {roles : List Role} {e : Entry} (h : e.colors.length = roles.length) :
    (themeTypeLines roles e).length = typeLength roles.length := by
  have hmethods : ∀ ls ∈ List.zipWith methodLines roles e.colors, ls.length = 3 :=
    forall_mem_zipWith fun _ _ _ => rfl
  have hblock := length_intercalate hmethods
  rw [List.length_zipWith, h, Nat.min_self] at hblock
  simp only [themeTypeLines, List.length_append, hblock, typeLength, List.length_cons,
    List.length_nil]
  omega

theorem length_colorsFile {p : Plan} (h : ∀ e ∈ p.entries, e.colors.length = p.roles.length) :
    (colorsFile p).lines.length = colorsLength p.entries.length p.roles.length := by
  have htrait : (p.roles.flatMap traitLines).length = 2 * p.roles.length :=
    length_flatMap fun _ _ => rfl
  have htypes := length_flatMap fun e he => length_themeTypeLines (h e he)
  simp only [colorsFile, List.length_append, htrait, htypes, colorsLength, headLines, colorTypeLines,
    List.length_cons, List.length_nil]
  omega

theorem length_infoLines {roles : List Role} {e : Entry} (h : e.colors.length = roles.length) :
    (infoLines roles e).length = infoLength roles.length := by
  have hroles : (rolesLines roles e.colors).length =
      if roles.length = 0 then 1 else roles.length + 2 := by
    unfold rolesLines
    cases roles with
    | nil => rfl
    | cons r roles =>
        have hsome : (r :: roles).length ≠ 0 := Nat.succ_ne_zero _
        rw [List.isEmpty_cons, if_neg Bool.false_ne_true, if_neg hsome, List.length_append,
          List.length_append, List.length_zipWith, h, Nat.min_self, List.length_singleton,
          List.length_singleton]
        omega
  simp only [infoLines, List.length_append, hroles, infoLength, List.length_cons, List.length_nil]
  omega

theorem length_enumLines (es : List Entry) : (enumLines es).length = 21 + 5 * es.length := by
  have hvariants : (es.flatMap variantLines).length = 2 * es.length := length_flatMap fun _ _ => rfl
  simp only [enumLines, textFunctionLines, List.length_append, List.length_map, hvariants,
    List.length_cons, List.length_nil]
  omega

theorem length_registryFile {p : Plan} (h : ∀ e ∈ p.entries, e.colors.length = p.roles.length) :
    (registryFile p).lines.length = registryLength p.entries.length p.roles.length := by
  have hinfo := length_flatMap fun e he => length_infoLines (h e he)
  simp only [registryFile, List.length_append, hinfo, length_enumLines, registryLength, headLines,
    paletteLines, lookupLines, List.length_cons, List.length_nil]
  omega

/-- The numbers of line feeds of both files. -/
def lineFeeds (files : List SourceFile) : List Nat :=
  files.map fun f => f.contents.toList.count '\n'

theorem emit_lineFeeds {text : String} {s : ThemeSet} {ns : Namespace} {files : List SourceFile}
    (hns : Namespace.parse text = .ok ns) (h : emit s ns = .ok files) :
    lineFeeds files = [colorsLength s.themes.length s.roleNames.length,
      registryLength s.themes.length s.roleNames.length] := by
  obtain ⟨p, hplan, rfl⟩ := emit_eq_ok h
  have hlegible := legible_of_build hns hplan
  obtain ⟨-, hroles, hentries⟩ := Plan.build_eq_ok hplan
  have hcolors : ∀ e ∈ p.entries, e.colors.length = p.roles.length := by
    intro e he
    obtain ⟨t, -, ht⟩ := exists_of_forall₂ hentries he
    exact ht.colors.length_eq.symm
  rw [lineFeeds, List.map_cons, List.map_cons, List.map_nil,
    count_contents (unbroken_colorsFile hlegible), count_contents (unbroken_registryFile hlegible),
    length_colorsFile hcolors,
    length_registryFile hcolors, hroles.length_eq, hentries.length_eq]

/-- Emitted files hold no carriage return, and a number of line feeds that depends on the
number of themes and the number of roles only: another set with as many of both gives
files with as many lines. -/
theorem emitted_lines_counted {text : String} {s : ThemeSet} {ns : Namespace}
    {files : List SourceFile} (hns : Namespace.parse text = .ok ns) (h : emit s ns = .ok files) :
    (∀ f ∈ files, '\r' ∉ f.contents.toList) ∧
      lineFeeds files = [colorsLength s.themes.length s.roleNames.length,
        registryLength s.themes.length s.roleNames.length] ∧
      ∀ text' s' ns' files', Namespace.parse text' = .ok ns' → emit s' ns' = .ok files' →
        s'.themes.length = s.themes.length → s'.roleNames.length = s.roleNames.length →
          lineFeeds files' = lineFeeds files := by
  have hcount := emit_lineFeeds hns h
  refine ⟨?_, hcount, ?_⟩
  · obtain ⟨p, hplan, rfl⟩ := emit_eq_ok h
    have hlegible := legible_of_build hns hplan
    simp only [List.forall_mem_cons]
    exact ⟨return_not_mem_contents (unbroken_colorsFile hlegible),
      return_not_mem_contents (unbroken_registryFile hlegible), by simp⟩
  · intro text' s' ns' files' hns' h' hthemes hroles
    rw [hcount, emit_lineFeeds hns' h', hthemes, hroles]

def brokenLines : ThemeSet :=
  ⟨[⟨"Dawn\r\n// pub fn", "DAWN", .ofList [("on\nprimary", "#FFFFFF")], none⟩]⟩

def wholeLines : ThemeSet :=
  ⟨[⟨"Dusk", "DUSK", .ofList [("primary", "#000")], none⟩]⟩

theorem brokenLines_counted :
    ∃ files files', emit brokenLines ⟨["app"]⟩ = .ok files ∧ emit wholeLines ⟨["app"]⟩ = .ok files' ∧
      (∀ f ∈ files, '\r' ∉ f.contents.toList) ∧ lineFeeds files = [49, 99] ∧
      lineFeeds files' = lineFeeds files := by
  have hns : Namespace.parse "app" = .ok ⟨["app"]⟩ := by rfl
  have hbroken : (emit brokenLines ⟨["app"]⟩).isOk = true := by decide +kernel
  have hwhole : (emit wholeLines ⟨["app"]⟩).isOk = true := by decide +kernel
  obtain ⟨files, hfiles⟩ := exists_of_isOk hbroken
  obtain ⟨files', hfiles'⟩ := exists_of_isOk hwhole
  obtain ⟨hreturns, hcount, hother⟩ := emitted_lines_counted hns hfiles
  exact ⟨files, files', hfiles, hfiles', hreturns, hcount, hother _ _ _ _ hns hfiles' rfl rfl⟩

end Swatchbook.Source

import Swatchbook.Proofs.Source.Registry

/-! The file of colors read back, part by part. -/
namespace Swatchbook.Source

theorem exactly_eq_none {wanted line : String} (h : line ≠ wanted) : exactly wanted line = none :=
  if_neg h

theorem isDoc_eq_false {line : String} (h : ¬Begins "    ///" line) : isDoc line = false := by
  unfold isDoc
  rw [← Bool.not_eq_true, List.isPrefixOf_iff_prefix]
  exact h

theorem begins_traitLines (r : Role) : ∀ l ∈ traitLines r, Begins "    " l := by
  simp only [traitLines, List.forall_mem_cons]
  exact ⟨Begins.append (by decide) _, Begins.line (by decide) _ _, by simp⟩

theorem filter_traitLines (roles : List Role) :
    (roles.flatMap traitLines).filter (fun l => !isDoc l) =
      roles.map fun r => "    fn " ++ r.property ++ "(&self) -> Color;" := by
  have hrole : ∀ r ∈ roles, (traitLines r).filter (fun l => !isDoc l) =
      ["    fn " ++ r.property ++ "(&self) -> Color;"] := by
    intro r _
    have hdoc : isDoc ("    fn " ++ r.property ++ "(&self) -> Color;") = false := by
      apply isDoc_eq_false
      rw [String.append_assoc]
      exact not_begins_append (by decide) (by decide) _
    unfold traitLines
    rw [List.filter_cons_of_neg (by simp [isDoc_docLine]), List.filter_cons_of_pos (by simp [hdoc]),
      List.filter_nil]
  rw [List.filter_flatMap, List.flatMap_congr hrole, List.map_eq_flatMap]

def methodBody (r : Role) (color : UInt32) : List String :=
  ["    fn " ++ r.property ++ "(&self) -> Color \x7b", "        " ++ colorValue color]

theorem begins_methodBody (r : Role) (color : UInt32) :
    ∀ l ∈ methodBody r color, Begins "    fn " l ∨ Begins "        " l := by
  simp only [methodBody, List.forall_mem_cons]
  exact ⟨Or.inl (Begins.line (by decide) _ _),
    Or.inr (Begins.append (by decide) _), by simp⟩

theorem not_mem_methodLines {closing : String} (hsignature : ¬Begins "    fn " closing)
    (hvalue : ¬Begins "        " closing) (hlast : closing ≠ "    \x7d") (r : Role)
    (color : UInt32) : closing ∉ methodLines r color := by
  intro hmem
  have hlines : methodLines r color = methodBody r color ++ ["    \x7d"] := rfl
  rw [hlines, List.mem_append, List.mem_singleton] at hmem
  rcases hmem with hmem | heq
  · rcases begins_methodBody r color closing hmem with hbegins | hbegins
    · exact hsignature hbegins
    · exact hvalue hbegins
  · exact hlast heq

theorem filter_intercalate {lss : List (List String)} (h : ∀ ls ∈ lss, "" ∉ ls) :
    (List.intercalate [""] lss).filter (· ≠ "") = lss.flatten := by
  have hfilter : ∀ ls : List String, "" ∉ ls → ls.filter (· ≠ "") = ls := by
    intro ls hls
    rw [List.filter_eq_self]
    intro l hl
    rw [decide_eq_true_eq]
    rintro rfl
    exact hls hl
  induction lss with
  | nil => rfl
  | cons ls lss ih =>
      rw [List.forall_mem_cons] at h
      cases lss with
      | nil =>
          rw [List.intercalate_singleton, hfilter ls h.1]
          simp
      | cons next lss =>
          rw [List.intercalate_cons_cons, List.filter_append, List.filter_append, ih h.2,
            hfilter ls h.1]
          simp

theorem readMethod_methodBody (r : Role) (color : UInt32) :
    readMethod (methodBody r color) = some (r.property, color) := by
  have hvalue := between_append "        " (colorValue color) ""
  rw [String.append_empty] at hvalue
  unfold readMethod methodBody
  simp only [Option.bind_eq_bind, Option.bind_some, between_append, hvalue, readColor_colorValue]
  rfl

theorem readMethods (roles : List Role) (colors : List UInt32) :
    (passages "    \x7d" ((List.intercalate [""]
        (List.zipWith methodLines roles colors)).filter (· ≠ ""))).mapM readMethod =
      some (List.zipWith (fun r c => (r.property, c)) roles colors) := by
  have hblank : ∀ ls ∈ List.zipWith methodLines roles colors, "" ∉ ls := by
    apply forall_mem_zipWith
    exact fun r _ color => not_mem_methodLines (by decide) (by decide) (by decide) r color
  have hflat : (List.zipWith methodLines roles colors).flatten =
      (roles.zip colors).flatMap fun x => methodBody x.1 x.2 ++ ["    \x7d"] := by
    have hzip : (roles.zip colors).map (fun x => methodBody x.1 x.2 ++ ["    \x7d"]) =
        List.zipWith methodLines roles colors := List.map_zip_eq_zipWith
    rw [List.flatMap, hzip]
  have hclosing : ∀ x ∈ roles.zip colors, "    \x7d" ∉ methodBody x.1 x.2 := by
    intro x _ hmem
    rcases begins_methodBody x.1 x.2 _ hmem with hbegins | hbegins
    · exact absurd hbegins (by decide)
    · exact absurd hbegins (by decide)
  have hread : ((roles.zip colors).map fun x => methodBody x.1 x.2).mapM readMethod =
      some ((roles.zip colors).map fun x => (x.1.property, x.2)) :=
    mapM_map fun x _ => readMethod_methodBody x.1 x.2
  rw [filter_intercalate hblank, hflat, passages_flatMap hclosing, hread,
    List.map_zip_eq_zipWith]
  rfl

/-- The lines of a theme's type but for the last, which closes it. -/
def typeBody (roles : List Role) (e : Entry) : List String :=
  "" :: docLine "" e.displayName :: deriveLine :: ("pub struct " ++ e.typeName ++ ";") :: "" ::
    ("impl ThemeColors for " ++ e.typeName ++ " \x7b") ::
      List.intercalate [""] (List.zipWith methodLines roles e.colors)

theorem themeTypeLines_eq (roles : List Role) (e : Entry) :
    themeTypeLines roles e = typeBody roles e ++ ["\x7d"] := by
  simp [themeTypeLines, typeBody]

theorem closing_not_mem_typeBody (roles : List Role) (e : Entry) : "\x7d" ∉ typeBody roles e := by
  have hmethods : ∀ ls ∈ List.zipWith methodLines roles e.colors, ∀ l ∈ ls, "\x7d" ≠ l := by
    apply forall_mem_zipWith
    rintro r _ color l hl rfl
    exact not_mem_methodLines (by decide) (by decide) (by decide) r color hl
  have hblock := forall_mem_intercalate (by decide) hmethods
  unfold typeBody
  simp only [List.mem_cons, not_or]
  refine ⟨by decide, ?_, by decide, ?_, by decide, ?_, fun hmem => hblock _ hmem rfl⟩
  · exact ne_of_begins "/// " (Begins.append (by decide) _) (by decide)
  · exact ne_of_begins "pub " (Begins.line (by decide) _ _) (by decide)
  · exact ne_of_begins "impl " (Begins.line (by decide) _ _) (by decide)

def Entry.toType (roles : List Role) (e : Entry) : TypeText :=
  ⟨e.typeName, e.typeName, List.zipWith (fun r c => (r.property, c)) roles e.colors⟩

theorem readType_typeBody (roles : List Role) (e : Entry) :
    readType (typeBody roles e) = some (e.toType roles) := by
  unfold readType typeBody
  simp only [between_append, Option.bind_eq_bind, Option.bind_some, readMethods]
  rfl

def Plan.toColors (p : Plan) : ColorsText where
  properties := p.roles.map Role.property
  types := p.entries.map (Entry.toType p.roles)

theorem readColors_colorsFile {p : Plan} (h : Legible p) :
    readColors (colorsFile p).contents = some p.toColors := by
  have hlines : (colorsFile p).lines =
      (headLines p ++ colorTypeLines ++ ["", "/// Color roles every generated theme provides.",
        "#[allow(non_snake_case)]"]) ++
      "pub trait ThemeColors: Sync \x7b" :: (p.roles.flatMap traitLines ++ "\x7d" ::
        p.entries.flatMap (themeTypeLines p.roles)) := by
    simp [colorsFile]
  have hskipped : ∀ l ∈ headLines p ++ colorTypeLines ++
      ["", "/// Color roles every generated theme provides.", "#[allow(non_snake_case)]"],
      exactly "pub trait ThemeColors: Sync \x7b" l = none := by
    simp only [List.forall_mem_append]
    refine ⟨⟨?_, by decide +kernel⟩, by decide +kernel⟩
    simp only [headLines, List.forall_mem_cons]
    refine ⟨by decide +kernel, exactly_eq_none ?_, by decide +kernel, by simp⟩
    exact (ne_of_begins "// " (Begins.append (by decide) _) (by decide)).symm
  have htrait : "\x7d" ∉ p.roles.flatMap traitLines :=
    not_mem_of_begins "    " (List.forall_mem_flatMap.2 fun r _ => begins_traitLines r) (by decide)
  have hproperties : (p.roles.map fun r => "    fn " ++ r.property ++ "(&self) -> Color;").mapM
      (between "    fn " "(&self) -> Color;") = some (p.roles.map Role.property) :=
    mapM_map fun r _ => between_append ..
  have hpassages : passages "\x7d" (p.entries.flatMap (themeTypeLines p.roles)) =
      p.entries.map (typeBody p.roles) := by
    rw [List.flatMap_congr fun e _ => themeTypeLines_eq p.roles e]
    exact passages_flatMap fun e _ => closing_not_mem_typeBody p.roles e
  have htypes : (p.entries.map (typeBody p.roles)).mapM readType =
      some (p.entries.map (Entry.toType p.roles)) :=
    mapM_map fun e _ => readType_typeBody p.roles e
  unfold readColors
  rw [textLines_contents (unbroken_colorsFile h), hlines, after_append hskipped (exactly_self _)]
  simp only [Option.bind_eq_bind, Option.bind_some, upTo_append htrait, filter_traitLines,
    hproperties, hpassages, htypes]
  rfl

end Swatchbook.Source

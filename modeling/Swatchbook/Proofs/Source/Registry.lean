import Swatchbook.Proofs.Source.Reader
import Swatchbook.Proofs.Source.Unbroken

/-! The registry read back, part by part. -/
namespace Swatchbook.Source

theorem not_mem_of_plain {s : String} (h : Plain s) {c : Char} (hascii : c.toNat < 0x80)
    (hpart : isIdentifierPart c = false) (hmark : c ≠ '#') : c ∉ s.toList := by
  intro hc
  rcases h c hc hascii with htrue | heq
  · rw [hpart] at htrue
    cases htrue
  · exact hmark heq

theorem readSegments_toText {ns : Namespace} (hne : ns.segments ≠ [])
    (h : ∀ segment ∈ ns.segments, isIdentifier segment = true) :
    readSegments ns.toText = ns.segments := by
  have hpieces := Text.piecesAtPairs_join (by simpa using hne) (not_mem_segment h (c := ':') (by decide))
  rw [readSegments, Namespace.toText, Text.toList_intercalate]
  change (Text.piecesAtPairs ':' (Text.join [':', ':'] _)).map String.ofList = _
  rw [hpieces]
  simp

theorem readColor_colorValue (n : UInt32) : readColor (colorValue n) = some n := by
  unfold readColor colorValue
  rw [between_append, Option.bind_some, String.toList_ofList, Text.readWord_hexWord]

theorem append_middle (a b c d : String) : a ++ b ++ c ++ d = a ++ (b ++ c ++ d) := by
  simp only [String.append_assoc]

section Enum

variable {es : List Entry} {skipped : List String}

theorem begins_docLine (text : String) : Begins "    ///" (docLine "    " text) :=
  Begins.append (by decide) _

theorem begins_variantLines (e : Entry) : ∀ l ∈ variantLines e, Begins "    " l := by
  simp only [variantLines, List.forall_mem_cons]
  exact ⟨Begins.append (by decide) _, Begins.line (by decide) _ _, by simp⟩

theorem isDoc_docLine (text : String) : isDoc (docLine "    " text) = true :=
  List.isPrefixOf_iff_prefix.2 (begins_docLine text)

theorem isDoc_variant {name : String} (h : Plain name) : isDoc ("    " ++ name ++ ",") = false := by
  have hslash := not_mem_of_plain h (by decide : '/'.toNat < 0x80) (by decide) (by decide)
  unfold isDoc
  rw [String.toList_append, String.toList_append]
  cases hname : name.toList with
  | nil => decide
  | cons c cs =>
      rw [hname, List.mem_cons, not_or] at hslash
      have hhead : ('/' == c) = false := beq_false_of_ne hslash.1
      change (('/' == c) && _) = false
      rw [hhead, Bool.false_and]

theorem readEnum_append (h : ∀ e ∈ es, Plain e.variant)
    (hskipped : ∀ l ∈ skipped, exactly "pub enum ThemeId \x7b" l = none) (rest : List String) :
    readEnum (skipped ++ "pub enum ThemeId \x7b" :: (es.flatMap variantLines ++ "\x7d" :: rest)) =
      some (es.map Entry.variant, rest) := by
  have hbody : "\x7d" ∉ es.flatMap variantLines :=
    not_mem_of_begins "    " (List.forall_mem_flatMap.2 fun e _ => begins_variantLines e) (by decide)
  have hfilter : (es.flatMap variantLines).filter (fun l => !isDoc l) =
      es.map fun e => "    " ++ e.variant ++ "," := by
    have hentry : ∀ e ∈ es, (variantLines e).filter (fun l => !isDoc l) =
        ["    " ++ e.variant ++ ","] := by
      intro e he
      unfold variantLines
      rw [List.filter_cons_of_neg (by simp [isDoc_docLine]),
        List.filter_cons_of_pos (by simp [isDoc_variant (h e he)]), List.filter_nil]
    rw [List.filter_flatMap, List.flatMap_congr hentry, List.map_eq_flatMap]
  unfold readEnum
  rw [after_append hskipped (exactly_self _)]
  simp only [Option.bind_eq_bind, Option.bind_some, upTo_append hbody, hfilter]
  rw [mapM_map (k := Entry.variant) fun e _ => between_append ..]
  rfl

theorem readAll_append
    (hskipped : ∀ l ∈ skipped, between "    pub const ALL: [ThemeId; " "] = [" l = none)
    (n : Nat) (rest : List String) :
    readAll (skipped ++ ("    pub const ALL: [ThemeId; " ++ toString n ++ "] = [") ::
        (es.map allLine ++ "    ];" :: rest)) =
      some ((n, es.map Entry.variant), rest) := by
  have hbody : "    ];" ∉ es.map allLine := by
    apply not_mem_of_begins "        " _ (by decide)
    rw [List.forall_mem_map]
    exact fun e _ => Begins.line (by decide) _ _
  unfold readAll
  rw [after_append hskipped (between_append ..)]
  have hlines : (es.map allLine).mapM (between "        ThemeId::" ",") =
      some (es.map Entry.variant) := mapM_map fun e _ => between_append ..
  simp only [Option.bind_eq_bind, Option.bind_some, upTo_append hbody, Text.readCount_toString,
    hlines]
  rfl

theorem readArm_armLine {text : Entry → String} {e : Entry} (h : Plain e.variant) :
    readArm (armLine text e) = some (e.variant, text e) := by
  have hspace := not_mem_of_plain h (by decide : ' '.toNat < 0x80) (by decide) (by decide)
  have hline : armLine text e =
      "            ThemeId::" ++ (e.variant ++ " => " ++ Text.quote (text e)) ++ "," :=
    congrArg (· ++ ",") (append_middle ..)
  have harm : (e.variant ++ " => " ++ Text.quote (text e)).toList =
      e.variant.toList ++ ' ' :: (['=', '>', ' '] ++ (Text.quote (text e)).toList) := by
    rw [String.toList_append, String.toList_append, List.append_assoc,
      show " => ".toList = [' ', '=', '>', ' '] by decide]
    rfl
  have harrow : ['=', '>', ' '].isPrefixOf? (['=', '>', ' '] ++ (Text.quote (text e)).toList) =
      some (Text.quote (text e)).toList := List.isPrefixOf?_eq_some_iff_append_eq.2 rfl
  have hquote := Text.readQuoted_quote (text e) []
  rw [List.append_nil] at hquote
  unfold readArm
  rw [hline, between_append]
  simp only [Option.bind_eq_bind, Option.bind_some, harm, Text.cut?_append hspace, harrow, hquote,
    ↓reduceIte, String.ofList_toList]
  rfl

theorem readFunction_append {name : String} {text : Entry → String}
    (h : ∀ e ∈ es, Plain e.variant)
    (hskipped : ∀ l ∈ skipped,
      exactly ("    pub const fn " ++ name ++ "(self) -> &'static str \x7b") l = none)
    (rest : List String) :
    readFunction name (skipped ++ (textFunctionLines name text es ++ rest)) =
      some (es.map fun e => (e.variant, text e), rest) := by
  have hbody : "        \x7d" ∉ es.map (armLine text) := by
    apply not_mem_of_begins "            " _ (by decide)
    rw [List.forall_mem_map]
    exact fun e _ => Begins.line (Begins.line (by decide) _ _) _ _
  have hopening := after_cons (exactly_self "        match self \x7b")
  have hclosing := after_cons (exactly_self "    \x7d") rest
  unfold readFunction textFunctionLines
  simp only [List.append_assoc, List.cons_append, List.nil_append] at hopening ⊢
  rw [after_append hskipped (exactly_self _)]
  simp only [Option.bind_eq_bind, Option.bind_some, hopening, upTo_append hbody, hclosing]
  rw [mapM_map (k := fun e => (e.variant, text e)) fun e he => readArm_armLine (h e he)]
  rfl

end Enum

section Table

variable {roles : List Role} {e : Entry}

theorem readRole_paletteLine (r : Role) (color : UInt32) :
    readRole (paletteLine r color) = some (r.name, color) := by
  have hline : paletteLine r color =
      "                (" ++ (Text.quote r.name ++ ", " ++ colorValue color) ++ ")," :=
    congrArg (· ++ "),") (append_middle ..)
  have hentry : (Text.quote r.name ++ ", " ++ colorValue color).toList =
      (Text.quote r.name).toList ++ ([',', ' '] ++ (colorValue color).toList) := by
    rw [String.toList_append, String.toList_append, List.append_assoc,
      show ", ".toList = [',', ' '] by decide]
  have hcomma : [',', ' '].isPrefixOf? ([',', ' '] ++ (colorValue color).toList) =
      some (colorValue color).toList := List.isPrefixOf?_eq_some_iff_append_eq.2 rfl
  unfold readRole
  rw [hline, between_append]
  simp only [Option.bind_eq_bind, Option.bind_some, hentry, Text.readQuoted_quote, hcomma,
    String.ofList_toList, readColor_colorValue]
  rfl

theorem begins_paletteLine {first : String} (h : Begins first "                (") (r : Role)
    (color : UInt32) : Begins first (paletteLine r color) :=
  Begins.line (Begins.line h _ _) _ _

theorem readPalette_rolesLines (roles : List Role) (colors : List UInt32) :
    readPalette (rolesLines roles colors ++ ["        \x7d,"]) =
      some (List.zipWith (fun r c => (r.name, c)) roles colors) := by
  cases roles with
  | nil => rfl
  | cons r rest =>
      have hbody : "            ]," ∉ List.zipWith paletteLine (r :: rest) colors := by
        apply not_mem_of_begins "                " _ (by decide)
        apply forall_mem_zipWith
        exact fun s _ color => begins_paletteLine (by decide) s color
      have hroles := mapM_zipWith readRole_paletteLine (r :: rest) colors
      unfold readPalette rolesLines
      simp only [List.isEmpty_cons, Bool.false_eq_true, ↓reduceIte, List.cons_append,
        List.nil_append, List.append_assoc]
      rw [if_neg (by decide), upTo_append hbody]
      simp only [Option.bind_eq_bind, Option.bind_some, ↓reduceIte, hroles]

def infoBody (roles : List Role) (e : Entry) : List String :=
  ["    ThemeInfo \x7b", "        id: ThemeId::" ++ e.variant ++ ",",
    "        display_name: " ++ Text.quote e.displayName ++ ",",
    "        colors: &theme_colors::" ++ e.typeName ++ ",",
    "        palette: ThemePalette \x7b"] ++ (rolesLines roles e.colors ++ ["        \x7d,"])

theorem infoLines_eq (roles : List Role) (e : Entry) :
    infoLines roles e = infoBody roles e ++ ["    \x7d,"] := by
  simp [infoLines, infoBody]

theorem begins_rolesLines (roles : List Role) (colors : List UInt32) :
    ∀ l ∈ rolesLines roles colors, Begins "        " l := by
  unfold rolesLines
  split
  · decide
  · simp only [List.forall_mem_append, List.forall_mem_singleton]
    refine ⟨⟨by decide, ?_⟩, by decide⟩
    apply forall_mem_zipWith
    exact fun r _ color => begins_paletteLine (by decide) r color

theorem begins_infoBody (roles : List Role) (e : Entry) :
    ∀ l ∈ infoBody roles e, l = "    ThemeInfo \x7b" ∨ Begins "        " l := by
  unfold infoBody
  simp only [List.forall_mem_append, List.forall_mem_cons]
  refine ⟨⟨Or.inl trivial, ?_, ?_, ?_, Or.inr (by decide), by simp⟩, ?_, Or.inr (by decide), by simp⟩
  · exact Or.inr (Begins.line (by decide) _ _)
  · exact Or.inr (Begins.line (by decide) _ _)
  · exact Or.inr (Begins.line (by decide) _ _)
  · exact fun l hl => Or.inr (begins_rolesLines roles e.colors l hl)

theorem not_mem_infoBody {closing : String} (hfirst : closing ≠ "    ThemeInfo \x7b")
    (hrest : ¬Begins "        " closing) (roles : List Role) (e : Entry) :
    closing ∉ infoBody roles e := by
  intro hmem
  rcases begins_infoBody roles e closing hmem with heq | hbegins
  · exact hfirst heq
  · exact hrest hbegins

def Entry.toInfo (roles : List Role) (e : Entry) : InfoText :=
  ⟨e.variant, e.displayName, e.typeName, List.zipWith (fun r c => (r.name, c)) roles e.colors⟩

theorem readInfo_infoBody (roles : List Role) (e : Entry) :
    readInfo (infoBody roles e) = some (e.toInfo roles) := by
  have hquote := Text.readQuoted_quote e.displayName []
  rw [List.append_nil] at hquote
  unfold readInfo infoBody
  simp only [List.cons_append, List.nil_append, and_self, ↓reduceIte, between_append,
    Option.bind_eq_bind, Option.bind_some, hquote, readPalette_rolesLines]
  rfl

theorem readThemes_append {es : List Entry} {skipped : List String}
    (hskipped : ∀ l ∈ skipped, between "pub static THEMES: [ThemeInfo; " "] = [" l = none)
    (n : Nat) (rest : List String) :
    readThemes (skipped ++ ("pub static THEMES: [ThemeInfo; " ++ toString n ++ "] = [") ::
        (es.flatMap (infoLines roles) ++ "];" :: rest)) =
      some (n, es.map (Entry.toInfo roles)) := by
  have hbody : "];" ∉ es.flatMap (infoLines roles) := by
    rw [List.mem_flatMap]
    rintro ⟨e, -, hmem⟩
    rw [infoLines_eq, List.mem_append, List.mem_singleton] at hmem
    rcases hmem with hmem | heq
    · exact not_mem_infoBody (by decide) (by decide) roles e hmem
    · exact absurd heq (by decide)
  have hpassages : passages "    \x7d," (es.flatMap (infoLines roles)) = es.map (infoBody roles) := by
    rw [List.flatMap_congr fun e _ => infoLines_eq roles e]
    exact passages_flatMap fun e _ => not_mem_infoBody (by decide) (by decide) roles e
  have hinfos : (es.map (infoBody roles)).mapM readInfo = some (es.map (Entry.toInfo roles)) :=
    mapM_map fun e _ => readInfo_infoBody roles e
  unfold readThemes
  rw [after_append hskipped (between_append ..)]
  simp only [Option.bind_eq_bind, Option.bind_some, upTo_append hbody, Text.readCount_toString,
    hpassages, hinfos]
  rfl

end Table

def Plan.toRegistry (p : Plan) : RegistryText where
  segments := p.ns.segments
  variants := p.entries.map Entry.variant
  allCount := p.entries.length
  all := p.entries.map Entry.variant
  identifiers := p.entries.map fun e => (e.variant, e.identifier)
  displayNames := p.entries.map fun e => (e.variant, e.displayName)
  themeCount := p.entries.length
  themes := p.entries.map (Entry.toInfo p.roles)

theorem readRegistry_registryFile {p : Plan} (h : Legible p) :
    readRegistry (registryFile p).contents = some p.toRegistry := by
  have hlines : (registryFile p).lines =
      headLines p ++
        ("use crate::" ++ p.ns.toText ++ "::theme_colors::\x7bself, Color, ThemeColors\x7d;") ::
        (["", "/// Identifier of every generated theme, in registry order.",
          "#[allow(non_camel_case_types)]",
          "#[derive(Debug, Clone, Copy, PartialEq, Eq, Hash, PartialOrd, Ord)]"] ++
        "pub enum ThemeId \x7b" :: (p.entries.flatMap variantLines ++ "\x7d" ::
        (["", "impl ThemeId \x7b"] ++
        ("    pub const ALL: [ThemeId; " ++ toString p.entries.length ++ "] = [") ::
          (p.entries.map allLine ++ "    ];" ::
        ([""] ++ (textFunctionLines "identifier" Entry.identifier p.entries ++
        ([""] ++ (textFunctionLines "display_name" Entry.displayName p.entries ++
        ((["\x7d", ""] ++ paletteLines ++ ["", "/// Indexed by `ThemeId as usize`."]) ++
        ("pub static THEMES: [ThemeInfo; " ++ toString p.entries.length ++ "] = [") ::
          (p.entries.flatMap (infoLines p.roles) ++ "];" :: ("" :: lookupLines))))))))))) := by
    simp [registryFile, enumLines]
  have hhead : ∀ l ∈ headLines p,
      between "use crate::" "::theme_colors::\x7bself, Color, ThemeColors\x7d;" l = none := by
    simp only [headLines, List.forall_mem_cons]
    refine ⟨between_eq_none (by decide), between_eq_none ?_, between_eq_none (by decide), by simp⟩
    exact not_begins_append (by decide) (by decide) _
  unfold readRegistry
  rw [textLines_contents (unbroken_registryFile h), hlines, after_append hhead (between_append ..)]
  simp only [Option.bind_eq_bind, Option.bind_some]
  rw [readEnum_append h.variants (by decide +kernel), Option.bind_some,
    readAll_append (by decide +kernel), Option.bind_some,
    readFunction_append h.variants (by decide +kernel), Option.bind_some,
    readFunction_append h.variants (by decide +kernel), Option.bind_some,
    readThemes_append (by decide +kernel), Option.bind_some,
    readSegments_toText h.segments_ne h.segments]
  rfl

end Swatchbook.Source

import Swatchbook.Proofs.Source.Colors

/-! What the emitted files say of the themes they were made from. Both files list the
themes and the roles in order, and agree in every color; with the names and colors that
they hold, the themes can be told again. -/
namespace Swatchbook.Source

structure Written where
  identifier : String
  displayName : String
  variant : String
  typeName : String
  palette : List (String × UInt32)
  methods : List (String × UInt32)

def Packs (t : Theme) (role : String) (color : UInt32) : Prop :=
  ∃ value, t.color? role = some value ∧ Hex.pack value = .ok color

/-- What is written is that of this theme: its names, and for every role of the set in
order the packed color of the theme, once with the role and once with its property. -/
structure Written.Of (s : ThemeSet) (t : Theme) (w : Written) : Prop where
  identifier_eq : w.identifier = t.identifier
  displayName_eq : w.displayName = t.displayName
  variant : variantName? t.identifier = some w.variant
  typeName : Source.typeName t.identifier = .ok w.typeName
  palette : List.Forall₂ (fun role x => x.1 = role ∧ Packs t role x.2) s.roleNames w.palette
  methods : List.Forall₂ (fun role x => propertyName role = .ok x.1 ∧ Packs t role x.2)
    s.roleNames w.methods
  same_colors : w.methods.map Prod.snd = w.palette.map Prod.snd

def Written.toInfo (w : Written) : InfoText :=
  ⟨w.variant, w.displayName, w.typeName, w.palette⟩

def Written.toType (w : Written) : TypeText :=
  ⟨w.typeName, w.typeName, w.methods⟩

def registryOf (ns : Namespace) (n : Nat) (ws : List Written) : RegistryText where
  segments := ns.segments
  variants := ws.map Written.variant
  allCount := n
  all := ws.map Written.variant
  identifiers := ws.map fun w => (w.variant, w.identifier)
  displayNames := ws.map fun w => (w.variant, w.displayName)
  themeCount := n
  themes := ws.map Written.toInfo

def colorsOf (properties : List String) (ws : List Written) : ColorsText where
  properties := properties
  types := ws.map Written.toType

/-- The files are a file of colors and a registry. Read back, the enum, the list of all
variants, the two matches and the table of the registry name the same variants in the
order of the themes, both printed lengths are the number of themes, and every palette
and every type lists the roles in order with the packed colors of its theme. -/
def ReadsBack (s : ThemeSet) (ns : Namespace) (files : List SourceFile) : Prop :=
  ∃ (colors registry : SourceFile) (ws : List Written) (properties : List String),
    files = [colors, registry] ∧ colors.name = "theme_colors.rs" ∧
      registry.name = "theme_registry.rs" ∧ s.roleNames.Pairwise (· < ·) ∧
      List.Forall₂ (fun t w => Written.Of s t w) s.themes ws ∧
      List.Forall₂ (fun role property => propertyName role = .ok property) s.roleNames
        properties ∧
      readRegistry registry.contents = some (registryOf ns s.themes.length ws) ∧
      readColors colors.contents = some (colorsOf properties ws)

/-- The names of a theme, and its packed color for each role. -/
abbrev Told :=
  String × String × List (String × Option UInt32)

def told (s : ThemeSet) : List Told :=
  s.themes.map fun t => (t.identifier, t.displayName, s.roleNames.map fun role =>
    (role, (t.color? role).bind fun value => (Hex.pack value).toOption))

def RegistryText.told (r : RegistryText) : List Told :=
  (r.identifiers.zip r.themes).map fun x =>
    (x.1.2, x.2.displayName, x.2.palette.map fun y => (y.1, some y.2))

def Entry.toWritten (roles : List Role) (e : Entry) : Written where
  identifier := e.identifier
  displayName := e.displayName
  variant := e.variant
  typeName := e.typeName
  palette := List.zipWith (fun r c => (r.name, c)) roles e.colors
  methods := List.zipWith (fun r c => (r.property, c)) roles e.colors

theorem packs_of_pack {t : Theme} {role : String} {color : UInt32}
    (h : Plan.pack t role = .ok color) : Packs t role color := by
  unfold Plan.pack at h
  split at h
  · cases h
  · rename_i value hvalue
    split at h
    · rename_i n hpack
      cases h
      exact ⟨value, hvalue, hpack⟩
    · cases h

theorem forall₂_zipWith {names : List String} {roles : List Role} {colors : List UInt32}
    {P : Role → UInt32 → Prop} {Q : String → String × UInt32 → Prop} {f : Role → String}
    (hroles : List.Forall₂ RoleOf names roles) (hcolors : List.Forall₂ P roles colors)
    (h : ∀ name r c, RoleOf name r → P r c → Q name (f r, c)) :
    List.Forall₂ Q names (List.zipWith (fun r c => (f r, c)) roles colors) := by
  induction hroles generalizing colors with
  | nil => exact .nil
  | cons hname _ ih =>
      cases hcolors with
      | cons hcolor hcolors => exact .cons (h _ _ _ hname hcolor) (ih hcolors)

theorem snd_zipWith (f g : Role → String) (roles : List Role) (colors : List UInt32) :
    (List.zipWith (fun r c => (f r, c)) roles colors).map Prod.snd =
      (List.zipWith (fun r c => (g r, c)) roles colors).map Prod.snd := by
  rw [List.map_zipWith, List.map_zipWith]

theorem EntryOf.written {s : ThemeSet} {roles : List Role} {t : Theme} {e : Entry}
    (hroles : List.Forall₂ RoleOf s.roleNames roles) (h : EntryOf roles t e) :
    (e.toWritten roles).Of s t where
  identifier_eq := h.identifier_eq
  displayName_eq := h.displayName_eq
  variant := h.variant
  typeName := h.typeName
  palette := by
    apply forall₂_zipWith hroles h.colors
    intro name r c hr hc
    rw [hr.name_eq] at hc
    exact ⟨hr.name_eq, packs_of_pack hc⟩
  methods := by
    apply forall₂_zipWith hroles h.colors
    intro name r c hr hc
    rw [hr.name_eq] at hc
    exact ⟨hr.property, packs_of_pack hc⟩
  same_colors := snd_zipWith Role.property Role.name roles e.colors

theorem Written.Of.told_eq {s : ThemeSet} {t : Theme} {w : Written} (h : w.Of s t) :
    (s.roleNames.map fun role =>
      (role, (t.color? role).bind fun value => (Hex.pack value).toOption)) =
        w.palette.map fun x => (x.1, some x.2) := by
  have hpalette := h.palette
  generalize s.roleNames = names at hpalette ⊢
  generalize w.palette = palette at hpalette ⊢
  induction hpalette with
  | nil => rfl
  | cons hx _ ih =>
      obtain ⟨rfl, value, hvalue, hpack⟩ := hx
      rw [List.map_cons, List.map_cons, ih, hvalue, Option.bind_some, hpack]
      rfl

theorem told_registryOf {s : ThemeSet} {ws : List Written}
    (h : List.Forall₂ (fun t w => Written.Of s t w) s.themes ws) (ns : Namespace) (n : Nat) :
    (registryOf ns n ws).told = told s := by
  unfold RegistryText.told registryOf told
  simp only
  rw [List.zip_map', List.map_map]
  generalize s.themes = themes at h ⊢
  induction h with
  | nil => rfl
  | cons hw _ ih =>
      rw [List.map_cons, List.map_cons, ih, hw.told_eq, ← hw.identifier_eq, ← hw.displayName_eq]
      rfl

variable {text text' : String} {s s' : ThemeSet} {ns ns' : Namespace}
  {files files' : List SourceFile}

theorem emit_read (hns : Namespace.parse text = .ok ns) (h : emit s ns = .ok files) :
    ReadsBack s ns files := by
  obtain ⟨p, hplan, rfl⟩ := emit_eq_ok h
  have hlegible := legible_of_build hns hplan
  obtain ⟨rfl, hroles, hentries⟩ := Plan.build_eq_ok hplan
  refine ⟨colorsFile p, registryFile p, p.entries.map (Entry.toWritten p.roles),
    p.roles.map Role.property, rfl, rfl, rfl, pairwise_sortedDistinct _, ?_, ?_, ?_, ?_⟩
  · rw [List.forall₂_map_right_iff]
    exact hentries.imp fun t e he => he.written hroles
  · rw [List.forall₂_map_right_iff]
    exact hroles.imp fun name r hr => hr.property
  · rw [readRegistry_registryFile hlegible, hentries.length_eq]
    unfold Plan.toRegistry registryOf
    simp only [List.map_map]
    rfl
  · rw [readColors_colorsFile hlegible]
    unfold Plan.toColors colorsOf
    rw [List.map_map]
    rfl

/-- The files of a success read back as what they were made from, so two successes with
the same texts were given the same module path and the same names and colors. -/
theorem emit_reads_back (hns : Namespace.parse text = .ok ns) (h : emit s ns = .ok files) :
    ReadsBack s ns files ∧ ∀ text' s' ns' files', Namespace.parse text' = .ok ns' →
      emit s' ns' = .ok files' → files.map SourceFile.contents = files'.map SourceFile.contents →
        ns = ns' ∧ told s = told s' := by
  have hread := emit_read hns h
  refine ⟨hread, ?_⟩
  intro text' s' ns' files' hns' h' heq
  obtain ⟨colors, registry, ws, -, rfl, -, -, -, hws, -, hregistry, -⟩ := hread
  obtain ⟨colors', registry', ws', -, rfl, -, -, -, hws', -, hregistry', -⟩ := emit_read hns' h'
  simp only [List.map_cons, List.map_nil, List.cons.injEq, and_true] at heq
  rw [heq.2, hregistry', Option.some.injEq] at hregistry
  constructor
  · have hsegments := congrArg RegistryText.segments hregistry
    cases ns
    cases ns'
    exact congrArg Namespace.mk hsegments.symm
  · rw [← told_registryOf hws ns s.themes.length, ← hregistry, told_registryOf hws']

def hello : ThemeSet :=
  ⟨[⟨"Say \"hi\"", "SAY_HI", .ofList [("primary", "#4682B4"), ("on-primary", "#fff")], none⟩]⟩

def helloFromFile : ThemeSet :=
  ⟨hello.themes.map fun t => { t with source := some "hello.json" }⟩

theorem hello_reads_back :
    ∃ files, emit hello ⟨["app", "theme"]⟩ = .ok files ∧
      (∃ registry ∈ files,
        (readRegistry registry.contents).map RegistryText.told = some (told hello)) ∧
      emit helloFromFile ⟨["app", "theme"]⟩ = .ok files ∧ told hello = told helloFromFile := by
  have hns : Namespace.parse "app.theme" = .ok ⟨["app", "theme"]⟩ := by rfl
  have hok : (emit hello ⟨["app", "theme"]⟩).isOk = true := by decide +kernel
  have hsame : emit helloFromFile ⟨["app", "theme"]⟩ = emit hello ⟨["app", "theme"]⟩ := by rfl
  cases hfiles : emit hello ⟨["app", "theme"]⟩ with
  | error e =>
      rw [hfiles] at hok
      cases hok
  | ok files =>
      have hread := emit_reads_back hns hfiles
      obtain ⟨colors, registry, ws, -, hlist, -, -, -, hws, -, hregistry, -⟩ := hread.1
      refine ⟨files, rfl, ⟨registry, ?_, ?_⟩, ?_, ?_⟩
      · rw [hlist]
        simp
      · rw [hregistry, Option.map_some, told_registryOf hws]
      · rw [hsame, hfiles]
      · exact (hread.2 _ _ _ _ hns (hsame.trans hfiles) rfl).2

end Swatchbook.Source

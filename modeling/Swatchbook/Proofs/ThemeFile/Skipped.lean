import Swatchbook.Proofs.ThemeFile.Record
import Swatchbook.ThemeFile.Basic

/-! Theme files that are read without a fault and give no theme. A token set without
`color` gives none, whatever it declares, so a flat file is lost when it is taken for
one. -/
namespace Swatchbook

open Json (Reading Draft Lexeme)

theorem FileForm.detect_eq_flat_iff {r : Reading} : FileForm.detect r = .flat ↔
    ∃ members, r.decode = .ok (.object members) ∧ (members.lookup "colors").isSome ∧
      members.lookup "color" = none := by
  unfold FileForm.detect
  split
  · rename_i members hdecode
    constructor
    · intro h
      split at h
      · rename_i hkeys
        rw [Bool.and_eq_true, Option.isNone_iff_eq_none] at hkeys
        exact ⟨members, hdecode, hkeys⟩
      · cases h
    · rintro ⟨members', hdecode', hcolors, hcolor⟩
      rw [hdecode] at hdecode'
      cases hdecode'
      rw [hcolors, hcolor]
      rfl
  · rename_i hother
    constructor
    · exact nofun
    · rintro ⟨members, hdecode, -⟩
      exact absurd hdecode (hother members)

theorem Json.Reading.decode_eq_ok {r : Reading} {v : Json} (h : r.decode = .ok v) :
    r.root.decode Json.maxDepth = .ok v ∧ r.trailing = false := by
  unfold Json.Reading.decode at h
  obtain ⟨v', hv, h⟩ := bind_eq_ok_iff.1 h
  split at h
  · cases h
  · rename_i htrailing
    cases h
    exact ⟨hv, by simpa using htrailing⟩

namespace FlatTheme

theorem read_eq_ok {r : Reading} {t : FlatTheme} (h : FlatTheme.read r = .ok t) :
    ∃ s, shape.fromDraft {} r.root = .ok s ∧ ofFields s = .ok t := by
  unfold FlatTheme.read at h
  split at h
  · cases h
  · rename_i t' hreading
    unfold ofReading at hreading
    obtain ⟨s, hs, hreading⟩ := bind_eq_ok_iff.1 hreading
    obtain ⟨t'', ht, hreading⟩ := bind_eq_ok_iff.1 hreading
    split at hreading
    · cases hreading
    · cases hreading
      split at h
      · cases h
      · cases h
        exact ⟨s, hs, ht⟩

theorem ofFields_eq_ok {s : Fields} {t : FlatTheme} (h : ofFields s = .ok t) :
    s.name.isSome ∧ s.colors.isSome := by
  unfold ofFields at h
  split at h
  · rename_i name colors hname hcolors
    exact ⟨by rw [hname]; rfl, by rw [hcolors]; rfl⟩
  · cases h

theorem named_eq_colors {k : String} : shape.named k = some .colors ↔ k = "colors" := by
  unfold shape
  simp only
  split <;> simp_all

theorem exists_colors {members : List (Lexeme × Draft)} {s : Fields}
    (h : shape.draftMembers {} members = .ok s) (hcolors : s.colors.isSome) :
    ∃ e ∈ members, e.1.text = .ok "colors" := by
  refine Classical.byContradiction fun hnone => ?_
  have hkeeps : s.colors = none := by
    refine Json.Shape.draftMembers_keeps (P := fun s => s.colors = none) ?_ h rfl
    intro e he k f s s' hk hf hread hs
    cases f with
    | name =>
        obtain ⟨v, -, rfl⟩ := map_eq_ok_iff.1 hread
        exact hs
    | identifier =>
        obtain ⟨v, -, rfl⟩ := map_eq_ok_iff.1 hread
        exact hs
    | colors => exact absurd ⟨e, he, named_eq_colors.1 hf ▸ hk⟩ hnone
  rw [hkeeps] at hcolors
  cases hcolors

end FlatTheme

namespace TokenSet

theorem fieldsOf_eq_ok {r : Reading} {fields : Fields} (h : fieldsOf r = .ok fields) :
    shape.fromDraft {} r.root = .ok fields := by
  unfold fieldsOf at h
  obtain ⟨s, hs, h⟩ := bind_eq_ok_iff.1 h
  split at h
  · cases h
  · cases h
    exact hs

theorem read_eq_ok {r : Reading} {s : TokenSet} (h : (TokenSet.read r).outcome = .ok s) :
    ∃ fields, fieldsOf r = .ok fields ∧
      (fields.color.join = none ∧ s.tokens = none ∨
        ∃ color d, fields.color.join = some color ∧ (flatten color).outcome = .ok d ∧
          s.tokens = some d) ∧
      declaredThemes fields.themes.join = .ok s.themes := by
  unfold TokenSet.read at h
  rw [Logged.outcome_bind] at h
  obtain ⟨fields, hfields, h⟩ := bind_eq_ok_iff.1 h
  refine ⟨fields, mapError_eq_ok_iff.1 hfields, ?_⟩
  cases hcolor : fields.color.join with
  | none =>
      simp only [hcolor, Logged.outcome_bind, Logged.outcome_lift] at h
      obtain ⟨tokens, htokens, h⟩ := bind_eq_ok_iff.1 h
      obtain ⟨themes, hthemes, h⟩ := bind_eq_ok_iff.1 h
      cases htokens
      cases h
      exact ⟨Or.inl ⟨rfl, rfl⟩, hthemes⟩
  | some color =>
      simp only [hcolor, Logged.outcome_bind, Logged.outcome_map, Logged.outcome_lift] at h
      obtain ⟨tokens, htokens, h⟩ := bind_eq_ok_iff.1 h
      obtain ⟨d, hd, rfl⟩ := map_eq_ok_iff.1 htokens
      obtain ⟨themes, hthemes, h⟩ := bind_eq_ok_iff.1 h
      cases h
      exact ⟨Or.inr ⟨color, d, rfl, hd, rfl⟩, hthemes⟩

theorem named_eq_color {k : String} : shape.named k = some .color ↔ k = "color" := by
  unfold shape
  simp only
  split <;> simp_all

theorem tokens_eq_none {r : Reading} {members : List (String × Json)} {s : TokenSet}
    (hdecode : r.decode = .ok (.object members)) (hcolor : members.lookup "color" = none)
    (h : (TokenSet.read r).outcome = .ok s) : s.tokens = none := by
  obtain ⟨drafts, hroot, hmembers⟩ := Json.eq_object_of_decode (Json.Reading.decode_eq_ok hdecode).1
  have hkeys : ∀ e ∈ drafts, e.1.text ≠ .ok "color" := by
    intro e he htext
    have hsome := Json.lookup_isSome_of_decodeMembers hmembers he htext
    rw [hcolor] at hsome
    cases hsome
  obtain ⟨fields, hfields, htokens, -⟩ := read_eq_ok h
  obtain ⟨drafts', hdrafts, hshape⟩ | ⟨items, hitems, -⟩ :=
    Json.Shape.fromDraft_eq_ok (fieldsOf_eq_ok hfields)
  · rw [hroot, Draft.object.injEq] at hdrafts
    obtain ⟨rfl, -⟩ := hdrafts
    have hnone : fields.color = none := by
      refine Json.Shape.draftMembers_keeps (P := fun s => s.color = none) ?_ hshape rfl
      intro e he k f s s' hk hf hread hs
      cases f with
      | color => exact absurd (named_eq_color.1 hf ▸ hk) (hkeys e he)
      | themes =>
          obtain ⟨v, -, rfl⟩ := map_eq_ok_iff.1 hread
          exact hs
    rcases htokens with ⟨-, htokens⟩ | ⟨color, -, hsome, -⟩
    · exact htokens
    · rw [hnone] at hsome
      cases hsome
  · rw [hroot] at hitems
    cases hitems

/-- What reads as a flat theme and as a token set is an object: the first entry of an array
would have to be a name and colors at once. -/
theorem root_of_both {r : Reading} {t : FlatTheme} {fields : Fields}
    (hflat : FlatTheme.read r = .ok t) (h : fieldsOf r = .ok fields) :
    ∃ members, r.root = .object members none ∧ ∃ e ∈ members, e.1.text = .ok "colors" := by
  obtain ⟨s, hs, ht⟩ := FlatTheme.read_eq_ok hflat
  obtain ⟨hname, hcolors⟩ := FlatTheme.ofFields_eq_ok ht
  obtain ⟨members, hroot, hmembers⟩ | ⟨items, hroot, hitems⟩ := Json.Shape.fromDraft_eq_ok hs
  · exact ⟨members, hroot, FlatTheme.exists_colors hmembers hcolors⟩
  · obtain ⟨members, hroot', -⟩ | ⟨items', hroot', hitems'⟩ :=
      Json.Shape.fromDraft_eq_ok (fieldsOf_eq_ok h)
    · rw [hroot] at hroot'
      cases hroot'
    · rw [hroot] at hroot'
      cases hroot'
      cases items with
      | nil =>
          cases hitems
          cases hname
      | cons d rest =>
          obtain ⟨s₁, hfirst, -⟩ := bind_eq_ok_iff.1 hitems
          obtain ⟨fields₁, hfirst', -⟩ := bind_eq_ok_iff.1 hitems'
          obtain ⟨v, hv, -⟩ := map_eq_ok_iff.1 hfirst
          obtain ⟨w, hw, -⟩ := map_eq_ok_iff.1 hfirst'
          cases d with
          | text x => simp [Draft.orNull, asMembers, Except.map] at hw
          | _ => cases hv

theorem decode_of_both {r : Reading} {t : FlatTheme} {fields : Fields} {v : Json}
    (hflat : FlatTheme.read r = .ok t) (h : fieldsOf r = .ok fields) (hdecode : r.decode = .ok v) :
    ∃ members, v = .object members ∧ (members.lookup "colors").isSome := by
  obtain ⟨drafts, hroot, e, he, hcolors⟩ := root_of_both hflat h
  have hvalue := (Json.Reading.decode_eq_ok hdecode).1
  rw [hroot] at hvalue
  obtain ⟨members, rfl, hmembers⟩ := Json.decode_object hvalue
  exact ⟨members, rfl, Json.lookup_isSome_of_decodeMembers hmembers he hcolors⟩

theorem themesNamed_eq_nil_iff {s : TokenSet} {stem : String} :
    (s.themesNamed stem).outcome = .ok [] ↔ s.tokens = none := by
  unfold TokenSet.themesNamed
  cases s.tokens with
  | none => exact ⟨fun _ => rfl, fun _ => rfl⟩
  | some tokens =>
      simp only [Logged.outcome_bind, reduceCtorEq, iff_false]
      intro h
      obtain ⟨colors, -, h⟩ := bind_eq_ok_iff.1 h
      rw [Logged.outcome_pure, Except.ok.injEq, List.map_eq_nil_iff] at h
      split at h
      · cases h
      · rename_i hthemes
        rw [h] at hthemes
        exact hthemes rfl

end TokenSet

namespace ThemeFile

/-- A token set is what a text is read as when it reads as one and nothing has been read
before; after a failed flat theme it must declare something as well. -/
theorem read_eq_tokenSet_iff {r : Reading} {s : TokenSet} :
    (ThemeFile.read r).outcome = .ok (.tokenSet s) ↔
      (TokenSet.read r).outcome = .ok s ∧
        (FileForm.detect r = .flat →
          (∃ e, FlatTheme.read r = .error e) ∧ s.declaresTokens = true) := by
  unfold ThemeFile.read
  cases hform : FileForm.detect r with
  | tokenSet =>
      simp only [Logged.outcome_bind, Logged.outcome_attempt, Except.bind]
      cases (TokenSet.read r).outcome with
      | ok s' => simp
      | error e => cases FlatTheme.read r <;> simp
  | flat =>
      cases FlatTheme.read r with
      | ok t => simp
      | error e' =>
          simp only [Logged.outcome_bind, Logged.outcome_attempt, Except.bind]
          cases (TokenSet.read r).outcome with
          | error e => simp
          | ok s' =>
              by_cases hdeclares : s'.declaresTokens = true
              · simp only [if_pos hdeclares, Logged.outcome_pure, Except.ok.injEq, tokenSet.injEq]
                constructor
                · rintro rfl
                  exact ⟨rfl, fun _ => ⟨⟨e', rfl⟩, hdeclares⟩⟩
                · exact fun h => h.1
              · simp only [if_neg hdeclares, Logged.outcome_fail, reduceCtorEq, false_iff]
                rintro ⟨hs, hflat⟩
                cases hs
                exact hdeclares (hflat trivial).2

theorem read_eq_flat_iff {r : Reading} {t : FlatTheme} :
    (ThemeFile.read r).outcome = .ok (.flat t) ↔
      FlatTheme.read r = .ok t ∧
        (FileForm.detect r = .tokenSet → ∃ e, (TokenSet.read r).outcome = .error e) := by
  unfold ThemeFile.read
  cases hform : FileForm.detect r with
  | tokenSet =>
      simp only [Logged.outcome_bind, Logged.outcome_attempt, Except.bind]
      cases (TokenSet.read r).outcome with
      | ok s => simp
      | error e => cases FlatTheme.read r <;> simp
  | flat =>
      cases FlatTheme.read r with
      | ok t' => simp
      | error e' =>
          simp only [Logged.outcome_bind, Logged.outcome_attempt, Except.bind]
          cases (TokenSet.read r).outcome with
          | error e => simp
          | ok s => cases hdeclares : s.declaresTokens <;> simp [hdeclares]

theorem themes_eq_nil_iff {fileName : String} {contents : List UInt8} :
    (ThemeFile.themes fileName contents).outcome = .ok [] ↔
      ∃ s, (ThemeFile.read (Json.scan contents)).outcome = .ok (.tokenSet s) ∧ s.tokens = none := by
  unfold ThemeFile.themes
  simp only [Logged.outcome_bind, Logged.outcome_mapError]
  constructor
  · intro h
    obtain ⟨file, hfile, h⟩ := bind_eq_ok_iff.1 h
    obtain ⟨themes, hthemes, h⟩ := bind_eq_ok_iff.1 h
    rw [Logged.outcome_pure, Except.ok.injEq, List.map_eq_nil_iff] at h
    rw [h, mapError_eq_ok_iff] at hthemes
    cases file with
    | flat t => cases hthemes
    | tokenSet s =>
        exact ⟨s, mapError_eq_ok_iff.1 hfile, TokenSet.themesNamed_eq_nil_iff.1 hthemes⟩
  · rintro ⟨s, hread, htokens⟩
    refine bind_eq_ok_iff.2 ⟨.tokenSet s, mapError_eq_ok_iff.2 hread,
      bind_eq_ok_iff.2 ⟨[], mapError_eq_ok_iff.2 ?_, rfl⟩⟩
    exact TokenSet.themesNamed_eq_nil_iff.2 htokens

theorem themes_of_read_flat {fileName : String} {contents : List UInt8} {t : FlatTheme}
    (h : (ThemeFile.read (Json.scan contents)).outcome = .ok (.flat t)) :
    (ThemeFile.themes fileName contents).outcome =
      .ok [{ t.toTheme with source := some fileName }] := by
  unfold ThemeFile.themes
  simp only [Logged.outcome_bind, Logged.outcome_mapError]
  exact bind_eq_ok_iff.2 ⟨.flat t, mapError_eq_ok_iff.2 h, rfl⟩

theorem read_of_themes {fileName : String} {contents : List UInt8} {ts : List Theme}
    (h : (ThemeFile.themes fileName contents).outcome = .ok ts) :
    ∃ file, (ThemeFile.read (Json.scan contents)).outcome = .ok file := by
  unfold ThemeFile.themes at h
  simp only [Logged.outcome_bind, Logged.outcome_mapError] at h
  obtain ⟨file, hfile, -⟩ := bind_eq_ok_iff.1 h
  exact ⟨file, mapError_eq_ok_iff.1 hfile⟩

/-- A text that seems flat gives the theme it is read as. If it is no flat theme it is
refused, but for a token set that declares themes: that is accepted and gives none, since
a text that seems flat has no colors to share. -/
theorem seeming_flat_themes {contents : List UInt8}
    (h : FileForm.detect (Json.scan contents) = .flat) (fileName : String) :
    ((ThemeFile.themes fileName contents).outcome = .ok [] ↔
      (∃ e, FlatTheme.read (Json.scan contents) = .error e) ∧
        ∃ s, (TokenSet.read (Json.scan contents)).outcome = .ok s ∧ s.tokens = none ∧
          s.themes ≠ []) ∧
    ∀ ts, (ThemeFile.themes fileName contents).outcome = .ok ts → ts ≠ [] →
      ∃ t, FlatTheme.read (Json.scan contents) = .ok t ∧
        ts = [{ t.toTheme with source := some fileName }] := by
  obtain ⟨members, hdecode, -, hcolor⟩ := FileForm.detect_eq_flat_iff.1 h
  have hnone : ∀ s, (TokenSet.read (Json.scan contents)).outcome = .ok s → s.tokens = none :=
    fun s hs => TokenSet.tokens_eq_none hdecode hcolor hs
  have hdeclares : ∀ s : TokenSet, s.tokens = none → (s.declaresTokens = true ↔ s.themes ≠ []) := by
    intro s hs
    simp [TokenSet.declaresTokens, hs]
  constructor
  · rw [themes_eq_nil_iff]
    constructor
    · rintro ⟨s, hread, htokens⟩
      obtain ⟨hs, hflat⟩ := read_eq_tokenSet_iff.1 hread
      exact ⟨(hflat h).1, s, hs, htokens, (hdeclares s htokens).1 (hflat h).2⟩
    · rintro ⟨hflat, s, hs, htokens, hthemes⟩
      exact ⟨s, read_eq_tokenSet_iff.2 ⟨hs, fun _ => ⟨hflat, (hdeclares s htokens).2 hthemes⟩⟩,
        htokens⟩
  · intro ts hts hne
    obtain ⟨file, hfile⟩ := read_of_themes hts
    cases file with
    | tokenSet s =>
        have hnil : (ThemeFile.themes fileName contents).outcome = .ok [] :=
          themes_eq_nil_iff.2 ⟨s, hfile, hnone s (read_eq_tokenSet_iff.1 hfile).1⟩
        rw [hnil, Except.ok.injEq] at hts
        exact absurd hts.symm hne
    | flat t =>
        rw [themes_of_read_flat hfile, Except.ok.injEq] at hts
        exact ⟨t, (read_eq_flat_iff.1 hfile).1, hts.symm⟩

def brokenRoyal : List UInt8 :=
  "\x7b\"name\":\"Royal\",\"colors\":\x7b\"p\":true\x7d,\"$themes\":\x7b\"royal\":\x7b\x7d\x7d\x7d".toUTF8.toList

theorem brokenRoyal_vanishes :
    FileForm.detect (Json.scan brokenRoyal) = .flat ∧
      (ThemeFile.themes "royal.json" brokenRoyal).outcome = .ok [] := by
  have hform : FileForm.detect (Json.scan brokenRoyal) = .flat := by decide +kernel
  have hset : (TokenSet.read (Json.scan brokenRoyal)).outcome.toOption.map
      (fun s => (s.tokens.isNone, s.themes.length)) = some (true, 1) := by decide +kernel
  obtain ⟨s, hs, hseen⟩ := exists_of_toOption hset
  rw [Prod.mk.injEq, Option.isNone_iff_eq_none] at hseen
  exact ⟨hform, (seeming_flat_themes hform "royal.json").1.2 ⟨exists_of_not_isOk (by decide +kernel),
    s, hs, hseen.1, List.ne_nil_of_length_eq_add_one hseen.2⟩⟩

/-- A flat theme is skipped exactly when the text does not decode as a whole or has a
`color`, and reads as a token set without tokens. Otherwise, where the text seems flat, it
is the theme of its file. -/
theorem flat_theme_skipped_iff {contents : List UInt8} {t : FlatTheme}
    (h : FlatTheme.read (Json.scan contents) = .ok t) (fileName : String) :
    ((ThemeFile.themes fileName contents).outcome = .ok [] ↔
      ((∃ f, (Json.scan contents).decode = .error f) ∨
        ∃ members, (Json.scan contents).decode = .ok (.object members) ∧
          (members.lookup "color").isSome) ∧
      ∃ s, (TokenSet.read (Json.scan contents)).outcome = .ok s ∧ s.tokens = none) ∧
    (FileForm.detect (Json.scan contents) = .flat →
      (ThemeFile.themes fileName contents).outcome =
        .ok [{ t.toTheme with source := some fileName }]) := by
  constructor
  · rw [themes_eq_nil_iff]
    constructor
    · rintro ⟨s, hread, htokens⟩
      obtain ⟨hs, hform⟩ := read_eq_tokenSet_iff.1 hread
      refine ⟨?_, s, hs, htokens⟩
      obtain ⟨fields, hfields, -⟩ := TokenSet.read_eq_ok hs
      cases hdecode : (Json.scan contents).decode with
      | error f => exact Or.inl ⟨f, rfl⟩
      | ok v =>
          obtain ⟨members, rfl, hcolors⟩ := TokenSet.decode_of_both h hfields hdecode
          refine Or.inr ⟨members, rfl, ?_⟩
          -- without a color the text would seem flat, and the flat theme would be taken
          rw [Option.isSome_iff_ne_none]
          intro hcolor
          obtain ⟨e, hfails⟩ := (hform (FileForm.detect_eq_flat_iff.2
            ⟨members, hdecode, hcolors, hcolor⟩)).1
          rw [h] at hfails
          cases hfails
    · rintro ⟨hundetected, s, hs, htokens⟩
      refine ⟨s, read_eq_tokenSet_iff.2 ⟨hs, fun hform => ?_⟩, htokens⟩
      obtain ⟨members, hdecode, -, hcolor⟩ := FileForm.detect_eq_flat_iff.1 hform
      rcases hundetected with ⟨f, hf⟩ | ⟨members', hdecode', hsome⟩
      · rw [hdecode] at hf
        cases hf
      · rw [hdecode] at hdecode'
        cases hdecode'
        rw [hcolor] at hsome
        cases hsome
  · intro hform
    apply themes_of_read_flat
    refine read_eq_flat_iff.2 ⟨h, fun hother => ?_⟩
    rw [hform] at hother
    cases hother

def numberedRoyal : List UInt8 :=
  "\x7b\"name\":\"Royal\",\"colors\":\x7b\"p\":\"#4169E1\"\x7d,\"rev\":1e999\x7d".toUTF8.toList

theorem numberedRoyal_skipped :
    (FlatTheme.read (Json.scan numberedRoyal)).isOk = true ∧
      (ThemeFile.themes "royal.json" numberedRoyal).outcome = .ok [] := by
  have hok : (FlatTheme.read (Json.scan numberedRoyal)).isOk = true := by decide +kernel
  have hdecode : (Json.scan numberedRoyal).decode.isOk = false := by decide +kernel
  have hset : (TokenSet.read (Json.scan numberedRoyal)).outcome.toOption.map
      (fun s => s.tokens.isNone) = some true := by decide +kernel
  obtain ⟨t, hflat⟩ := exists_of_isOk hok
  obtain ⟨f, hf⟩ := exists_of_not_isOk hdecode
  obtain ⟨s, hs, htokens⟩ := exists_of_toOption hset
  exact ⟨hok, (flat_theme_skipped_iff hflat "royal.json").1.2
    ⟨Or.inl ⟨f, hf⟩, s, hs, Option.isNone_iff_eq_none.1 htokens⟩⟩

end ThemeFile

end Swatchbook

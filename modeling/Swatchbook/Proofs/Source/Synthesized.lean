import Swatchbook.Proofs.Naming
import Swatchbook.Proofs.Source.Emittable

/-! Type names of themes whose identifiers are made from their names. Such an identifier is
put together from words of capitals and digits. -/
namespace Swatchbook

namespace Text

theorem map_extendFirst (f : Char → Char) (c : Char) (ps : List (List Char)) :
    (extendFirst c ps).map (List.map f) = extendFirst (f c) (ps.map (List.map f)) := by
  cases ps <;> rfl

theorem pieces_map {sep : Char} {f : Char → Char} {s : List Char}
    (h : ∀ c ∈ s, f c = sep ↔ c = sep) :
    pieces sep (s.map f) = (pieces sep s).map (List.map f) := by
  induction s with
  | nil => rfl
  | cons c r ih =>
      rw [List.forall_mem_cons] at h
      rw [List.map_cons, pieces, pieces, ih h.2]
      by_cases hc : c = sep
      · rw [if_pos (h.1.2 hc), if_pos hc]
        rfl
      · rw [if_neg (mt h.1.1 hc), if_neg hc, map_extendFirst]

end Text

namespace Source

/-- The words of an identifier, which stand between its underscores. -/
def words (identifier : String) : List (List Char) :=
  (Text.pieces '_' identifier.toList).filter (· ≠ [])

/-- A word of capitals with only its first letter left in upper case. -/
def titled : List Char → List Char
  | [] => []
  | c :: r => c :: r.map Char.toLower

def IsWordPart (c : Char) : Prop :=
  c.isUpper = true ∨ c.isDigit = true

theorem isIdentifierPart_of_isWordPart {c : Char} (h : IsWordPart c) : isIdentifierPart c = true :=
  IsCapitalPart.isIdentifierPart (h.imp_right .inl)

theorem toUpper_toLower {c : Char} (h : IsWordPart c) : c.toLower.toUpper = c :=
  forall_ascii (P := fun c => (c.isUpper || c.isDigit) = true → c.toLower.toUpper = c) (by decide) c
    (toNat_of_part (isIdentifierPart_of_isWordPart h)) (Bool.or_eq_true_iff.2 h)

theorem capitalize_map_toLower {w : List Char} (h : ∀ c ∈ w, IsWordPart c) :
    Text.capitalize (w.map Char.toLower) = titled w := by
  cases w with
  | nil => rfl
  | cons c r =>
      rw [List.forall_mem_cons] at h
      have hascii : c.toLower.toNat < 0x80 :=
        toNat_of_part (isIdentifierPart_toLower (isIdentifierPart_of_isWordPart h.1))
      rw [List.map_cons, Text.capitalize, Text.upper, if_pos hascii, toUpper_toLower h.1]
      rfl

variable {identifier : String}

theorem isWordPart_of_mem_pieces (h : ∀ c ∈ identifier.toList, IsCapitalPart c) {w : List Char}
    (hw : w ∈ Text.pieces '_' identifier.toList) {c : Char} (hc : c ∈ w) : IsWordPart c := by
  have hne : c ≠ '_' := by
    rintro rfl
    exact Text.not_mem_of_mem_pieces hw hc
  exact (h c (Text.mem_of_mem_pieces hw hc)).imp_right fun hpart => hpart.resolve_right hne

theorem flatMap_titled_filter (ws : List (List Char)) :
    (ws.filter (· ≠ [])).flatMap titled = ws.flatMap titled := by
  induction ws with
  | nil => rfl
  | cons w ws ih =>
      cases w with
      | nil => simpa [titled] using ih
      | cons c r =>
          rw [List.filter_cons_of_pos (by simp), List.flatMap_cons, List.flatMap_cons, ih]

theorem joinedName_eq_titled (h : ∀ c ∈ identifier.toList, IsCapitalPart c) :
    joinedName identifier = String.ofList ((words identifier).flatMap titled) := by
  have hparts : ∀ c ∈ identifier.toList, isIdentifierPart c = true :=
    fun c hc => (h c hc).isIdentifierPart
  have hpieces : Text.pieces '_' (Text.lowerText identifier.toList) =
      (Text.pieces '_' identifier.toList).map (List.map Char.toLower) := by
    rw [Text.lowerText, Text.lowerAfter_ascii fun c hc => toNat_of_part (hparts c hc)]
    exact Text.pieces_map fun c hc => toLower_eq_underscore (hparts c hc)
  have htitled : (Text.pieces '_' identifier.toList).map (Text.capitalize ∘ List.map Char.toLower) =
      (Text.pieces '_' identifier.toList).map titled :=
    List.map_congr_left fun w hw =>
      capitalize_map_toLower fun c hc => isWordPart_of_mem_pieces h hw hc
  rw [joinedName, hpieces, List.map_map, htitled, words, flatMap_titled_filter, List.flatMap]

/-- Words that are put together to `Self` are the one word `SELF`: a second one would start with
a capital or a digit. -/
theorem titled_eq_self_iff {ws : List (List Char)}
    (hws : ∀ w ∈ ws, w ≠ [] ∧ ∀ c ∈ w, IsWordPart c) :
    ws.flatMap titled = ['S', 'e', 'l', 'f'] ↔ ws = [['S', 'E', 'L', 'F']] := by
  refine ⟨fun h => ?_, fun h => h ▸ rfl⟩
  match ws, hws with
  | [], _ => cases h
  | [] :: _, hws => exact absurd rfl (hws [] List.mem_cons_self).1
  | (c :: r) :: rest, hws =>
      rw [List.forall_mem_cons, List.forall_mem_cons] at hws
      obtain ⟨⟨-, -, hword⟩, hrest⟩ := hws
      rw [List.flatMap_cons, titled, List.cons_append, List.cons.injEq] at h
      obtain ⟨rfl, htail⟩ := h
      match rest, hrest with
      | [], _ =>
          have hlow : r.map Char.toLower = ['e', 'l', 'f'] := by simpa using htail
          have hback : (r.map Char.toLower).map Char.toUpper = r := by
            rw [List.map_map]
            exact (List.map_congr_left fun x hx => toUpper_toLower (hword x hx)).trans r.map_id
          rw [← hback, hlow]
          rfl
      | [] :: _, hrest => exact absurd rfl (hrest [] List.mem_cons_self).1
      | (d :: s) :: _, hrest =>
          have hmem : d ∈ ['e', 'l', 'f'] := by
            rw [← htail]
            exact List.mem_append_right _ List.mem_cons_self
          have hd : IsWordPart d := (hrest _ List.mem_cons_self).2 d List.mem_cons_self
          have hlower : ['e', 'l', 'f'].all (fun x => !(x.isUpper || x.isDigit)) = true := rfl
          have hnot := List.all_eq_true.1 hlower d hmem
          rw [Bool.or_eq_true_iff.2 hd] at hnot
          cases hnot

theorem joinedName_eq_self_iff (h : ∀ c ∈ identifier.toList, IsCapitalPart c) :
    joinedName identifier = "Self" ↔ words identifier = [['S', 'E', 'L', 'F']] := by
  have hwords : ∀ w ∈ words identifier, w ≠ [] ∧ ∀ c ∈ w, IsWordPart c := by
    intro w hw
    obtain ⟨hpiece, hne⟩ := List.mem_filter.1 hw
    exact ⟨of_decide_eq_true hne, fun c hc => isWordPart_of_mem_pieces h hpiece hc⟩
  rw [← titled_eq_self_iff hwords, joinedName_eq_titled h, ← String.toList_inj,
    String.toList_ofList]
  exact Iff.rfl

theorem not_isDigit_of_isLetter {c : Char} (h : IsLetter c) : ¬IsDigit c := by
  rintro ⟨-, h9⟩
  rcases h with ⟨hA, -⟩ | ⟨ha, -⟩
  · exact absurd (Char.le_trans hA h9) (by decide)
  · exact absurd (Char.le_trans ha h9) (by decide)

theorem startsWithWord_iff (h : ∀ c ∈ identifier.toList, IsCapitalPart c)
    (hword : ∃ c ∈ identifier.toList, c ≠ '_') :
    (∃ c, identifier.toList.find? (· != '_') = some c ∧ IsLetter c) ↔
      ∀ c, identifier.toList.find? (· != '_') = some c → ¬IsDigit c := by
  obtain ⟨c, hc⟩ : ∃ c, identifier.toList.find? (· != '_') = some c :=
    Option.isSome_iff_exists.1 (List.find?_isSome.2 (hword.imp fun _ h => h.imp_right bne_iff_ne.2))
  have hpart := h c (List.mem_of_find?_eq_some hc)
  have hfound : (c != '_') = true := List.find?_some (p := (· != '_')) hc
  rw [hc]
  simp only [Option.some.injEq, exists_eq_left', forall_eq']
  refine ⟨not_isDigit_of_isLetter, fun hdigit => isAlpha_iff_isLetter.1 (isAlpha_iff.2 (.inl ?_))⟩
  exact hpart.resolve_right fun hrest =>
    hrest.elim (hdigit ∘ isDigit_iff_isDigit.1) (bne_iff_ne.1 hfound)

/-- A name with a letter makes an identifier. A type is named after it, unless its first word
starts with a digit or its only word is `SELF`. -/
theorem synthesized_identifier_names_type {name : String} (h : ∃ c ∈ name.toList, IsLetter c) :
    isIdentifier (Naming.identifier name) = true ∧
      ((∃ type, typeName (Naming.identifier name) = .ok type) ↔
        (∀ c, (Naming.identifier name).toList.find? (· != '_') = some c → ¬IsDigit c) ∧
          words (Naming.identifier name) ≠ [['S', 'E', 'L', 'F']]) := by
  obtain ⟨c, hc, hletter⟩ := h
  rw [← isAlpha_iff_isLetter] at hletter
  have hparts : ∀ d ∈ (Naming.identifier name).toList, IsCapitalPart d :=
    fun d hd => Naming.isCapitalPart_of_mem_identifier hd
  have hcapital := isUpper_toUpper_of_isAlpha hletter
  have hword : ∃ d ∈ (Naming.identifier name).toList, d ≠ '_' :=
    ⟨c.toUpper, Naming.toUpper_mem_identifier hc hletter, fun heq => by simp [heq] at hcapital⟩
  have hid := Naming.isIdentifier_identifier hc hletter
  refine ⟨hid, ?_⟩
  rw [← startsWithWord_iff hparts hword, ← (joinedName_eq_self_iff hparts).ne,
    ← exists_typeName_iff hid]
  exact ⟨fun ⟨_, htype⟩ => (typeName_eq_ok htype).1 ▸ htype, fun htype => ⟨_, htype⟩⟩

theorem overSelf_names_type :
    (∃ c ∈ "Über-self 2024".toList, IsLetter c) ∧
      isIdentifier (Naming.identifier "Über-self 2024") = true ∧
      ∃ type, typeName (Naming.identifier "Über-self 2024") = .ok type := by
  have hletter : ∃ c ∈ "Über-self 2024".toList, IsLetter c :=
    ⟨'b', by decide, .inr (by decide)⟩
  obtain ⟨hid, hnames⟩ := synthesized_identifier_names_type hletter
  have hfirst : (Naming.identifier "Über-self 2024").toList.find? (· != '_') = some 'B' := by
    decide +kernel
  refine ⟨hletter, hid, hnames.2 ⟨?_, by decide +kernel⟩⟩
  rintro c hc ⟨-, h9⟩
  cases hfirst.symm.trans hc
  exact absurd h9 (by decide)

/-- A name with a letter may still start with a digit, or spell a word that no type can have. -/
theorem not_all_synthesized_named :
    (¬∀ name, (∃ c ∈ name.toList, IsLetter c) →
        isIdentifier (Naming.identifier name) = true ∧
          ∃ type, typeName (Naming.identifier name) = .ok type) ∧
      typeName (Naming.identifier "self") = .error "Self" ∧
      typeName (Naming.identifier "2024-spring") = .error "2024Spring" := by
  have hself : typeName (Naming.identifier "self") = .error "Self" := by decide +kernel
  refine ⟨fun hall => ?_, hself, by decide +kernel⟩
  obtain ⟨-, type, htype⟩ := hall "self" ⟨'s', by decide, .inr (by decide)⟩
  rw [hself] at htype
  cases htype

end Source

end Swatchbook

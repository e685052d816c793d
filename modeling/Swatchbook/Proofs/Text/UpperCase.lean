import Swatchbook.Text.Case

/-! Upper case is reached in one step: what stands in the upper case of a character has no
upper case of its own. The characters that change and those that they change to are compared
as two sets of bits, because the tables are too long to be compared entry by entry. -/
namespace Swatchbook

theorem forall_ascii {P : Char → Prop} (h : ∀ n < 0x80, P (Char.ofNat n)) (c : Char)
    (hc : c.toNat < 0x80) : P c := by
  have hofNat := h c.toNat hc
  rwa [Char.ofNat_toNat] at hofNat

namespace Text

/-- The number that has a one just at the given places. -/
def bits (ns : List Nat) : Nat :=
  ns.foldr (fun n rest => 1 <<< n ||| rest) 0

theorem testBit_bits {ns : List Nat} {n : Nat} : (bits ns).testBit n = true ↔ n ∈ ns := by
  induction ns with
  | nil => simp [bits]
  | cons m r ih =>
      rw [bits, List.foldr_cons, Nat.testBit_or, Nat.one_shiftLeft, Nat.testBit_two_pow,
        Bool.or_eq_true, decide_eq_true_eq, List.mem_cons, eq_comm]
      exact or_congr_right ih

theorem not_mem_of_bits {ms ns : List Nat} (h : bits ms &&& bits ns = 0) {n : Nat} (hn : n ∈ ms) :
    n ∉ ns := by
  intro hmem
  have hboth : (bits ms &&& bits ns).testBit n = true := by
    rw [Nat.testBit_and, testBit_bits.2 hn, testBit_bits.2 hmem, Bool.and_self]
  rw [h, Nat.zero_testBit] at hboth
  cases hboth

def runFrom (start : Nat) (run : Nat × Nat × Nat × Nat) : List Nat :=
  List.range' start ((run.2.1 - run.1) / run.2.2.1 + 1) run.2.2.1

theorem runImage?_eq_some {runs : List (Nat × Nat × Nat × Nat)} {n m : Nat}
    (h : runImage? runs n = some m) :
    ∃ run ∈ runs, n ∈ runFrom run.1 run ∧ m ∈ runFrom run.2.2.2 run := by
  induction runs with
  | nil => cases h
  | cons run rest ih =>
      obtain ⟨first, last, step, image⟩ := run
      rw [runImage?] at h
      split at h
      · rename_i hn
        obtain ⟨hfirst, hlast, hstep⟩ := hn
        obtain rfl := Option.some.inj h
        have hcount : (n - first) / step < (last - first) / step + 1 := by
          have := Nat.div_le_div_right (c := step) (Nat.sub_le_sub_right hlast first)
          omega
        have hwhole : step * ((n - first) / step) = n - first := by
          have := Nat.div_add_mod (n - first) step
          omega
        refine ⟨_, List.mem_cons_self, List.mem_range'.2 ⟨_, hcount, ?_⟩,
          List.mem_range'.2 ⟨_, hcount, ?_⟩⟩
        · dsimp only
          omega
        · dsimp only
          omega
      · obtain ⟨run, hrun, hsides⟩ := ih h
        exact ⟨run, List.mem_cons_of_mem _ hrun, hsides⟩

def raised : List Nat :=
  List.range' 0x61 26 ++ upperLong.map Prod.fst ++ upperRuns.flatMap fun run => runFrom run.1 run

/-- The characters of ASCII but its small letters, and those that stand in the upper case of
another character. -/
def settled : List Nat :=
  List.range 0x61 ++ List.range' 0x7B 5 ++
    (upperLong.flatMap Prod.snd ++ upperRuns.flatMap fun run => runFrom run.2.2.2 run)

theorem not_mem_raised {n : Nat} (h : n ∈ settled) : n ∉ raised := by
  have hbits : bits settled &&& bits raised = 0 := by decide +kernel
  exact not_mem_of_bits hbits h

theorem ofNat_mem_settled {n : Nat} (h : n ∈ settled) : (Char.ofNat n).toNat ∈ settled := by
  by_cases hvalid : n.isValidChar
  · rw [Char.ofNat, dif_pos hvalid]
    exact h
  · rw [Char.ofNat, dif_neg hvalid]
    exact List.mem_append_left _ (by decide)

theorem caseImage_of_not_mem_raised {c : Char} (h : c.toNat ∉ raised) :
    caseImage upperLong upperRuns c = [c] := by
  simp only [raised, List.mem_append, not_or] at h
  have hlong : upperLong.lookup c.toNat = none := by
    rw [List.lookup_eq_none_iff]
    intro e he
    rw [bne_iff_ne]
    intro heq
    exact h.1.2 (heq ▸ List.mem_map_of_mem he)
  have hruns : runImage? upperRuns c.toNat = none := by
    rw [Option.eq_none_iff_forall_ne_some]
    intro m hm
    obtain ⟨run, hrun, hc, -⟩ := runImage?_eq_some hm
    exact h.2 (List.mem_flatMap.2 ⟨run, hrun, hc⟩)
  rw [caseImage, hlong, hruns]

theorem upper_of_not_mem_raised {c : Char} (h : c.toNat ∉ raised) : upper c = [c] := by
  rw [upper]
  split
  · rename_i hascii
    simp only [raised, List.mem_append, not_or, List.mem_range'_1] at h
    have hc : c.toUpper = c :=
      forall_ascii (P := fun c => c.toNat < 0x61 ∨ 0x61 + 26 ≤ c.toNat → c.toUpper = c)
        (by decide) c hascii (by omega)
    rw [hc]
  · exact caseImage_of_not_mem_raised h

theorem caseImage_settled (c : Char) :
    caseImage upperLong upperRuns c = [c] ∨
      ∀ d ∈ caseImage upperLong upperRuns c, d.toNat ∈ settled := by
  unfold caseImage
  split
  · rename_i image hlong
    right
    intro d hd
    obtain ⟨n, hn, rfl⟩ := List.mem_map.1 hd
    obtain ⟨before, after, hsplit, -⟩ := List.lookup_eq_some_iff.1 hlong
    have hmem : (c.toNat, image) ∈ upperLong :=
      hsplit ▸ List.mem_append_right _ List.mem_cons_self
    apply ofNat_mem_settled
    apply List.mem_append_right
    apply List.mem_append_left
    exact List.mem_flatMap.2 ⟨_, hmem, hn⟩
  · split
    · rename_i n hrun
      right
      intro d hd
      obtain rfl := List.mem_singleton.1 hd
      obtain ⟨run, hmem, -, hn⟩ := runImage?_eq_some hrun
      apply ofNat_mem_settled
      apply List.mem_append_right
      apply List.mem_append_right
      exact List.mem_flatMap.2 ⟨run, hmem, hn⟩
    · exact .inl rfl

theorem upper_settled (c : Char) : upper c = [c] ∨ ∀ d ∈ upper c, d.toNat ∈ settled := by
  unfold upper
  split
  · rename_i hascii
    right
    intro d hd
    obtain rfl := List.mem_singleton.1 hd
    have hupper := forall_ascii (P := fun c => c.toUpper.toNat < 0x61 ∨
      0x7B ≤ c.toUpper.toNat ∧ c.toUpper.toNat < 0x7B + 5) (by decide) c hascii
    rw [← List.mem_range, ← List.mem_range'_1, ← List.mem_append] at hupper
    exact List.mem_append_left _ hupper
  · exact caseImage_settled c

theorem flatMap_eq_self {f : Char → List Char} {s : List Char} (h : ∀ c ∈ s, f c = [c]) :
    s.flatMap f = s := by
  rw [List.flatMap_def, List.map_congr_left h, ← List.flatMap_def, List.flatMap_singleton']

theorem flatMap_upper_upper (c : Char) : (upper c).flatMap upper = upper c := by
  rcases upper_settled c with h | h
  · simp [h]
  · apply flatMap_eq_self
    intro d hd
    exact upper_of_not_mem_raised (not_mem_raised (h d hd))

end Text

end Swatchbook
